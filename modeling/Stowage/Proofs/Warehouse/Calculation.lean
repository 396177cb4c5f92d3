import Stowage.Proofs.Warehouse.Clash

/-!
# The steps of a calculation

What a step does to the stored solutions and to the outbox. Only the step that stores a solution
changes the table (`step_solutions`), and only the one that publishes it changes the outbox
(`step_outbox`). A solution that has a view can also be published (`view_eq_ok`).
-/

namespace Stowage

namespace Checked

variable {α β : Type}

theorem settle_eq_ok {c : Checked α} {a : α} : c.settle = .ok a ↔ c = .ok a := by
  cases c <;> simp [settle, Except.mapError]

theorem both_eq_ok {c : Checked α} {d : Checked β} {p : α × β} :
    c.both d = .ok p ↔ c = .ok p.1 ∧ d = .ok p.2 := by
  cases c <;> cases d <;> simp [both, Prod.ext_iff]

end Checked

/-! ## The event of a solution -/

namespace Solution

variable {s : Solution} {v : SolutionView} {e : OutboundEvent}

/-- The event of a solution on its way out. -/
def announcement (s : Solution) : Fallible OutboundEvent := do
  let event ← s.calculatedEvent
  let payload ← event.payload
  return ⟨Warehouse.solutionTopic, .text s.id, payload⟩

/-- The event is about the solution and the request it was made for. -/
theorem about_of_announcement (h : s.announcement = .ok e) :
    e.topic = Warehouse.solutionTopic ∧ e.key = .text s.id ∧
      e.payload.field "requestId" = s.requestId := by
  obtain ⟨event, hevent, h⟩ := bind_eq_ok.1 h
  obtain ⟨weight, -, hevent⟩ := bind_eq_ok.1 hevent
  obtain ⟨mean, -, hevent⟩ := bind_eq_ok.1 hevent
  obtain rfl := pure_eq_ok.1 hevent
  obtain ⟨payload, hpayload, h⟩ := bind_eq_ok.1 h
  obtain ⟨totalWeight, -, hpayload⟩ := bind_eq_ok.1 hpayload
  obtain ⟨averageUtilization, -, hpayload⟩ := bind_eq_ok.1 hpayload
  obtain rfl := pure_eq_ok.1 hpayload
  obtain rfl := pure_eq_ok.1 h
  exact ⟨rfl, rfl, rfl⟩

theorem optionalText_eq_ok {field : String} {raw : Json} {t : Option RawText}
    (h : View.optionalText field raw = .ok t) (r : RawText) : t = some r ↔ raw = .text r := by
  cases raw with
  | null =>
    cases h
    simp
  | text s =>
    cases h
    simp
  | _ => cases h

theorem isWhole_of_optionalText {field : String} {raw : Json} {t : Option RawText}
    (h : View.optionalText field raw = .ok t) : t.all RawText.isWhole = !raw.isBroken := by
  cases raw with
  | null =>
    cases h
    rfl
  | text s =>
    cases h
    simp [Json.isBroken]
  | _ => cases h

/-- The view of a solution can be stored when the names of its request and its order have octets. -/
theorem isStorable_of_view (h : s.view = .ok v) :
    SolutionTable.isStorable v = (!s.requestId.isBroken && !s.orderId.isBroken) := by
  obtain ⟨items, -, h⟩ := bind_eq_ok.1 h
  obtain ⟨weight, -, h⟩ := bind_eq_ok.1 h
  obtain ⟨volume, -, h⟩ := bind_eq_ok.1 h
  obtain ⟨used, -, h⟩ := bind_eq_ok.1 h
  obtain ⟨mean, -, h⟩ := bind_eq_ok.1 h
  obtain ⟨packages, -, h⟩ := bind_eq_ok.1 h
  obtain ⟨names, hnames, h⟩ := bind_eq_ok.1 h
  obtain rfl := pure_eq_ok.1 h
  obtain ⟨hrequest, hrest⟩ := Checked.both_eq_ok.1 (Checked.settle_eq_ok.1 hnames)
  have horder := (Checked.both_eq_ok.1 hrest).1
  rw [SolutionTable.isStorable, isWhole_of_optionalText hrequest, isWhole_of_optionalText horder]

/-- The view of a solution carries its name and that of its request, and its event can be made. -/
theorem view_eq_ok (h : s.view = .ok v) : v.solutionId = s.id ∧
    (∀ r, v.requestId = some r ↔ s.requestId = .text r) ∧ ∃ e, s.announcement = .ok e := by
  obtain ⟨items, -, h⟩ := bind_eq_ok.1 h
  obtain ⟨weight, hweight, h⟩ := bind_eq_ok.1 h
  obtain ⟨volume, -, h⟩ := bind_eq_ok.1 h
  obtain ⟨used, -, h⟩ := bind_eq_ok.1 h
  obtain ⟨mean, hmean, h⟩ := bind_eq_ok.1 h
  obtain ⟨packages, -, h⟩ := bind_eq_ok.1 h
  obtain ⟨⟨requestId, orderId, count⟩, hnames, h⟩ := bind_eq_ok.1 h
  obtain rfl := pure_eq_ok.1 h
  have hrequest := (Checked.both_eq_ok.1 (Checked.settle_eq_ok.1 hnames)).1
  refine ⟨rfl, fun r => optionalText_eq_ok hrequest r, ?_⟩
  simp [announcement, calculatedEvent, hweight, hmean, Event.payload, Event.figure]

end Solution

namespace Calculation

variable {desk : Desk} {order : PackingOrder} {w : Warehouse} {c : Calculation}

/-- What the next step of a calculation publishes. -/
def announced : Calculation → List OutboundEvent
  | .stored s _ => s.announcement.toOption.toList
  | _ => []

theorem publish_eq (w : Warehouse) (s : Solution) : publish w s =
    (s.announcement.map fun _ => (),
      { w with outbox := s.announcement.toOption.toList.foldl Outbox.push w.outbox }) := by
  unfold publish Solution.announcement Outbox.publish
  cases s.calculatedEvent with
  | error f => rfl
  | ok event => cases h : event.payload <;> simp [h, Except.map, Except.toOption]

/-- Packing an order leaves the stored solutions and the outbox alone. -/
theorem packOrder_cases (desk : Desk) (order : PackingOrder) (cartons : List Carton)
    (w : Warehouse) : ∃ log supply,
      (packOrder desk order cartons w).2 = { w with asked := log, supply := supply } ∧
        ((∃ s, (packOrder desk order cartons w).1 = .ok s ∧ s.requestId = order.requestId) ∨
          ∃ f, (packOrder desk order cartons w).1 = .error f ∧ f ≠ .duplicateRequest) := by
  have hitems := unclashing_prepare desk order w.asked
  unfold packOrder
  generalize (prepare desk order).run.run w.asked = prepared at hitems ⊢
  obtain ⟨items | items, log⟩ := prepared
  · exact ⟨log, w.supply, rfl, .inr ⟨items, rfl, fun h => hitems (congrArg _ h)⟩⟩
  have hpack := unclashing_pack items cartons (order.policy desk.settings) w.supply
  refine ⟨log, (pack items cartons (order.policy desk.settings) w.supply).2, rfl, ?_⟩
  dsimp only
  generalize (pack items cartons (order.policy desk.settings) w.supply).1 = packed at hpack ⊢
  cases packed with
  | error f => exact .inr ⟨f, rfl, fun h => hpack (congrArg _ h)⟩
  | ok s => exact .inl ⟨_, rfl, rfl⟩

/-! ## State by state -/

/-- A request without octets cannot be looked up. -/
theorem step_asked :
    (order.requestId.isBroken = true ∧
        step desk order w .asked = (.done (.error .unencodable), w)) ∨
      order.requestId.isBroken = false ∧ (step desk order w .asked = (.unanswered, w) ∨
        ∃ v, w.solutions.answerTo? order.requestId = some v ∧
          step desk order w .asked = (.done (.ok v), w)) := by
  simp only [step]
  cases order.requestId.isBroken with
  | true => exact .inl ⟨rfl, rfl⟩
  | false =>
    refine .inr ⟨rfl, ?_⟩
    cases w.solutions.answerTo? order.requestId with
    | none => exact .inl rfl
    | some v => exact .inr ⟨v, rfl, rfl⟩

theorem step_unanswered : (∃ cartons, step desk order w .unanswered = (.supplied cartons, w)) ∨
    ∃ f, f ≠ .duplicateRequest ∧ step desk order w .unanswered = (.done (.error f), w) := by
  have hlist := w.cartons.unclashing_list true
  simp only [step]
  generalize w.cartons.list true = listed at hlist ⊢
  cases listed with
  | error f => exact .inr ⟨f, fun h => hlist (congrArg _ h), rfl⟩
  | ok cartons =>
    cases cartons with
    | nil => exact .inr ⟨.domain .noActiveCartons, by simp, rfl⟩
    | cons c cartons => exact .inl ⟨_, rfl⟩

theorem step_supplied (cartons : List Carton) : ∃ log supply,
    (step desk order w (.supplied cartons)).2 = { w with asked := log, supply := supply } ∧
      ((∃ s, s.requestId = order.requestId ∧
          (step desk order w (.supplied cartons)).1 = .packed s) ∨
        ∃ f, f ≠ .duplicateRequest ∧
          (step desk order w (.supplied cartons)).1 = .done (.error f)) := by
  obtain ⟨log, supply, hw, h⟩ := packOrder_cases desk order cartons w
  refine ⟨log, supply, ?_, ?_⟩
  all_goals
    simp only [step]
    generalize packOrder desk order cartons w = packed at hw h ⊢
    obtain ⟨outcome, w'⟩ := packed
  · cases outcome <;> exact hw
  · obtain ⟨s, rfl, hs⟩ | ⟨f, rfl, hf⟩ := h
    · exact .inl ⟨s, hs, rfl⟩
    · exact .inr ⟨f, hf, rfl⟩

/-- A solution without a view is not stored, nor one with names that have no octets or one that
clashes with another. -/
theorem step_packed (s : Solution) :
    (∃ f, f ≠ .duplicateRequest ∧ step desk order w (.packed s) = (.done (.error f), w)) ∨
      ∃ v, s.view = .ok v ∧ SolutionTable.isStorable v = true ∧
        (w.solutions.clashes v = true ∧ step desk order w (.packed s) = (.overtaken, w) ∨
          w.solutions.clashes v = false ∧ step desk order w (.packed s) =
            (.stored s v, { w with solutions := ⟨w.solutions.views ++ [v]⟩ })) := by
  have hview := s.unclashing_view
  simp only [step, store, SolutionTable.insert]
  generalize s.view = view at hview ⊢
  cases view with
  | error f => exact .inl ⟨f, fun h => hview (congrArg _ h), rfl⟩
  | ok v =>
    cases hstorable : SolutionTable.isStorable v with
    | false => exact .inl ⟨.unencodable, by simp, by simp [hstorable]⟩
    | true =>
      refine .inr ⟨v, rfl, hstorable, ?_⟩
      cases hclash : w.solutions.clashes v with
      | true => exact .inl ⟨rfl, by simp [hstorable, hclash]⟩
      | false => exact .inr ⟨rfl, by simp [hstorable, hclash]⟩

theorem step_overtaken {v : SolutionView} (h : w.solutions.answerTo? order.requestId = some v) :
    step desk order w .overtaken = (.done (.ok v), w) := by
  simp [step, h]

theorem step_stored {s : Solution} {v : SolutionView} {e : OutboundEvent}
    (h : s.announcement = .ok e) : step desk order w (.stored s v) =
      (.done (.ok v), { w with outbox := w.outbox.push e }) := by
  simp [step, publish_eq, h, Except.map, Except.toOption]

/-- The outbox changes by what the step publishes. -/
theorem step_outbox (desk : Desk) (order : PackingOrder) (w : Warehouse) (c : Calculation) :
    (step desk order w c).2.outbox = c.announced.foldl Outbox.push w.outbox := by
  cases c with
  | asked =>
    obtain ⟨-, h⟩ | ⟨-, h | ⟨v, -, h⟩⟩ := @step_asked desk order w <;> rw [h] <;> rfl
  | unanswered =>
    obtain ⟨cartons, h⟩ | ⟨f, -, h⟩ := @step_unanswered desk order w <;> rw [h] <;> rfl
  | supplied cartons =>
    obtain ⟨log, supply, h, -⟩ := @step_supplied desk order w cartons
    rw [h]
    rfl
  | packed s =>
    obtain ⟨f, -, h⟩ | ⟨v, -, -, ⟨-, h⟩ | ⟨-, h⟩⟩ := @step_packed desk order w s <;> rw [h] <;>
      rfl
  | overtaken =>
    simp only [step]
    split <;> rfl
  | stored s v => simp [step, publish_eq, announced]
  | done outcome => rfl

end Calculation

end Stowage
