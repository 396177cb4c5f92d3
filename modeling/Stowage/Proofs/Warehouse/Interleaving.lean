import Stowage.Catalogue.Prepared
import Stowage.Proofs.Packing.Run
import Stowage.Proofs.Store.Solutions
import Stowage.Proofs.Warehouse.Calculation

/-!
# Calculations side by side

Several calculations go on in one warehouse, each taking its next step whenever it likes. Whatever
the order of their steps, a request that has a name is answered by a single stored solution, which
is told of once (`request_answered_once`): a calculation that finds another solution in its way when
it wants to store its own gives the other one as its answer.
-/

namespace Stowage

open SolutionTable (mem_answers)

/-! ## What one step does to the stored solutions -/

namespace Calculation

variable {desk : Desk} {order : PackingOrder} {w : Warehouse} {c c' : Calculation}
  {t t' : SolutionTable}

/-- What is known of a calculation when there are so many stored solutions. Whatever it answers with
is stored, and it fails because of another solution only if the request has no name. -/
def Sound (order : PackingOrder) (t : SolutionTable) : Calculation → Prop
  | .asked | .unanswered | .supplied _ => True
  | .packed s => s.requestId = order.requestId
  | .overtaken => ∃ v ∈ t.views, ∃ r : String,
      order.requestId = .text r ∧ v.requestId = some ↑r
  | .stored s v => s.requestId = order.requestId ∧ s.view = .ok v ∧ v ∈ t.views
  | .done (.ok v) => v ∈ t.views ∧
      ∀ r, order.requestId = .text r → v.requestId = some r
  | .done (.error f) => f = .duplicateRequest → ∀ r, order.requestId = .text r → r = ""

/-- More stored solutions do no harm. -/
theorem Sound.mono (h : c.Sound order t) (hsub : t.views ⊆ t'.views) : c.Sound order t' := by
  cases c with
  | overtaken =>
    obtain ⟨v, hv, h⟩ := h
    exact ⟨v, hsub hv, h⟩
  | stored s v => exact ⟨h.1, h.2.1, hsub h.2.2⟩
  | done outcome =>
    cases outcome with
    | ok v => exact ⟨hsub h.1, h.2⟩
    | error f => exact h
  | _ => exact h

/-- The name of a solution that has been made but not stored. -/
def underway : Calculation → List String
  | .packed s => [s.id]
  | _ => []

/-- The name of a solution for a request that has been stored but not told of. -/
def untold (r : RawText) : Calculation → List Json
  | .stored s _ => if s.requestId.text? = some r then [.text s.id] else []
  | _ => []

/-- A step of a calculation, as far as the stored solutions are concerned. -/
inductive Move (order : PackingOrder) (t : SolutionTable) :
    Calculation → Calculation → SolutionTable → Prop
  /-- No solution is made, stored or told of. -/
  | quiet {c c' : Calculation} (hsound : c'.Sound order t) (hmade : c'.underway = [])
      (htold : ∀ s v, c ≠ .stored s v) (hstored : ∀ s v, c' ≠ .stored s v) :
      Move order t c c' t
  /-- A solution is made. -/
  | made {cartons : List Carton} {s : Solution} (hs : s.requestId = order.requestId) :
      Move order t (.supplied cartons) (.packed s) t
  /-- A solution is stored, as the only one for its request. -/
  | stored {s : Solution} {v : SolutionView} (hs : s.requestId = order.requestId)
      (hview : s.view = .ok v) (halone : ∀ r, v.requestId = some r → t.answers r = []) :
      Move order t (.packed s) (.stored s v) ⟨t.views ++ [v]⟩
  /-- A stored solution is told of. -/
  | told {s : Solution} {v : SolutionView} {e : OutboundEvent}
      (hsound : (Calculation.stored s v).Sound order t) (he : s.announcement = .ok e) :
      Move order t (.stored s v) (.done (.ok v)) t

theorem Move.of_step_eq (h : step desk order w c = (c', w)) (hsound : c'.Sound order w.solutions)
    (hmade : c'.underway = []) (htold : ∀ s v, c ≠ .stored s v)
    (hstored : ∀ s v, c' ≠ .stored s v) :
    Move order w.solutions c (step desk order w c).1 (step desk order w c).2.solutions := by
  rw [h]
  exact .quiet hsound hmade htold hstored

/-- A solution whose name is new clashes only with one for the same request. -/
theorem exists_rival {t : SolutionTable} {v : SolutionView}
    (hname : ∀ u ∈ t.views, u.solutionId ≠ v.solutionId) (hclash : t.clashes v = true) :
    ∃ u ∈ t.views, ∃ r : String, v.requestId = some ↑r ∧ u.requestId = some ↑r := by
  have hother : ¬ ∀ r : String, v.requestId = some ↑r → t.answers r = [] :=
    fun hnone => by simp [SolutionTable.clashes_eq_false_iff.2 ⟨hname, hnone⟩] at hclash
  push Not at hother
  obtain ⟨r, hr, hne⟩ := hother
  obtain ⟨u, hu⟩ := List.exists_mem_of_ne_nil _ hne
  obtain ⟨hmem, hur⟩ := mem_answers.1 hu
  exact ⟨u, hmem, r, hr, hur⟩

/-- A calculation that was overtaken ends with the answer that overtook it. -/
theorem move_overtaken (hsound : Calculation.overtaken.Sound order w.solutions) :
    Move order w.solutions .overtaken (step desk order w .overtaken).1
      (step desk order w .overtaken).2.solutions := by
  obtain ⟨v, hv, r, hr, hvr⟩ := hsound
  cases hanswer : w.solutions.answerTo? order.requestId with
  | some u =>
    exact .of_step_eq (step_overtaken hanswer) (SolutionTable.mem_of_answerTo? hanswer) rfl
      (by simp) (by simp)
  | none =>
    -- there is an answer, which is not found only where the request has an empty name
    have h : step desk order w .overtaken = (.done (.error .duplicateRequest), w) := by
      simp [step, hanswer]
    refine .of_step_eq h (fun _ r' hr' => ?_) rfl (by simp) (by simp)
    by_contra hnamed
    obtain rfl : ↑r = r' := Json.text.inj (hr.symm.trans hr')
    rw [hr, SolutionTable.answerTo?_text (ne_of_apply_ne _ hnamed),
      List.head?_eq_none_iff] at hanswer
    exact List.not_mem_nil (hanswer ▸ mem_answers.2 ⟨hv, hvr⟩)

/-- **Every step is a move**, as long as the name of a solution that is to be stored is new. -/
theorem move_step (hsound : c.Sound order w.solutions)
    (hnew : ∀ id ∈ c.underway, ∀ u ∈ w.solutions.views, u.solutionId ≠ id) :
    Move order w.solutions c (step desk order w c).1 (step desk order w c).2.solutions := by
  cases c with
  | asked =>
    obtain ⟨-, h⟩ | ⟨-, h | ⟨v, hv, h⟩⟩ := @step_asked desk order w
    · exact .of_step_eq h nofun rfl (by simp) (by simp)
    · exact .of_step_eq h trivial rfl (by simp) (by simp)
    · exact .of_step_eq h (SolutionTable.mem_of_answerTo? hv) rfl (by simp) (by simp)
  | unanswered =>
    obtain ⟨cartons, h⟩ | ⟨f, hf, h⟩ := @step_unanswered desk order w
    · exact .of_step_eq h trivial rfl (by simp) (by simp)
    · exact .of_step_eq h (fun hdup => absurd hdup hf) rfl (by simp) (by simp)
  | supplied cartons =>
    obtain ⟨log, supply, hw, ⟨s, hs, h⟩ | ⟨f, hf, h⟩⟩ := @step_supplied desk order w cartons
    · rw [h, hw]
      exact .made hs
    · rw [h, hw]
      exact .quiet (fun hdup => absurd hdup hf) rfl (by simp) (by simp)
  | packed s =>
    obtain ⟨f, hf, h⟩ | ⟨v, hv, hstorable, ⟨hclash, h⟩ | ⟨hclash, h⟩⟩ :=
      @step_packed desk order w s
    · exact .of_step_eq h (fun hdup => absurd hdup hf) rfl (by simp) (by simp)
    · obtain ⟨hid, hrequest, -⟩ := Solution.view_eq_ok hv
      obtain ⟨u, hmem, r, hr, hur⟩ :=
        exists_rival (hid ▸ hnew s.id (List.mem_singleton_self _)) hclash
      exact .of_step_eq h ⟨u, hmem, r, hsound ▸ (hrequest _).1 hr, hur⟩ rfl (by simp) (by simp)
    · rw [h]
      refine .stored hsound hv fun r hr => ?_
      obtain ⟨s, rfl⟩ := SolutionTable.exists_whole_of_isStorable hstorable hr
      exact (SolutionTable.clashes_eq_false_iff.1 hclash).2 s hr
  | overtaken => exact move_overtaken hsound
  | stored s v =>
    obtain ⟨-, -, e, he⟩ := Solution.view_eq_ok hsound.2.1
    rw [step_stored he]
    exact .told hsound he
  | done outcome => exact .of_step_eq rfl hsound rfl (by simp) (by simp)

theorem Move.sound (h : Move order t c c' t') : c'.Sound order t' := by
  cases h with
  | quiet hsound => exact hsound
  | made hs => exact hs
  | stored hs hview => exact ⟨hs, hview, by simp⟩
  | told hsound =>
    obtain ⟨hs, hview, hmem⟩ := hsound
    exact ⟨hmem, fun r hr => ((Solution.view_eq_ok hview).2.1 _).2 (hs.trans hr)⟩

theorem Move.subset (h : Move order t c c' t') : t.views ⊆ t'.views := by
  cases h with
  | stored => exact List.subset_append_left _ _
  | _ => exact List.Subset.refl _

/-- A solution for a request is stored for it at most once. -/
theorem Move.single {r : RawText} (h : Move order t c c' t')
    (hsingle : (t.answers r).length ≤ 1) : (t'.answers r).length ≤ 1 := by
  cases h with
  | stored hs hview halone =>
    rw [SolutionTable.answers_concat]
    split_ifs with hr
    · simp [halone r hr]
    · simpa using hsingle
  | _ => exact hsingle

/-- The name of a solution that has not been stored stays its own. -/
theorem Move.named {others : List String} (h : Move order t c c' t')
    (hname : ∀ s, c' = .packed s → s.id ∉ t.views.map (·.solutionId) ∧ s.id ∉ others)
    (hnamed : ∀ id ∈ c.underway ++ others,
      (t.views.map (·.solutionId)).count id + (c.underway ++ others).count id = 1) :
    ∀ id ∈ c'.underway ++ others,
      (t'.views.map (·.solutionId)).count id + (c'.underway ++ others).count id = 1 := by
  simp only [← List.count_pos_iff, List.count_append] at hnamed ⊢
  intro id hid
  have hone := hnamed id
  cases h with
  | quiet hsound hmade =>
    simp only [hmade, List.count_nil] at hid ⊢
    omega
  | @made _ s hs =>
    obtain ⟨hstored, hothers⟩ := hname s rfl
    rw [← List.count_eq_zero] at hstored hothers
    by_cases hs : s.id = id
    · subst hs
      simp [underway, hstored, hothers]
    · simp only [underway, List.count_nil, List.count_cons_of_ne hs] at hid hone ⊢
      omega
  | @stored s v hs hview =>
    -- the name moves from the solutions under way to those that are stored
    have hsame := (Solution.view_eq_ok hview).1
    simp only [underway, List.map_append, List.map_cons, List.map_nil, hsame, List.count_append,
      List.count_nil] at hid hone ⊢
    omega
  | told => exact hone hid

theorem text?_eq_some {raw : Json} {r : RawText} : raw.text? = some r ↔ raw = .text r := by
  cases raw <;> simp [Json.text?]

/-- What is stored for a request has to be told of, and what is told of has been stored. -/
theorem Move.told_perm (h : Move order t c c' t') (r : RawText) :
    ((c.announced.filter fun e => (e.payload.field "requestId").text? == some r).map (·.key) ++
        c'.untold r ++ (t.answers r).map (Json.text ·.solutionId)).Perm
      (c.untold r ++ (t'.answers r).map (Json.text ·.solutionId)) := by
  cases h with
  | quiet hsound hmade htold hstored =>
    have hannounced : c.announced = [] ∧ c.untold r = [] := by
      cases c with
      | stored s v => exact absurd rfl (htold s v)
      | _ => exact ⟨rfl, rfl⟩
    have hnone : c'.untold r = [] := by
      cases c' with
      | stored s v => exact absurd rfl (hstored s v)
      | _ => rfl
    simp [hannounced, hnone]
  | made hs => simp [announced, untold]
  | @stored s v hs hview halone =>
    obtain ⟨hid, hrequest, -⟩ := Solution.view_eq_ok hview
    have hiff : s.requestId.text? = some r ↔ v.requestId = some r :=
      text?_eq_some.trans (hrequest _).symm
    rw [SolutionTable.answers_concat]
    by_cases hr : v.requestId = some r
    · simpa [announced, untold, hiff, hr, hid] using (List.perm_append_singleton _ _).symm
    · simp [announced, untold, hiff, hr]
  | @told s v e hsound he =>
    obtain ⟨-, hkey, hrequest⟩ := Solution.about_of_announcement he
    by_cases hr : s.requestId.text? = some r
    · simp [announced, untold, he, Except.toOption, hrequest, hr, hkey]
    · simp [announced, untold, he, Except.toOption, hrequest, hr]

end Calculation

/-! ## Runs of several calculations -/

/-- A calculation for an order. -/
structure Call where
  order : PackingOrder
  state : Calculation

/-- Calculations that go on side by side in a warehouse, and all that they have published. -/
structure Floor where
  warehouse : Warehouse
  calls : List Call
  published : List OutboundEvent

namespace Floor

/-- The names of the stored solutions. -/
def stored (f : Floor) : List String := f.warehouse.solutions.views.map (·.solutionId)

/-- The names of the solutions that have been made but not stored. -/
def underway (f : Floor) : List String := f.calls.flatMap (·.state.underway)

/-- The stored solutions for a request. -/
def answers (f : Floor) (r : RawText) : List SolutionView := f.warehouse.solutions.answers r

/-- The published events about a request. -/
def eventsFor (f : Floor) (r : RawText) : List OutboundEvent :=
  f.published.filter fun e => (e.payload.field "requestId").text? == some r

/-- What may come about when each call takes its next step whenever it likes, and a solution is
given a name that no other has. -/
inductive Reaches (desk : Calculation.Desk) (start : Floor) : Floor → Prop
  | start : Reaches desk start start
  | step {w : Warehouse} {before after : List Call} {order : PackingOrder} {c : Calculation}
      {published : List OutboundEvent}
      (h : Reaches desk start ⟨w, before ++ ⟨order, c⟩ :: after, published⟩)
      (hname : ∀ s, (c.step desk order w).1 = .packed s →
        s.id ∉ stored ⟨w, before ++ ⟨order, c⟩ :: after, published⟩ ∧
          s.id ∉ underway ⟨w, before ++ ⟨order, c⟩ :: after, published⟩) :
      Reaches desk start ⟨(c.step desk order w).2,
        before ++ ⟨order, (c.step desk order w).1⟩ :: after, published ++ c.announced⟩

/-- What is kept while calculations go on, about a request and the solutions that were stored for it
at the start: there is one solution for it at most, and the events tell of those that have been
added, as soon as their calculations get to it. -/
structure Orderly (r : RawText) (old : List SolutionView) (f : Floor) : Prop where
  sound : ∀ call ∈ f.calls, call.state.Sound call.order f.warehouse.solutions
  named : ∀ id ∈ f.underway, f.stored.count id + f.underway.count id = 1
  single : (f.answers r).length ≤ 1
  told : (old.map (Json.text ·.solutionId) ++ (f.eventsFor r).map (·.key) ++
    f.calls.flatMap (·.state.untold r)).Perm ((f.answers r).map (Json.text ·.solutionId))

variable {desk : Calculation.Desk} {start f : Floor} {w w' : Warehouse} {before after : List Call}
  {order : PackingOrder} {c c' : Calculation} {published : List OutboundEvent} {r : RawText}
  {old : List SolutionView}

theorem orderly_start (hasked : ∀ call ∈ start.calls, call.state = .asked)
    (hpublished : start.published = []) (hsingle : (start.answers r).length ≤ 1) :
    start.Orderly r (start.answers r) := by
  have hnone : ∀ {β : Type} (g : Calculation → List β), g .asked = [] →
      start.calls.flatMap (fun call => g call.state) = [] := by
    intro β g hg
    rw [List.flatMap_eq_nil_iff]
    intro call hcall
    rw [hasked call hcall, hg]
  refine ⟨fun call hcall => ?_, fun id hid => ?_, hsingle, ?_⟩
  · rw [hasked call hcall]
    trivial
  · rw [underway, hnone Calculation.underway rfl] at hid
    simp at hid
  · rw [hnone (Calculation.untold r) rfl, eventsFor, hpublished]
    simp

theorem underway_perm (x : Calculation) :
    (underway ⟨w, before ++ ⟨order, x⟩ :: after, published⟩).Perm (x.underway ++
      (before.flatMap (·.state.underway) ++ after.flatMap (·.state.underway))) := by
  simpa [underway] using List.perm_append_comm_assoc _ _ _

/-- **A move keeps the floor in order.** -/
theorem Orderly.move (h : Orderly r old ⟨w, before ++ ⟨order, c⟩ :: after, published⟩)
    (hmove : c.Move order w.solutions c' w'.solutions)
    (hname : ∀ s, c' = .packed s →
      s.id ∉ stored ⟨w, before ++ ⟨order, c⟩ :: after, published⟩ ∧
        s.id ∉ underway ⟨w, before ++ ⟨order, c⟩ :: after, published⟩) :
    Orderly r old ⟨w', before ++ ⟨order, c'⟩ :: after, published ++ c.announced⟩ := by
  have hothers : ∀ call ∈ before ++ after, call.state.Sound call.order w'.solutions :=
    fun call hcall => (h.sound call (by
      rcases List.mem_append.1 hcall with hcall | hcall <;> simp [hcall])).mono hmove.subset
  refine ⟨fun call hcall => ?_, fun id hid => ?_, hmove.single h.single, ?_⟩
  · rcases List.mem_append.1 hcall with hcall | hcall
    · exact hothers call (List.mem_append_left _ hcall)
    · rcases List.mem_cons.1 hcall with rfl | hcall
      · exact hmove.sound
      · exact hothers call (List.mem_append_right _ hcall)
  · rw [(underway_perm c').mem_iff] at hid
    rw [(underway_perm c').count_eq]
    refine hmove.named (fun s hs => ?_) (fun id hid => ?_) id hid
    · obtain ⟨hstored, hunderway⟩ := hname s hs
      rw [(underway_perm c).mem_iff] at hunderway
      exact ⟨hstored, fun hmem => hunderway (List.mem_append_right _ hmem)⟩
    · rw [← (underway_perm c).mem_iff] at hid
      rw [← (underway_perm c).count_eq]
      exact h.named id hid
  · classical
    have hcall := hmove.told_perm r
    have hall := h.told
    rw [List.perm_iff_count] at hcall hall ⊢
    intro key
    have hcall := hcall key
    have hall := hall key
    simp only [eventsFor, answers, List.filter_append, List.map_append, List.flatMap_append,
      List.flatMap_cons, List.count_append] at hcall hall ⊢
    omega

/-- **The floor stays in order**, whatever the order of the steps. -/
theorem Reaches.orderly (hstart : start.Orderly r old) (h : Reaches desk start f) :
    f.Orderly r old := by
  induction h with
  | start => exact hstart
  | @step w before after order c published h hname ih =>
    have hmem : ⟨order, c⟩ ∈ before ++ Call.mk order c :: after := by simp
    refine ih.move (Calculation.move_step (ih.sound _ hmem) fun id hid u hu hsame => ?_) hname
    -- a stored solution with the name would make two of them
    have hunderway : id ∈ underway ⟨w, before ++ ⟨order, c⟩ :: after, published⟩ :=
      (underway_perm c).mem_iff.2 (List.mem_append_left _ hid)
    have hstored : id ∈ stored ⟨w, before ++ ⟨order, c⟩ :: after, published⟩ :=
      hsame ▸ List.mem_map_of_mem hu
    have hone := ih.named id hunderway
    rw [← List.count_pos_iff] at hunderway hstored
    omega

/-- Nothing is left to be told of a request when all calculations for it are over. -/
theorem Orderly.untold_eq_nil (h : f.Orderly r old)
    (hover : ∀ call ∈ f.calls, call.order.requestId = .text r → ∃ o, call.state = .done o) :
    f.calls.flatMap (·.state.untold r) = [] := by
  rw [List.flatMap_eq_nil_iff]
  intro call hcall
  have hsound := h.sound call hcall
  cases hstate : call.state with
  | stored s v =>
    rw [hstate] at hsound
    refine if_neg fun hs => ?_
    obtain ⟨o, ho⟩ := hover call hcall (hsound.1 ▸ Calculation.text?_eq_some.1 hs)
    cases hstate.symm.trans ho
  | _ => rfl

/-- The outbox has been given what has been published. -/
theorem Reaches.outbox_eq (hpublished : start.published = []) (h : Reaches desk start f) :
    f.warehouse.outbox = f.published.foldl Outbox.push start.warehouse.outbox := by
  induction h with
  | start => rw [hpublished]; rfl
  | step h hname ih => rw [Calculation.step_outbox, List.foldl_append, ← ih]

end Floor

variable {desk : Calculation.Desk} {start now : Floor} {r : RawText}

theorem eq_of_perm_of_length_le_one {α : Type} {xs ys : List α} (hys : ys.length ≤ 1)
    (h : xs.Perm ys) : xs = ys := by
  match ys with
  | [] => exact h.eq_nil
  | [y] => exact List.perm_singleton.1 h

/-- **A request is answered once.** However many calculations for a request with a name go on side
by side, and whatever the order of their steps: at most one solution for it is stored, every
calculation that has an answer has that one, and none fails because of another. No event tells of a
solution twice, and when all calculations are over, one has told of the solution, unless it was
stored before they began. -/
theorem request_answered_once (hr : r ≠ "")
    (hasked : ∀ call ∈ start.calls, call.state = .asked) (hpublished : start.published = [])
    (hsingle : (start.answers r).length ≤ 1) (h : Floor.Reaches desk start now) :
    (now.answers r).length ≤ 1 ∧
      (∀ call ∈ now.calls, call.order.requestId = .text r → ∀ outcome, call.state = .done outcome →
        outcome ≠ .error .duplicateRequest ∧ ∀ v, outcome = .ok v → now.answers r = [v]) ∧
      (start.answers r).length + (now.eventsFor r).length ≤ (now.answers r).length ∧
      ((∀ call ∈ now.calls, call.order.requestId = .text r → ∃ o, call.state = .done o) →
        (start.answers r).map (Json.text ·.solutionId) ++ (now.eventsFor r).map (·.key) =
          (now.answers r).map (Json.text ·.solutionId)) ∧
      now.warehouse.outbox = now.published.foldl Outbox.push start.warehouse.outbox := by
  have horderly := h.orderly (Floor.orderly_start hasked hpublished hsingle)
  refine ⟨horderly.single, fun call hcall hrequest outcome hdone => ⟨?_, ?_⟩, ?_, fun hover => ?_,
    h.outbox_eq hpublished⟩
  · rintro rfl
    have hsound := horderly.sound call hcall
    rw [hdone] at hsound
    exact hr (hsound rfl r hrequest)
  · rintro v rfl
    have hsound := horderly.sound call hcall
    rw [hdone] at hsound
    have hmem : v ∈ now.answers r := mem_answers.2 ⟨hsound.1, hsound.2 r hrequest⟩
    obtain ⟨u, hu⟩ := List.length_eq_one_iff.1
      (le_antisymm horderly.single (List.length_pos_of_mem hmem))
    rw [hu, List.mem_singleton] at hmem
    rw [hu, hmem]
  · have hlength := horderly.told.length_eq
    simp only [List.length_append, List.length_map] at hlength
    omega
  · exact eq_of_perm_of_length_le_one (by simpa using horderly.single) (by
      simpa [horderly.untold_eq_nil hover] using horderly.told)

/-! ## Two calculations for the same request

Each of them has packed the item before the other stores its solution. -/

open Packing

theorem Floor.Reaches.step_eq {desk : Calculation.Desk} {start : Floor} {w w' : Warehouse}
    {before after : List Call} {order : PackingOrder} {c c' : Calculation}
    {published : List OutboundEvent}
    (h : Reaches desk start ⟨w, before ++ ⟨order, c⟩ :: after, published⟩)
    (hstep : c.step desk order w = (c', w'))
    (hname : ∀ s, c' = .packed s →
      s.id ∉ stored ⟨w, before ++ ⟨order, c⟩ :: after, published⟩ ∧
        s.id ∉ underway ⟨w, before ++ ⟨order, c⟩ :: after, published⟩) :
    Reaches desk start ⟨w', before ++ ⟨order, c'⟩ :: after, published ++ c.announced⟩ := by
  have hnext := h.step (by rwa [hstep])
  rwa [hstep] at hnext

/-- The row of a bin. -/
def bin : StoredCarton where
  id := "BIN"
  name := .text "Bin"
  length := .ofRatio false 6 1
  width := .ofRatio false 6 1
  height := .ofRatio false 6 1
  lengthUnit := .inches
  maxWeight := .ofRatio false 20 1
  weightUnit := .pounds
  status := .active
  createdAt := .epoch
  updatedAt := .epoch
  encodable := rfl

def binCarton : Carton :=
  let side : Amount := ⟨⟨false, 60000, -4⟩, Eq.refl true⟩
  Carton.restore "BIN" (.text "Bin") (.known ⟨side, side, side, .inches⟩)
    (.known ⟨⟨⟨false, 200000, -4⟩, Eq.refl true⟩, .pounds⟩) .active .epoch .epoch

def oddLine : OrderLine := ⟨"ODD", 1, by decide, by decide⟩

def oddOrder : PackingOrder := ⟨.text "R", .null, [oddLine], true, true⟩

def counter : Calculation.Desk := ⟨.usual, .none⟩

def oddment : Item := Enrichment.usualItem oddLine

theorem list_bin : (CartonTable.mk [bin]).list true = .ok [binCarton] := by
  have hselect : CartonTable.select ⟨[bin]⟩ true = [bin] := rfl
  rw [CartonTable.list, CartonTable.byAge, hselect, List.mergeSort_singleton]
  rfl

-- so that roundings of given decimals can be computed
attribute [local semireducible] digitCount

/-- The bin with the item in it. -/
def binOfOdd : Package := ⟨binCarton, [oddment], ⟨false, 1, 0⟩, ⟨false, 12500, -2⟩⟩

theorem prepare_odd (log : List CatalogueRequest) :
    (Calculation.prepare counter oddOrder).run.run log = (.ok [oddment], log) := by
  have henrich : (Enrichment.enrich counter.client counter.settings.useDefaults
      oddOrder.lines).run.run log = (.ok [oddment], log) := rfl
  have hcheck : Validation.check (some ([oddment].map some))
      (some (oddOrder.policy counter.settings)) = .ok () := eq_ok_of_toOption (by decide)
  rw [Calculation.prepare, Dialogue.run_bind henrich, hcheck]
  rfl

theorem odd_fits : binCarton.canFit oddment.dimensions oddment.weight = .ok true :=
  Carton.canFit_of_pairwise ⟨rfl, rfl⟩ (by decide) (by decide) (by decide) (by decide) (by decide)

theorem add_odd : (Package.ofCarton binCarton).add oddment .usual = .ok binOfOdd :=
  Package.add_eq_ok_iff.2 ⟨bind_eq_ok_of_toOption odd_fits (by decide), _, _,
    eq_ok_of_toOption (by decide), eq_ok_of_toOption (by decide), rfl⟩

theorem packages_odd : packages [oddment] [binCarton] .usual = .ok [binOfOdd] := by
  have hitem : oddment.sortVolume = .ok ⟨false, 204838, -2⟩ := eq_ok_of_toOption (by decide)
  have hcarton : cartonVolume binCarton = .ok ⟨false, 353961, -2⟩ := eq_ok_of_toOption (by decide)
  exact packages_singleton rfl hitem rfl hcarton odd_fits add_odd

theorem Solution.averageUtilization_congr {s t : Solution} (h : s.packages = t.packages) :
    s.averageUtilization = t.averageUtilization := by
  rw [averageUtilization, averageUtilization, sumOver, sumOver, h]

theorem pack_odd (supply : Supply) : pack [oddment] [binCarton] .usual supply =
    (.ok (Solution.create [binOfOdd] none supply).1,
      (Solution.create [binOfOdd] none supply).2) := by
  have hstart : (Solution.create [binOfOdd] none .start).1.averageUtilization =
      .ok ⟨false, 5787, -4⟩ := eq_ok_of_toOption (by decide)
  have hmean : (Solution.create [binOfOdd] none supply).1.averageUtilization =
      .ok ⟨false, 5787, -4⟩ := by
    rw [← hstart]
    exact Solution.averageUtilization_congr rfl
  rw [pack, packages_odd]
  simp [hmean, Except.map]

/-- The solution for the odd item, made with a supply. -/
def oddSolution (supply : Supply) : Solution :=
  { (Solution.create [binOfOdd] none supply).1 with requestId := .text "R" }

/-- The room with the bin, after a number of solutions have been made and stored. -/
def room (made : ℕ) (views : List SolutionView) : Warehouse :=
  { Warehouse.empty with cartons := ⟨[bin]⟩, solutions := ⟨views⟩, supply := ⟨made, made⟩ }

theorem step_unanswered_odd (made : ℕ) (views : List SolutionView) :
    Calculation.step counter oddOrder (room made views) .unanswered =
      (.supplied [binCarton], room made views) := by
  have hlist : (room made views).cartons.list true = .ok [binCarton] := list_bin
  simp only [Calculation.step, hlist]

theorem packOrder_odd (made : ℕ) (views : List SolutionView) :
    Calculation.packOrder counter oddOrder [binCarton] (room made views) =
      (.ok (oddSolution ⟨made, made⟩), room (made + 1) views) := by
  have hpolicy : oddOrder.policy counter.settings = .usual := rfl
  rw [Calculation.packOrder, prepare_odd]
  simp only [hpolicy, pack_odd]
  rfl

theorem step_supplied_odd (made : ℕ) (views : List SolutionView) :
    Calculation.step counter oddOrder (room made views) (.supplied [binCarton]) =
      (.packed (oddSolution ⟨made, made⟩), room (made + 1) views) := by
  rw [Calculation.step, packOrder_odd]

namespace Floor.Reaches

variable {desk : Calculation.Desk} {start : Floor} {w w' : Warehouse} {order : PackingOrder}
  {c c' : Calculation} {other : Call} {published : List OutboundEvent}

theorem step_first (h : Reaches desk start ⟨w, [⟨order, c⟩, other], published⟩)
    (hstep : c.step desk order w = (c', w'))
    (hname : ∀ s, c' = .packed s → s.id ∉ stored ⟨w, [⟨order, c⟩, other], published⟩ ∧
        s.id ∉ underway ⟨w, [⟨order, c⟩, other], published⟩) :
    Reaches desk start ⟨w', [⟨order, c'⟩, other], published ++ c.announced⟩ :=
  @step_eq desk start w w' [] [other] order c c' published h hstep hname

theorem step_second (h : Reaches desk start ⟨w, [other, ⟨order, c⟩], published⟩)
    (hstep : c.step desk order w = (c', w'))
    (hname : ∀ s, c' = .packed s → s.id ∉ stored ⟨w, [other, ⟨order, c⟩], published⟩ ∧
        s.id ∉ underway ⟨w, [other, ⟨order, c⟩], published⟩) :
    Reaches desk start ⟨w', [other, ⟨order, c'⟩], published ++ c.announced⟩ :=
  @step_eq desk start w w' [other] [] order c c' published h hstep hname

end Floor.Reaches

theorem exists_view_odd :
    ∃ u v, (oddSolution ⟨0, 0⟩).view = .ok u ∧ (oddSolution ⟨1, 1⟩).view = .ok v := by
  have hu : (oddSolution ⟨0, 0⟩).view.toOption.isSome = true := by decide
  have hv : (oddSolution ⟨1, 1⟩).view.toOption.isSome = true := by decide
  obtain ⟨u, hu⟩ := Option.isSome_iff_exists.1 hu
  obtain ⟨v, hv⟩ := Option.isSome_iff_exists.1 hv
  exact ⟨u, v, eq_ok_of_toOption hu, eq_ok_of_toOption hv⟩

/-- Two calls for the same request. -/
def twoCalls : Floor := ⟨room 0 [], [⟨oddOrder, .asked⟩, ⟨oddOrder, .asked⟩], []⟩

theorem reaches_packed : Floor.Reaches counter twoCalls ⟨room 2 [],
    [⟨oddOrder, .packed (oddSolution ⟨0, 0⟩)⟩, ⟨oddOrder, .packed (oddSolution ⟨1, 1⟩)⟩], []⟩ := by
  have h₁ : Floor.Reaches counter twoCalls
      ⟨room 0 [], [⟨oddOrder, .unanswered⟩, ⟨oddOrder, .asked⟩], []⟩ :=
    Floor.Reaches.start.step_first rfl (by simp)
  have h₂ := (h₁.step_first (step_unanswered_odd 0 []) (by simp)).step_second rfl (by simp)
  have h₃ := h₂.step_second (step_unanswered_odd 0 []) (by simp)
  have h₄ := h₃.step_first (step_supplied_odd 0 []) (by
    rintro _ ⟨⟩
    decide)
  exact h₄.step_second (step_supplied_odd 1 []) (by
    rintro _ ⟨⟩
    decide)

/-- Two calculations for the same request give the same answer, and a single event tells of it. -/
theorem request_answered_once_odd : ∃ now v, Floor.Reaches counter twoCalls now ∧
    now.calls.map (·.state) = [.done (.ok v), .done (.ok v)] ∧ now.answers "R" = [v] ∧
      (now.eventsFor "R").map (·.key) = [.text v.solutionId] := by
  obtain ⟨u, v, hu, hv⟩ := exists_view_odd
  obtain ⟨-, hrequest, e, he⟩ := Solution.view_eq_ok hu
  have hru := (hrequest "R").2 rfl
  have hrv := ((Solution.view_eq_ok hv).2.1 "R").2 rfl
  have hfirst : (SolutionTable.mk []).clashes u = false := by
    simp [SolutionTable.clashes_eq_false_iff, SolutionTable.answers]
  have hclash : (SolutionTable.mk [u]).clashes v = true := by
    simp [SolutionTable.clashes, SolutionTable.forRequest?, hru, hrv]
  have hsu : SolutionTable.isStorable u = true := Solution.isStorable_of_view hu
  have hsv : SolutionTable.isStorable v = true := Solution.isStorable_of_view hv
  have hstore : (Calculation.packed (oddSolution ⟨0, 0⟩)).step counter oddOrder (room 2 []) =
      (.stored (oddSolution ⟨0, 0⟩) u, room 2 [u]) := by
    simp [Calculation.step, Calculation.store, hu, SolutionTable.insert, room, hsu, hfirst]
  have hovertaken : (Calculation.packed (oddSolution ⟨1, 1⟩)).step counter oddOrder
      (room 2 [u]) = (.overtaken, room 2 [u]) := by
    simp [Calculation.step, Calculation.store, hv, SolutionTable.insert, room, hsv, hclash]
  have hanswer : (room 2 [u]).solutions.answerTo? oddOrder.requestId = some u := by
    rw [oddOrder, SolutionTable.answerTo?_text (by decide)]
    simp [SolutionTable.answers, room, hru]
  have h₁ := (reaches_packed.step_first hstore (by simp)).step_second hovertaken (by simp)
  have h₂ := h₁.step_second (Calculation.step_overtaken hanswer) (by simp)
  have h₃ := h₂.step_first (Calculation.step_stored he) (by simp)
  have hasked : ∀ call ∈ twoCalls.calls, call.state = .asked := by simp [twoCalls]
  have hsingle : (twoCalls.answers "R").length ≤ 1 := by decide
  obtain ⟨-, hall, -, hevents, -⟩ := request_answered_once (by decide) hasked rfl hsingle h₃
  have hone := (hall _ List.mem_cons_self rfl _ rfl).2 u rfl
  refine ⟨_, u, h₃, rfl, hone, ?_⟩
  have hkeys := hevents (by simp)
  rwa [hone] at hkeys

end Stowage
