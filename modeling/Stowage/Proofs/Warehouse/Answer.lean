import Stowage.Proofs.Store.Solutions
import Stowage.Proofs.Warehouse.Calculation

/-!
# What a calculation comes to

A calculation with nothing in between fails and leaves all records as they were, repeats the
solution that is stored for its request, or stores a new one and tells of it
(`Warehouse.calculate_comes`).
-/

namespace Stowage

/-- The rows and the outbox of a warehouse are those of another. -/
structure Warehouse.SameRecords (w w' : Warehouse) : Prop where
  cartons : w'.cartons = w.cartons
  solutions : w'.solutions = w.solutions
  outbox : w'.outbox = w.outbox

theorem Warehouse.SameRecords.refl (w : Warehouse) : w.SameRecords w := ⟨rfl, rfl, rfl⟩

/-- A time that was read off the clock. -/
def Timestamp.OnClock (t : Timestamp) : Prop := ∃ n : ℕ, t = .ofSeconds (1704067200 + n)

theorem Supply.onClock_now (s : Supply) : s.now.1.OnClock := ⟨s.readings, rfl⟩

theorem Solution.createdAt_of_view {s : Solution} {v : SolutionView} (h : s.view = .ok v) :
    v.createdAt = s.createdAt := by
  obtain ⟨items, -, h⟩ := bind_eq_ok.1 h
  obtain ⟨weight, -, h⟩ := bind_eq_ok.1 h
  obtain ⟨volume, -, h⟩ := bind_eq_ok.1 h
  obtain ⟨used, -, h⟩ := bind_eq_ok.1 h
  obtain ⟨mean, -, h⟩ := bind_eq_ok.1 h
  obtain ⟨packages, -, h⟩ := bind_eq_ok.1 h
  obtain ⟨names, -, h⟩ := bind_eq_ok.1 h
  rw [← pure_eq_ok.1 h]

namespace Calculation

variable {desk : Desk} {order : PackingOrder} {w w' : Warehouse} {cartons cs : List Carton}
  {c : Carton} {s : Solution} {v : SolutionView} {f : Failure}

/-- A solution is made at a time read off the clock. -/
theorem onClock_of_pack {items : List Item} {cartons : List Carton} {policy : Policy}
    {supply : Supply} (h : (pack items cartons policy supply).1 = .ok s) :
    s.createdAt.OnClock := by
  unfold pack at h
  cases hpackages : Packing.packages items cartons policy with
  | error f => simp [hpackages] at h
  | ok packages =>
    simp only [hpackages] at h
    cases hmean : (Solution.create packages none supply).1.averageUtilization with
    | error f => simp [hmean, Except.map] at h
    | ok mean =>
      rw [hmean] at h
      cases h
      exact Supply.onClock_now _

/-- What the calculation for an order comes to in a warehouse: its outcome and the warehouse
afterwards. -/
inductive Comes (order : PackingOrder) (w : Warehouse) : Fallible SolutionView → Warehouse → Prop
  /-- A calculation that fails leaves all records as they were. -/
  | failed {f : Failure} {w' : Warehouse} (h : w.SameRecords w') : Comes order w (.error f) w'
  /-- The solution that is stored for the request is the answer again. -/
  | repeated {v : SolutionView} (h : w.solutions.answerTo? order.requestId = some v) :
      Comes order w (.ok v) w
  /-- A solution is stored beside the others and told of. -/
  | stored {s : Solution} {v : SolutionView} {e : OutboundEvent} {w' : Warehouse}
      (hrequest : s.requestId = order.requestId) (htime : s.createdAt.OnClock)
      (hview : s.view = .ok v) (hstorable : SolutionTable.isStorable v = true)
      (hclash : w.solutions.clashes v = false) (hannounced : s.announcement = .ok e)
      (hcartons : w'.cartons = w.cartons)
      (hsolutions : w'.solutions = ⟨w.solutions.views ++ [v]⟩)
      (houtbox : w'.outbox = w.outbox.push e) : Comes order w (.ok v) w'

/-- A calculation leaves the cartons alone. -/
theorem Comes.cartons_eq {outcome : Fallible SolutionView} (h : Comes order w outcome w') :
    w'.cartons = w.cartons := by
  cases h with
  | failed h => exact h.cartons
  | repeated => rfl
  | stored _ _ _ _ _ _ hcartons => exact hcartons

/-- A calculation without an answer leaves all records as they were. -/
theorem Comes.sameRecords {f : Failure} (h : Comes order w (.error f) w') : w.SameRecords w' := by
  cases h with
  | failed h => exact h

/-- So does one that is answered with a stored solution. -/
theorem Comes.sameRecords_of_mem (h : Comes order w (.ok v) w') (hv : v ∈ w.solutions.views) :
    w.SameRecords w' := by
  cases h with
  | repeated => exact .refl w
  | stored _ _ _ _ hclash =>
    exact absurd rfl ((SolutionTable.clashes_eq_false_iff.1 hclash).1 v hv)

/-- The answer is stored. -/
theorem Comes.mem (h : Comes order w (.ok v) w') : v ∈ w'.solutions.views := by
  cases h with
  | repeated hanswer => exact (SolutionTable.mem_of_answerTo? hanswer).1
  | stored _ _ _ _ _ _ _ hsolutions => simp [hsolutions]

/-- A solution for an order is one of its items, with the names that the order has. -/
theorem packOrder_eq_ok (h : packOrder desk order cartons w = (.ok s, w')) :
    w.SameRecords w' ∧ ∃ items log made,
      (prepare desk order).run.run w.asked = (.ok items, log) ∧
      (pack items cartons (order.policy desk.settings) w.supply).1 = .ok made ∧
      s = { made with requestId := order.requestId, orderId := order.orderId } := by
  unfold packOrder at h
  rcases hitems : (prepare desk order).run.run w.asked with ⟨failed | items, log⟩ <;>
    rw [hitems] at h
  · nomatch (Prod.mk.inj h).1
  · obtain ⟨hs, rfl⟩ := Prod.mk.inj h
    obtain ⟨made, hmade, rfl⟩ := map_eq_ok.1 hs
    exact ⟨⟨rfl, rfl, rfl⟩, items, log, made, rfl, hmade, rfl⟩

/-- A solution is made for the request of the order, at a time read off the clock. -/
theorem about_of_packOrder (h : (packOrder desk order cartons w).1 = .ok s) :
    s.requestId = order.requestId ∧ s.createdAt.OnClock := by
  obtain ⟨-, items, log, made, -, hmade, rfl⟩ := packOrder_eq_ok (Prod.ext h rfl)
  exact ⟨rfl, onClock_of_pack (s := made) hmade⟩

/-- A request without octets cannot be looked up. -/
theorem calculate_of_broken (h : order.requestId.isBroken = true) :
    w.calculate desk order = (.error .unencodable, w) := by
  have hasked : step desk order w .asked = (.done (.error .unencodable), w) := by simp [step, h]
  rw [Warehouse.calculate, run_step desk order w .asked rfl, hasked, run_done]

/-- A calculation for a request without an answer gets as far as packing. -/
theorem calculate_eq_run_packed (hwhole : order.requestId.isBroken = false)
    (hnew : w.solutions.answerTo? order.requestId = none)
    (hlist : w.cartons.list true = .ok (c :: cs))
    (hpacked : packOrder desk order (c :: cs) w = (.ok s, w')) :
    w.calculate desk order = run desk order w' (.packed s) := by
  have hasked : step desk order w .asked = (.unanswered, w) := by simp [step, hwhole, hnew]
  rw [Warehouse.calculate, run_step desk order w .asked rfl, hasked,
    run_step desk order w .unanswered rfl]
  simp only [step, hlist]
  rw [run_step desk order w (.supplied _) rfl]
  simp only [step, hpacked]

/-- A solution that is shown is stored and told of, if it clashes with no other. -/
theorem run_packed_of_shown (hview : s.view = .ok v)
    (hstorable : SolutionTable.isStorable v = true) (hclash : w.solutions.clashes v = false) :
    ∃ e, s.announcement = .ok e ∧ run desk order w (.packed s) =
      (.ok v, { w with
        solutions := ⟨w.solutions.views ++ [v]⟩
        outbox := w.outbox.push e }) := by
  obtain ⟨-, -, e, he⟩ := Solution.view_eq_ok hview
  refine ⟨e, he, ?_⟩
  have hstore : step desk order w (.packed s) =
      (.stored s v, { w with solutions := ⟨w.solutions.views ++ [v]⟩ }) := by
    simp [step, store, hview, SolutionTable.insert, hstorable, hclash]
  rw [run_step desk order w (.packed s) rfl, hstore, run_step desk order _ (.stored s v) rfl,
    step_stored he, run_done]

/-- A solution that cannot be shown is the end of a calculation. -/
theorem run_packed_of_error (hview : s.view = .error f) :
    run desk order w (.packed s) = (.error f, w) := by
  rw [run_step desk order w (.packed s) rfl]
  simp only [step, store, hview, run_done]

/-- So is one of which a name has no octets. -/
theorem run_packed_of_unstorable (hview : s.view = .ok v)
    (hstorable : SolutionTable.isStorable v = false) :
    run desk order w (.packed s) = (.error .unencodable, w) := by
  have hstore : step desk order w (.packed s) = (.done (.error .unencodable), w) := by
    simp [step, store, hview, SolutionTable.insert, hstorable]
  rw [run_step desk order w (.packed s) rfl, hstore, run_done]

/-- A solution for a request that has been answered meanwhile gives way to that answer. -/
theorem run_packed_of_clash (hview : s.view = .ok v)
    (hstorable : SolutionTable.isStorable v = true) (hclash : w.solutions.clashes v = true) :
    run desk order w (.packed s) = run desk order w .overtaken := by
  have hstore : step desk order w (.packed s) = (.overtaken, w) := by
    simp [step, store, hview, SolutionTable.insert, hstorable, hclash]
  rw [run_step desk order w (.packed s) rfl, hstore]

/-- A solution that was packed is stored and told of, or left alone. -/
theorem comes_packed (hsame : w.SameRecords w')
    (hnew : w.solutions.answerTo? order.requestId = none)
    (hrequest : s.requestId = order.requestId) (htime : s.createdAt.OnClock) :
    Comes order w (run desk order w' (.packed s)).1 (run desk order w' (.packed s)).2 := by
  have hsolutions := hsame.solutions
  cases hview : s.view with
  | error f =>
    rw [run_packed_of_error hview]
    exact .failed hsame
  | ok v =>
    cases hstorable : SolutionTable.isStorable v with
    | false =>
      rw [run_packed_of_unstorable hview hstorable]
      exact .failed hsame
    | true =>
      cases hclash : w'.solutions.clashes v with
      | true =>
        rw [run_packed_of_clash hview hstorable hclash, run_step desk order w' .overtaken rfl]
        simp only [step, hsolutions, hnew, run_done]
        exact .failed hsame
      | false =>
        obtain ⟨e, he, hrun⟩ := @run_packed_of_shown desk order w' s v hview hstorable hclash
        rw [hsolutions] at hclash
        rw [hrun]
        exact .stored hrequest htime hview hstorable hclash he hsame.cartons
          (by rw [← hsolutions]) (by rw [← hsame.outbox])

end Calculation

open Calculation

variable {desk : Desk} {order : PackingOrder}

/-- **What answering an order comes to.** -/
theorem Warehouse.calculate_comes (w : Warehouse) (desk : Desk) (order : PackingOrder) :
    Comes order w (w.calculate desk order).1 (w.calculate desk order).2 := by
  rw [calculate, run_step desk order w .asked rfl]
  obtain ⟨-, h⟩ | ⟨hwhole, h⟩ := @step_asked desk order w
  · rw [h, run_done]
    exact .failed (.refl w)
  cases hanswer : w.solutions.answerTo? order.requestId with
  | some v =>
    simp only [step, hwhole, hanswer, run_done, Bool.false_eq_true, if_false]
    exact .repeated hanswer
  | none =>
    simp only [step, hwhole, hanswer, Bool.false_eq_true, if_false]
    rw [run_step desk order w .unanswered rfl]
    obtain ⟨cartons, h⟩ | ⟨f, -, h⟩ := @step_unanswered desk order w
    · rw [h, run_step desk order w (.supplied cartons) rfl]
      obtain ⟨log, supply, hw, -⟩ := packOrder_cases desk order cartons w
      simp only [step]
      generalize hpacked : packOrder desk order cartons w = packed at hw
      obtain ⟨outcome, w'⟩ := packed
      obtain rfl : w' = _ := hw
      have hsame : w.SameRecords { w with asked := log, supply := supply } := ⟨rfl, rfl, rfl⟩
      cases outcome with
      | error f =>
        rw [run_done]
        exact .failed hsame
      | ok s =>
        obtain ⟨hrequest, htime⟩ := about_of_packOrder (congrArg Prod.fst hpacked)
        exact comes_packed hsame hanswer hrequest htime
    · rw [h, run_done]
      exact .failed (.refl w)

end Stowage
