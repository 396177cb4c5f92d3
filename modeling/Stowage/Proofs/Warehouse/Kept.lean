import Stowage.Proofs.Store.Payload
import Stowage.Proofs.Warehouse.Answer
import Stowage.Proofs.Warehouse.Interleaving
import Stowage.Proofs.Warehouse.News

/-!
# Solutions that are kept

Calculations, requests for solutions and changes of cartons follow one another. A solution that was
given for a request is given from then on, whatever is asked for with the same request, and is read
back from its row as it was (`calculated_solution_is_kept`); a calculation that fails leaves all
records as they were.
-/

namespace Stowage

/-! ## Solutions in a table -/

namespace SolutionTable

variable {t t' : SolutionTable} {v : SolutionView} {r : String}

/-- Every solution is found by its name, and its time was read off the clock. -/
structure Kept (t : SolutionTable) : Prop where
  found : ∀ v ∈ t.views, t.find? v.solutionId = some v
  timed : ∀ v ∈ t.views, v.createdAt.OnClock

theorem kept_empty : SolutionTable.empty.Kept where
  found _ hv := absurd hv List.not_mem_nil
  timed _ hv := absurd hv List.not_mem_nil

/-- What is found in a table is found when more solutions are stored after it. -/
theorem find?_of_isPrefix {id : String} (h : t.views <+: t'.views) (hv : t.find? id = some v) :
    t'.find? id = some v :=
  h.find?_eq_some hv

theorem forRequest?_of_isPrefix (h : t.views <+: t'.views) (hv : t.forRequest? r = some v) :
    t'.forRequest? r = some v :=
  h.find?_eq_some hv

/-- A solution that clashes with no other is found by its name. -/
theorem find?_concat (hclash : t.clashes v = false) :
    find? ⟨t.views ++ [v]⟩ v.solutionId = some v := by
  have hnone : t.views.find? (fun u => u.solutionId == v.solutionId) = none := by
    simpa using (clashes_eq_false_iff.1 hclash).1
  simp [find?, List.find?_append, hnone]

/-- A solution that clashes with no other is found by its request. -/
theorem forRequest?_concat (hclash : t.clashes v = false) (hr : v.requestId = some ↑r) :
    forRequest? ⟨t.views ++ [v]⟩ r = some v := by
  rw [forRequest?_eq, answers_concat, (clashes_eq_false_iff.1 hclash).2 r hr, if_pos hr]
  rfl

theorem Kept.concat (ht : t.Kept) (hclash : t.clashes v = false) (htime : v.createdAt.OnClock) :
    Kept ⟨t.views ++ [v]⟩ where
  found u hu := by
    rcases List.mem_append.1 hu with hold | hnew
    · exact find?_of_isPrefix (List.prefix_append _ _) (ht.found u hold)
    · rw [List.mem_singleton.1 hnew]
      exact find?_concat hclash
  timed u hu := by
    rcases List.mem_append.1 hu with hold | hnew
    · exact ht.timed u hold
    · rwa [List.mem_singleton.1 hnew]

end SolutionTable

/-! ## One call -/

/-- A change of the cartons leaves the solutions alone. -/
theorem CartonCall.solutions_perform (w : Warehouse) (call : CartonCall) :
    (call.perform w).2.solutions = w.solutions := by
  obtain ⟨news, htells⟩ := call.tells w
  generalize (call.perform w).1 = outcome at htells
  generalize (call.perform w).2 = w' at htells ⊢
  cases htells <;> rfl

namespace Calculation.Comes

variable {order : PackingOrder} {w w' : Warehouse} {outcome : Fallible SolutionView}
  {v : SolutionView} {r : String}

/-- A calculation stores at most one more solution, after the others. -/
theorem kept (h : Comes order w outcome w') (hw : w.solutions.Kept) :
    w'.solutions.Kept ∧ w.solutions.views <+: w'.solutions.views := by
  cases h with
  | failed hsame =>
    rw [hsame.solutions]
    exact ⟨hw, List.prefix_refl _⟩
  | repeated => exact ⟨hw, List.prefix_refl _⟩
  | stored _ htime hview _ hclash _ _ hsolutions =>
    rw [← Solution.createdAt_of_view hview] at htime
    rw [hsolutions]
    exact ⟨hw.concat hclash htime, List.prefix_append _ _⟩

/-- What a calculation gives for a request is found by its name and by the request. -/
theorem answered (h : Comes order w (.ok v) w') (hw : w.solutions.Kept)
    (hrequest : order.requestId = .text r) (hr : r ≠ "") :
    w'.solutions.find? v.solutionId = some v ∧ w'.solutions.forRequest? r = some v := by
  cases h with
  | repeated hanswer =>
    have hmem := (SolutionTable.mem_of_answerTo? hanswer).1
    rw [hrequest, SolutionTable.answerTo?_text hr, ← SolutionTable.forRequest?_eq] at hanswer
    exact ⟨hw.found v hmem, hanswer⟩
  | stored hsame _ hview _ hclash _ _ hsolutions =>
    have hnamed := ((Solution.view_eq_ok hview).2.1 _).2 (hsame.trans hrequest)
    rw [hsolutions]
    exact ⟨SolutionTable.find?_concat hclash, SolutionTable.forRequest?_concat hclash hnamed⟩

/-- Only a request of characters is answered. -/
theorem exists_whole {r : RawText} (h : Comes order w (.ok v) w')
    (hrequest : order.requestId = .text r) : ∃ s : String, r = s := by
  cases h with
  | repeated hanswer =>
    cases r with
    | whole s => exact ⟨s, rfl⟩
    | broken => simp [hrequest, SolutionTable.answerTo?] at hanswer
  | stored hsame _ hview hstorable =>
    have hnamed := ((Solution.view_eq_ok hview).2.1 r).2 (hsame.trans hrequest)
    exact SolutionTable.exists_whole_of_isStorable hstorable hnamed

end Calculation.Comes

/-- A call of the services. -/
inductive ServiceCall where
  /-- An order is to be packed. -/
  | calculate (desk : Calculation.Desk) (order : PackingOrder)
  /-- A solution is asked for. -/
  | getSolution (id : String)
  /-- A carton is to be changed. -/
  | carton (call : CartonCall)

namespace ServiceCall

/-- The warehouse after a call. -/
def after (w : Warehouse) : ServiceCall → Warehouse
  | .calculate desk order => (w.calculate desk order).2
  | .getSolution _ => w
  | .carton call => (call.perform w).2

/-- The warehouse after several calls, one after the other. -/
def afterAll (w : Warehouse) (calls : List ServiceCall) : Warehouse := calls.foldl after w

variable {w : Warehouse}

/-- **A call leaves the stored solutions as they were**, with others after them. -/
theorem kept_after (hw : w.solutions.Kept) (call : ServiceCall) :
    (call.after w).solutions.Kept ∧ w.solutions.views <+: (call.after w).solutions.views := by
  cases call with
  | calculate desk order => exact (w.calculate_comes desk order).kept hw
  | getSolution id => exact ⟨hw, List.prefix_refl _⟩
  | carton call =>
    rw [after, call.solutions_perform w]
    exact ⟨hw, List.prefix_refl _⟩

/-! ## Runs -/

/-- **The stored solutions stay** while calls follow one another. -/
theorem kept_afterAll (hw : w.solutions.Kept) (calls : List ServiceCall) :
    (afterAll w calls).solutions.Kept ∧
      w.solutions.views <+: (afterAll w calls).solutions.views := by
  induction calls generalizing w with
  | nil => exact ⟨hw, List.prefix_refl _⟩
  | cons call calls ih =>
    obtain ⟨hnext, hprefix⟩ := kept_after hw call
    obtain ⟨hkept, hrest⟩ := ih hnext
    exact ⟨hkept, hprefix.trans hrest⟩

end ServiceCall

/-- A solution is what a warehouse gives for a request. -/
structure Warehouse.Remembers (w : Warehouse) (r : String) (v : SolutionView) : Prop where
  fetched : w.getSolution v.solutionId = .ok v
  /-- It answers every order with the request, and nothing is changed or told of. -/
  repeated : ∀ desk (order : PackingOrder), order.requestId = .text r →
    w.calculate desk order = (.ok v, w)
  /-- Its row is read as it was written. -/
  reloaded : v.createdAt.InCalendar →
    w.solutions.load? v.solutionId = some (some v) ∧ w.solutions.loadFor? r = some (some v)

/-- What is stored for a request is what the warehouse gives for it. -/
theorem Warehouse.remembers_of_found {w : Warehouse} {r : String} {v : SolutionView}
    (hw : w.solutions.Kept) (hr : r ≠ "") (hname : w.solutions.find? v.solutionId = some v)
    (hrequest : w.solutions.forRequest? r = some v) : w.Remembers r v where
  fetched := by rw [getSolution, hname]
  repeated desk order horder := by
    have hanswer : w.solutions.answerTo? order.requestId = some v := by
      rw [horder, SolutionTable.answerTo?_text hr, ← SolutionTable.forRequest?_eq, hrequest]
    have hwhole : order.requestId.isBroken = false := by
      rw [horder]
      rfl
    rw [calculate, Calculation.run_step desk order w .asked rfl]
    simp [Calculation.step, hwhole, hanswer, Calculation.run_done]
  reloaded htime := by
    obtain ⟨n, hn⟩ := hw.timed v (List.mem_of_find?_eq_some hname)
    have hoffset : v.createdAt.offset = some 0 := by rw [hn]; rfl
    exact ⟨SolutionTable.load?_of_find? hname hoffset htime,
      SolutionTable.loadFor?_of_forRequest? hrequest hoffset htime⟩

open ServiceCall in
/-- **A solution that was calculated for a request is kept.** Whatever calls come before and after,
it is fetched by its name and answers its request, a text of characters, from then on, and it is
read back from its row. Calculations that fail leave all records as they were. -/
theorem calculated_solution_is_kept {w : Warehouse} (hstart : w.solutions = .empty)
    (calls : List ServiceCall) :
    (∀ desk order f, ((afterAll w calls).calculate desk order).1 = .error f →
      (afterAll w calls).SameRecords ((afterAll w calls).calculate desk order).2) ∧
    ∀ earlier desk order later (r : RawText) v, calls = earlier ++ .calculate desk order :: later →
      order.requestId = .text r → r ≠ "" →
      ((afterAll w earlier).calculate desk order).1 = .ok v →
      ∃ s : String, r = s ∧ (afterAll w calls).Remembers s v := by
  refine ⟨fun desk order f hf => ?_, fun earlier desk order later r v hcalls hrequest hr hv => ?_⟩
  · have hcomes := (afterAll w calls).calculate_comes desk order
    rw [hf] at hcomes
    exact hcomes.sameRecords
  · have hkept := (kept_afterAll (hstart ▸ SolutionTable.kept_empty) earlier).1
    have hcomes := (afterAll w earlier).calculate_comes desk order
    rw [hv] at hcomes
    obtain ⟨s, rfl⟩ := hcomes.exists_whole hrequest
    obtain ⟨hname, hfound⟩ := hcomes.answered hkept hrequest (ne_of_apply_ne _ hr)
    obtain ⟨hlast, hprefix⟩ := kept_afterAll (hcomes.kept hkept).1 later
    have hnow :
        afterAll w calls = afterAll ((afterAll w earlier).calculate desk order).2 later := by
      rw [hcalls, afterAll, List.foldl_append]
      rfl
    rw [hnow]
    refine ⟨s, rfl, ?_⟩
    exact Warehouse.remembers_of_found hlast (ne_of_apply_ne _ hr)
      (SolutionTable.find?_of_isPrefix hprefix hname)
      (SolutionTable.forRequest?_of_isPrefix hprefix hfound)

/-! ## A bin that is taken out of use -/

/-- The odd item is packed into the bin. -/
theorem exists_calculate_odd : ∃ v, ((room 0 []).calculate counter oddOrder).1 = .ok v := by
  obtain ⟨v, -, hv, -⟩ := exists_view_odd
  have hclash : (room 1 []).solutions.clashes v = false := by
    simp [SolutionTable.clashes_eq_false_iff, SolutionTable.answers, room]
  have hstorable := Solution.isStorable_of_view hv
  obtain ⟨e, -, hrun⟩ := Calculation.run_packed_of_shown hv hstorable hclash
  exact ⟨v, by rw [Calculation.calculate_eq_run_packed rfl rfl list_bin (packOrder_odd 0 []), hrun]⟩

/-- The solution is kept when its bin is not in use any more. -/
theorem calculated_solution_is_kept_odd : ∃ v,
    ((room 0 []).calculate counter oddOrder).1 = .ok v ∧
      (ServiceCall.afterAll (room 0 []) [.calculate counter oddOrder,
        .carton (.deactivate "BIN")]).Remembers "R" v := by
  obtain ⟨v, hv⟩ := exists_calculate_odd
  have hkept := (calculated_solution_is_kept (w := room 0 []) rfl [.calculate counter oddOrder,
    .carton (.deactivate "BIN")]).2
  obtain ⟨s, hs, hremembers⟩ :=
    hkept [] counter oddOrder [.carton (.deactivate "BIN")] "R" v rfl rfl (by decide) hv
  obtain rfl := RawText.whole.inj hs
  exact ⟨v, hv, hremembers⟩

end Stowage
