import Mathlib.Tactic
import Stowage.Store.Solutions

/-!
# The stored solutions for a request

Looking up a request gives the first of the solutions that are stored for it
(`answerTo?_text`), and a solution is only stored beside others when none of them has its name or
answers its request (`clashes_eq_false_iff`).
-/

namespace Stowage.SolutionTable

variable {t : SolutionTable} {v : SolutionView}

/-- The stored solutions for a request. -/
def answers (t : SolutionTable) (r : RawText) : List SolutionView :=
  t.views.filter fun v => v.requestId == some r

theorem mem_answers {r : RawText} {u : SolutionView} :
    u ∈ t.answers r ↔ u ∈ t.views ∧ u.requestId = some r := by
  simp [answers]

theorem forRequest?_eq (t : SolutionTable) (r : String) :
    t.forRequest? r = (t.answers r).head? := by
  simp [forRequest?, answers]

theorem answerTo?_text {r : String} (hr : r ≠ "") (t : SolutionTable) :
    t.answerTo? (.text r) = (t.answers r).head? := by
  have hnamed : r.isEmpty = false := by simpa [String.isEmpty_iff] using hr
  simp [answerTo?, hnamed, forRequest?_eq]

/-- A request for which nothing is stored has no answer yet. -/
theorem answerTo?_eq_none {request : Json}
    (h : ∀ r, request = .text r → t.answers r = []) : t.answerTo? request = none := by
  unfold answerTo?
  split
  · rename_i r
    split_ifs
    · rfl
    · rw [forRequest?_eq, h r rfl]
      rfl
  · rfl

/-- What answers a request again is a stored solution for it. -/
theorem mem_of_answerTo? {request : Json} (h : t.answerTo? request = some v) :
    v ∈ t.views ∧ ∀ r, request = .text r → v.requestId = some r := by
  unfold answerTo? at h
  split at h
  · split_ifs at h
    rw [forRequest?_eq] at h
    obtain ⟨hmem, hrequest⟩ := mem_answers.1 (List.mem_of_head? h)
    refine ⟨hmem, ?_⟩
    rintro r ⟨⟩
    exact hrequest
  · cases h

theorem answers_concat (t : SolutionTable) (v : SolutionView) (r : RawText) :
    answers ⟨t.views ++ [v]⟩ r = t.answers r ++ if v.requestId = some r then [v] else [] := by
  simp [answers, List.filter_cons]

/-- A solution clashes with one of its name or for its request. -/
theorem clashes_eq_false_iff : t.clashes v = false ↔
    (∀ u ∈ t.views, u.solutionId ≠ v.solutionId) ∧
      ∀ r : String, v.requestId = some (.whole r) → t.answers r = [] := by
  have hname : (t.find? v.solutionId).isSome = false ↔
      ∀ u ∈ t.views, u.solutionId ≠ v.solutionId := by
    simp [find?]
  rw [clashes, Bool.or_eq_false_iff, hname]
  cases v.requestId with
  | none => simp
  | some request => cases request <;> simp [forRequest?_eq]

/-- Only a request of characters is stored. -/
theorem exists_whole_of_isStorable {r : RawText} (h : isStorable v = true)
    (hr : v.requestId = some r) : ∃ s : String, r = s := by
  cases r with
  | whole s => exact ⟨s, rfl⟩
  | broken => simp [isStorable, hr, RawText.isWhole] at h

end Stowage.SolutionTable
