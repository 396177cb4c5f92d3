import Mathlib.Tactic
import Stowage.Failure.Basic

/-!
# Computations that may fail

How a computation made of steps ends: it has a result when every step has one (`bind_eq_ok`), and it
fails as the first step that does (`bind_eq_error`). A calculation breaks off by a signal, where the
numbers have no result (`Failure.IsSignal`), or by a defect of what it is given
(`Failure.IsDefect`); `Signals whole x` says that `x` fails in no other way, and by no defect where
what it is given is `whole`.
-/

namespace Stowage

section Bind

variable {ε α β : Type} {x : Except ε α} {f : α → Except ε β}

@[simp] theorem ok_bind (a : α) (f : α → Except ε β) : (Except.ok a >>= f) = f a := rfl

@[simp] theorem error_bind (e : ε) (f : α → Except ε β) : (Except.error e >>= f) = .error e := rfl

theorem bind_eq_ok {b : β} : x >>= f = .ok b ↔ ∃ a, x = .ok a ∧ f a = .ok b := by
  cases x <;> simp

theorem bind_eq_error {e : ε} :
    x >>= f = .error e ↔ x = .error e ∨ ∃ a, x = .ok a ∧ f a = .error e := by
  cases x <;> simp

@[simp] theorem pure_eq_ok {a b : α} : (pure a : Except ε α) = .ok b ↔ a = b :=
  ⟨fun h => by cases h; rfl, fun h => h ▸ rfl⟩

@[simp] theorem pure_ne_error {a : α} {e : ε} : (pure a : Except ε α) ≠ .error e := nofun

theorem map_eq_ok {g : α → β} {b : β} : x.map g = .ok b ↔ ∃ a, x = .ok a ∧ g a = b := by
  cases x <;> simp [Except.map]

theorem mapError_eq_ok {ε' : Type} {g : ε → ε'} {a : α} : x.mapError g = .ok a ↔ x = .ok a := by
  cases x <;> simp [Except.mapError]

/-- The result of a computation, in a form that can be decided. -/
theorem eq_ok_of_toOption {a : α} (h : x.toOption = some a) : x = .ok a := by
  cases x <;> simp_all [Except.toOption]

theorem bind_eq_ok_of_toOption {a : α} {b : β} (hx : x = .ok a) (h : (f a).toOption = some b) :
    x >>= f = .ok b := bind_eq_ok.2 ⟨a, hx, eq_ok_of_toOption h⟩

/-- A run of steps that has a result: so do its beginning and its last step. -/
theorem foldlM_concat_eq_ok {step : β → α → Except ε β} {xs : List α} {y : α} {b c : β} :
    (xs ++ [y]).foldlM step b = .ok c ↔ ∃ m, xs.foldlM step b = .ok m ∧ step m y = .ok c := by
  rw [List.foldlM_append, bind_eq_ok]
  simp

/-- What every step keeps is kept by a run of them. -/
theorem of_foldlM {step : β → α → Except ε β} {P : β → Prop} {xs : List α} {b c : β}
    (hstep : ∀ b y c, P b → step b y = .ok c → P c) (hb : P b) (h : xs.foldlM step b = .ok c) :
    P c := by
  induction xs generalizing b with
  | nil => exact pure_eq_ok.1 h ▸ hb
  | cons x xs ih =>
    obtain ⟨m, hm, h⟩ := bind_eq_ok.1 h
    exact ih (hstep b x m hb hm) h

/-- A run of steps that fails does so at some step, after a beginning that has a result. -/
theorem foldlM_eq_error {step : β → α → Except ε β} {xs : List α} {b : β} {e : ε}
    (h : xs.foldlM step b = .error e) :
    ∃ done y rest m, xs = done ++ y :: rest ∧ done.foldlM step b = .ok m ∧ step m y = .error e := by
  induction xs generalizing b with
  | nil => simp at h
  | cons x xs ih =>
    rw [List.foldlM_cons, bind_eq_error] at h
    rcases h with h | ⟨c, hc, h⟩
    · exact ⟨[], x, xs, b, rfl, rfl, h⟩
    · obtain ⟨done, y, rest, m, rfl, hm, hy⟩ := ih h
      exact ⟨x :: done, y, rest, m, rfl, by rw [List.foldlM_cons, hc, ok_bind, hm], hy⟩

theorem mapM_eq_ok_cons {f : α → Except ε β} {a : α} {xs : List α} {ys : List β} :
    (a :: xs).mapM f = .ok ys ↔ ∃ b bs, f a = .ok b ∧ xs.mapM f = .ok bs ∧ ys = b :: bs := by
  rw [List.mapM_cons, bind_eq_ok]
  constructor
  · rintro ⟨b, hb, h⟩
    obtain ⟨bs, hbs, h⟩ := bind_eq_ok.1 h
    exact ⟨b, bs, hb, hbs, (pure_eq_ok.1 h).symm⟩
  · rintro ⟨b, bs, hb, hbs, rfl⟩
    exact ⟨b, hb, bind_eq_ok.2 ⟨bs, hbs, rfl⟩⟩

/-- A computation for every entry fails as it does for one of them. -/
theorem mapM_eq_error {f : α → Except ε β} {xs : List α} {e : ε} (h : xs.mapM f = .error e) :
    ∃ x ∈ xs, f x = .error e := by
  induction xs with
  | nil => nomatch h
  | cons x xs ih =>
    rw [List.mapM_cons, bind_eq_error] at h
    rcases h with h | ⟨y, -, h⟩
    · exact ⟨x, List.mem_cons_self, h⟩
    · rcases bind_eq_error.1 h with h | ⟨ys, -, h⟩
      · obtain ⟨x', hx', h⟩ := ih h
        exact ⟨x', List.mem_cons_of_mem x hx', h⟩
      · nomatch h

/-- What can be computed for every entry, with results of some kind, can be computed for all. -/
theorem exists_mapM_forall {f : α → Except ε β} {xs : List α} {P : β → Prop}
    (h : ∀ x ∈ xs, ∃ y, f x = .ok y ∧ P y) : ∃ ys, xs.mapM f = .ok ys ∧ ∀ y ∈ ys, P y := by
  induction xs with
  | nil => exact ⟨[], rfl, by simp⟩
  | cons x xs ih =>
    obtain ⟨⟨y, hy, hP⟩, hxs⟩ := List.forall_mem_cons.1 h
    obtain ⟨ys, hys, hPs⟩ := ih hxs
    exact ⟨y :: ys, mapM_eq_ok_cons.2 ⟨y, ys, hy, hys, rfl⟩, List.forall_mem_cons.2 ⟨hP, hPs⟩⟩

/-- What can be computed for every entry can be computed for all. -/
theorem exists_mapM {f : α → Except ε β} {xs : List α} (h : ∀ x ∈ xs, ∃ y, f x = .ok y) :
    ∃ ys, xs.mapM f = .ok ys := by
  obtain ⟨ys, hys, -⟩ := exists_mapM_forall (P := fun _ => True) fun x hx =>
    (h x hx).imp fun y hy => ⟨hy, trivial⟩
  exact ⟨ys, hys⟩

/-- The results are those of the elements, one by one. -/
theorem forall₂_of_mapM {f : α → Except ε β} {xs : List α} {ys : List β} {R : α → β → Prop}
    (hR : ∀ x ∈ xs, ∀ y, f x = .ok y → R x y) (h : xs.mapM f = .ok ys) :
    List.Forall₂ R xs ys := by
  induction xs generalizing ys with
  | nil =>
    obtain rfl := pure_eq_ok.1 h
    exact .nil
  | cons x xs ih =>
    obtain ⟨y, ys, hy, hys, rfl⟩ := mapM_eq_ok_cons.1 h
    obtain ⟨hx, hxs⟩ := List.forall_mem_cons.1 hR
    exact .cons (hx y hy) (ih hxs hys)

theorem length_of_mapM {f : α → Except ε β} {xs : List α} {ys : List β} (h : xs.mapM f = .ok ys) :
    xs.length = ys.length :=
  (forall₂_of_mapM (R := fun _ _ => True) (fun _ _ _ _ => trivial) h).length_eq

/-- The results are those of the elements. -/
theorem mem_of_mapM {f : α → Except ε β} {xs : List α} {ys : List β} (h : xs.mapM f = .ok ys) :
    (∀ y ∈ ys, ∃ x ∈ xs, f x = .ok y) ∧ ∀ x ∈ xs, ∃ y ∈ ys, f x = .ok y := by
  induction xs generalizing ys with
  | nil =>
    obtain rfl := pure_eq_ok.1 h
    simp
  | cons x xs ih =>
    obtain ⟨y, ys, hy, hys, rfl⟩ := mapM_eq_ok_cons.1 h
    obtain ⟨hback, hforth⟩ := ih hys
    refine ⟨List.forall_mem_cons.2 ⟨⟨x, by simp, hy⟩, fun z hz => ?_⟩,
      List.forall_mem_cons.2 ⟨⟨y, by simp, hy⟩, fun z hz => ?_⟩⟩
    · obtain ⟨v, hv, hfv⟩ := hback z hz
      exact ⟨v, List.mem_cons_of_mem _ hv, hfv⟩
    · obtain ⟨v, hv, hfv⟩ := hforth z hz
      exact ⟨v, List.mem_cons_of_mem _ hv, hfv⟩

end Bind

namespace Fallible

variable {α : Type} {r : Except Decimal.Signal α}

@[simp] theorem ofDecimal_eq_ok {a : α} : ofDecimal r = .ok a ↔ r = .ok a := by
  cases r <;> simp [ofDecimal, Except.mapError]

theorem ofDecimal_eq_error {f : Failure} :
    ofDecimal r = .error f ↔ ∃ s, r = .error s ∧ f = .arithmetic s := by
  cases r <;> simp [ofDecimal, Except.mapError, eq_comm]

variable {shown : Json} {e : DomainError} {f : Failure}

@[simp] theorem refuseShowing_ne_ok {a : α} : (refuseShowing shown e : Fallible α) ≠ .ok a := by
  unfold refuseShowing
  split_ifs <;> nofun

/-- A refusal that shows a value, unless that cannot be shown. -/
theorem refuseShowing_eq_error : (refuseShowing shown e : Fallible α) = .error f ↔
    (shown.hasLongNumber = true ∧ f = .longNumber) ∨
      (shown.hasLongNumber = false ∧ f = .domain e) := by
  unfold refuseShowing
  cases shown.hasLongNumber <;> simp [refuse, eq_comm]

theorem refuseShowing_of_short (h : shown.hasLongNumber = false) :
    (refuseShowing shown e : Fallible α) = .refuse e := by
  simp [refuseShowing, h]

end Fallible

/-! ## Signals and defects -/

namespace Failure

/-- A decimal operation without a result, or a measure that a conversion leaves with nothing. -/
def IsSignal : Failure → Prop
  | .arithmetic _ | .domain (.notPositive _) => True
  | _ => False

/-- A defect of a record: a measure that is absent or is none, a quantity that counts no pieces, or
an integer that is too long to be shown. -/
def IsDefect : Failure → Prop
  | .absentValue | .wrongKind | .outOfRange | .longNumber => True
  | _ => False

/-- A failure of the calculation itself, which is no refusal. -/
def IsBreak (f : Failure) : Prop := f.IsSignal ∨ f.IsDefect

theorem IsSignal.not_isDefect {f : Failure} (h : f.IsSignal) : ¬ f.IsDefect := by
  cases f <;> first | exact h.elim | exact id

end Failure

/-- The computation fails only by a signal, or by a defect where something is not whole. -/
def Signals {α : Type} (whole : Prop) (x : Fallible α) : Prop :=
  ∀ f, x = .error f → f.IsSignal ∨ (f.IsDefect ∧ ¬ whole)

namespace Signals

variable {α β : Type} {whole : Prop} {x : Fallible α} {f : α → Fallible β}

theorem isBreak {e : Failure} (h : Signals whole x) (he : x = .error e) : e.IsBreak :=
  (h e he).imp_right And.left

theorem ok (a : α) : Signals whole (.ok a) := nofun

theorem pure (a : α) : Signals whole (Pure.pure a) := nofun

theorem error {e : Failure} (h : e.IsSignal) : Signals whole (.error e : Fallible α) := by
  rintro _ ⟨⟩
  exact .inl h

theorem defect {e : Failure} (h : e.IsDefect) (hwhole : ¬ whole) :
    Signals whole (.error e : Fallible α) := by
  rintro _ ⟨⟩
  exact .inr ⟨h, hwhole⟩

theorem bind_of_ok (hx : Signals whole x) (hf : ∀ a, x = .ok a → Signals whole (f a)) :
    Signals whole (x >>= f) := by
  intro e h
  rcases bind_eq_error.1 h with h | ⟨a, ha, h⟩
  · exact hx e h
  · exact hf a ha e h

theorem bind (hx : Signals whole x) (hf : ∀ a, Signals whole (f a)) : Signals whole (x >>= f) :=
  hx.bind_of_ok fun a _ => hf a

theorem ite {c : Prop} [Decidable c] {y : Fallible α} (hx : Signals whole x)
    (hy : Signals whole y) : Signals whole (if c then x else y) := by
  split_ifs
  · exact hx
  · exact hy

theorem ofDecimal (r : Except Decimal.Signal α) : Signals whole (Fallible.ofDecimal r) := by
  intro e h
  obtain ⟨s, -, rfl⟩ := Fallible.ofDecimal_eq_error.1 h
  exact .inl trivial

theorem mapM {xs : List α} (hf : ∀ a ∈ xs, Signals whole (f a)) : Signals whole (xs.mapM f) := by
  intro e he
  obtain ⟨x, hx, he⟩ := mapM_eq_error he
  exact hf x hx e he

theorem foldlM {step : β → α → Fallible β} {xs : List α}
    (h : ∀ b, ∀ a ∈ xs, Signals whole (step b a)) (b : β) : Signals whole (xs.foldlM step b) := by
  intro e he
  obtain ⟨done, y, rest, m, rfl, -, hy⟩ := foldlM_eq_error he
  exact h m y (by simp) e hy

end Signals

end Stowage
