import Stowage.Carton.Handling
import Stowage.Proofs.Failure.Fallible

/-!
# The history of a carton

A carton that was made or brought back is changed in place, and its events are pulled now and then.
An action that fails leaves it untouched, although actions set one part after the other
(`Action.comes_take`). So whatever is done, the events that were pulled and those that are pending
are one for each change that took effect, other than an activation, and the latest of them shows the
carton as it is (`carton_history_exact`).
-/

namespace Stowage

namespace Event

/-- The time at which the event occurred. -/
def occurredOn? : Event → Option Timestamp
  | .cartonCreated c | .cartonUpdated c => some c.occurredOn
  | .cartonDeactivated _ occurredOn => some occurredOn
  | .solutionCalculated s => some s.occurredOn
  | .unspecified => none

/-- The carton that the event shows. -/
def snapshot? : Event → Option CartonSnapshot
  | .cartonCreated c | .cartonUpdated c => some c
  | _ => none

end Event

namespace Carton

/-! ## In place and as a whole -/

/-- What whoever holds a carton is left with by a change of it as a whole. -/
def Held.after (h : Held) : Fallible Change → Fallible CartonNote × Held
  | .ok change => (.ok change.note, ⟨change.carton, change.supply⟩)
  | .error f => (.error f, h)

namespace Handling

variable (h : Held) (name : Json) (dimensions : Attribute Dimensions) (maxWeight : Attribute Weight)

theorem run_activate : activate.run.run h = h.after (.ok (h.carton.activate h.supply)) := by
  obtain ⟨⟨_, _, _, _, status, _, _, _⟩, supply⟩ := h
  cases status <;> rfl

theorem run_deactivate : deactivate.run.run h = h.after (.ok (h.carton.deactivate h.supply)) := by
  obtain ⟨⟨_, _, _, _, status, _, _, _⟩, supply⟩ := h
  cases status <;> rfl

theorem run_updateName :
    (updateName name).run.run h = h.after (h.carton.updateName name h.supply) := by
  unfold updateName Carton.updateName
  cases checkName name <;> rfl

theorem run_updateDimensions : (updateDimensions dimensions).run.run h =
    h.after (h.carton.updateDimensions dimensions h.supply) := by
  unfold updateDimensions Carton.updateDimensions
  cases checkDimensions dimensions <;> rfl

theorem run_updateMaxWeight : (updateMaxWeight maxWeight).run.run h =
    h.after (h.carton.updateMaxWeight maxWeight h.supply) := by
  unfold updateMaxWeight Carton.updateMaxWeight
  cases checkMaxWeight maxWeight <;> rfl

theorem run_update : (update name dimensions maxWeight).run.run h =
    h.after (h.carton.update name dimensions maxWeight h.supply) := by
  unfold update Carton.update
  cases checkName name with
  | error f => rfl
  | ok s =>
    cases checkDimensions dimensions with
    | error f => rfl
    | ok d => cases checkMaxWeight maxWeight <;> rfl

end Handling

/-! ## What an action comes to -/

/-- A change that took effect. -/
inductive Effect where
  /-- The carton was made active, of which no event tells. -/
  | activated (time : Timestamp)
  /-- The carton was taken out of use. -/
  | deactivated (id : String) (time : Timestamp)
  /-- The carton was updated, and looked like this afterwards. -/
  | updated (carton : CartonSnapshot)

namespace Effect

/-- When the change took effect. -/
def time : Effect → Timestamp
  | .activated time | .deactivated _ time => time
  | .updated c => c.occurredOn

/-- The event that tells of the change, if one does. -/
def event? : Effect → Option Event
  | .activated _ => none
  | .deactivated id time => some (.cartonDeactivated (.text id) time)
  | .updated c => some (.cartonUpdated c)

end Effect

namespace Action

/-- Whether what the action is given is usable. -/
def check : Action → Fallible Unit
  | .updateName name => (checkName name).map fun _ => ()
  | .updateDimensions dimensions => (checkDimensions dimensions).map fun _ => ()
  | .updateMaxWeight maxWeight => (checkMaxWeight maxWeight).map fun _ => ()
  | .update name dimensions maxWeight => do
    let _ ← checkName name
    let _ ← checkDimensions dimensions
    let _ ← checkMaxWeight maxWeight
  | .activate | .deactivate | .pullEvents => .ok ()

/-- The action updates a carton to a name, dimensions and a weight. -/
inductive Sets (c : Carton) : Action → Json → Attribute Dimensions → Attribute Weight → Prop
  | name {raw : Json} {s : RawText} (h : checkName raw = .ok s) :
      Sets c (.updateName raw) (.text s) c.dimensions c.maxWeight
  | dimensions {raw : Attribute Dimensions} {d : Dimensions} (h : checkDimensions raw = .ok d) :
      Sets c (.updateDimensions raw) c.name (.known d) c.maxWeight
  | maxWeight {raw : Attribute Weight} {w : Weight} (h : checkMaxWeight raw = .ok w) :
      Sets c (.updateMaxWeight raw) c.name c.dimensions (.known w)
  | all {rawName : Json} {rawDimensions : Attribute Dimensions} {rawWeight : Attribute Weight}
      {s : RawText} {d : Dimensions} {w : Weight} (hs : checkName rawName = .ok s)
      (hd : checkDimensions rawDimensions = .ok d) (hw : checkMaxWeight rawWeight = .ok w) :
      Sets c (.update rawName rawDimensions rawWeight) (.text s) (.known d) (.known w)

/-- What an action with a carton comes to: what it gives back, the carton afterwards, and the change
that took effect, if one did. -/
inductive Comes (c : Carton) : Action → Fallible Yield → Carton → Option Effect → Prop
  /-- An action that fails leaves the carton as it was in all its parts. It fails on what it is
  given. -/
  | refused {a : Action} {f : Failure} (h : a.check = .error f) : Comes c a (.error f) c none
  /-- A carton that has the status already is left as it was. -/
  | settled {a : Action} {note : CartonNote}
      (h : a = .activate ∧ c.status = .active ∨ a = .deactivate ∧ c.status = .inactive) :
      Comes c a (.ok ⟨some note, []⟩) c none
  | activated {note : CartonNote} (time : Timestamp) (h : c.status = .inactive) :
      Comes c .activate (.ok ⟨some note, []⟩) { c with status := .active, updatedAt := time }
        (some (.activated time))
  | deactivated {note : CartonNote} (time : Timestamp) (h : c.status = .active) :
      Comes c .deactivate (.ok ⟨some note, []⟩)
        { c with
          status := .inactive
          updatedAt := time
          pending := c.pending ++ [.cartonDeactivated (.text c.id) time] }
        (some (.deactivated c.id time))
  | updated {a : Action} {note : CartonNote} {name : Json} {dimensions : Attribute Dimensions}
      {maxWeight : Attribute Weight} (time : Timestamp) (h : a.Sets c name dimensions maxWeight)
      {c' : Carton} (hc : c' = { c with name, dimensions, maxWeight, updatedAt := time }) :
      Comes c a (.ok ⟨some note, []⟩)
        { c' with pending := c.pending ++ [.cartonUpdated c'.snapshot] }
        (some (.updated c'.snapshot))
  | pulled : Comes c .pullEvents (.ok ⟨none, c.pending⟩) { c with pending := [] } none

variable {h : Held} {c : Carton} {a : Action}

/-- What an action gives back, and what is held then, when its work is a change as a whole. -/
theorem take_eq {work : Handling CartonNote} {change : Fallible Change}
    (ha : a.work = do return ⟨some (← work), []⟩) (hwork : work.run.run h = h.after change) :
    a.take h = ((h.after change).1.map fun note => ⟨some note, []⟩, (h.after change).2) := by
  have hyield : ∀ note, (pure ⟨some note, []⟩ : Handling Yield).run.run (h.after change).2 =
      (.ok ⟨some note, []⟩, (h.after change).2) := fun _ => rfl
  unfold take
  rw [ha, ExceptT.run_bind, StateT.run_bind, hwork]
  cases change with
  | error f => rfl
  | ok change => exact hyield _

theorem comes_activate (h : Held) :
    ∃ effect, Comes h.carton .activate (activate.take h).1 (activate.take h).2.carton effect := by
  rw [take_eq rfl (Handling.run_activate h), Carton.activate]
  cases hstatus : h.carton.status with
  | active =>
    rw [if_pos (by simp [isActive, hstatus])]
    exact ⟨_, .settled (.inl ⟨rfl, hstatus⟩)⟩
  | inactive =>
    rw [if_neg (by simp [isActive, hstatus])]
    exact ⟨_, .activated _ hstatus⟩

theorem comes_deactivate (h : Held) : ∃ effect,
    Comes h.carton .deactivate (deactivate.take h).1 (deactivate.take h).2.carton effect := by
  rw [take_eq rfl (Handling.run_deactivate h), Carton.deactivate]
  cases hstatus : h.carton.status with
  | active =>
    rw [if_pos (by simp [isActive, hstatus])]
    exact ⟨_, .deactivated _ hstatus⟩
  | inactive =>
    rw [if_neg (by simp [isActive, hstatus])]
    exact ⟨_, .settled (.inr ⟨rfl, hstatus⟩)⟩

/-- An update fails on what it is given, or it sets the parts of the carton and records that. -/
theorem comes_of_update {change : Fallible Change}
    (htake : a.take h = ((h.after change).1.map fun note => ⟨some note, []⟩, (h.after change).2))
    (hchange : (∃ f, a.check = .error f ∧ change = .error f) ∨
      ∃ name dimensions maxWeight note, a.Sets h.carton name dimensions maxWeight ∧
        change = .ok ({ h.carton with name, dimensions, maxWeight }.touch h.supply note)) :
    ∃ effect, Comes h.carton a (a.take h).1 (a.take h).2.carton effect := by
  rw [htake]
  rcases hchange with ⟨f, hf, rfl⟩ | ⟨name, dimensions, maxWeight, note, hsets, rfl⟩
  · exact ⟨none, .refused hf⟩
  · exact ⟨_, .updated h.supply.now.1 hsets rfl⟩

/-- **What every action comes to.** -/
theorem comes_take (a : Action) (h : Held) :
    ∃ effect, Comes h.carton a (a.take h).1 (a.take h).2.carton effect := by
  cases a with
  | activate => exact comes_activate h
  | deactivate => exact comes_deactivate h
  | updateName raw =>
    refine comes_of_update (take_eq (by rfl) (Handling.run_updateName h raw)) ?_
    unfold Carton.updateName
    cases hs : checkName raw with
    | error f => exact .inl ⟨f, by simp [check, hs, Except.map], rfl⟩
    | ok s => exact .inr ⟨_, _, _, _, .name hs, rfl⟩
  | updateDimensions raw =>
    refine comes_of_update (take_eq (by rfl) (Handling.run_updateDimensions h raw)) ?_
    unfold Carton.updateDimensions
    cases hd : checkDimensions raw with
    | error f => exact .inl ⟨f, by simp [check, hd, Except.map], rfl⟩
    | ok d => exact .inr ⟨_, _, _, _, .dimensions hd, rfl⟩
  | updateMaxWeight raw =>
    refine comes_of_update (take_eq (by rfl) (Handling.run_updateMaxWeight h raw)) ?_
    unfold Carton.updateMaxWeight
    cases hw : checkMaxWeight raw with
    | error f => exact .inl ⟨f, by simp [check, hw, Except.map], rfl⟩
    | ok w => exact .inr ⟨_, _, _, _, .maxWeight hw, rfl⟩
  | update rawName rawDimensions rawWeight =>
    refine comes_of_update
      (take_eq (by rfl) (Handling.run_update h rawName rawDimensions rawWeight)) ?_
    unfold Carton.update
    cases hs : checkName rawName with
    | error f => exact .inl ⟨f, by simp [check, hs], rfl⟩
    | ok s =>
      cases hd : checkDimensions rawDimensions with
      | error f => exact .inl ⟨f, by simp [check, hs, hd], rfl⟩
      | ok d =>
        cases hw : checkMaxWeight rawWeight with
        | error f => exact .inl ⟨f, by simp [check, hs, hd, hw], rfl⟩
        | ok w => exact .inr ⟨_, _, _, _, .all hs hd hw, rfl⟩
  | pullEvents => exact ⟨none, .pulled⟩

theorem Comes.eq_of_error {f : Failure} {c' : Carton} {effect : Option Effect}
    (h : a.Comes c (.error f) c' effect) : c' = c := by
  cases h
  rfl

/-- An action that fails leaves the carton as it was, its events included. -/
theorem take_of_error {f : Failure} (hf : (a.take h).1 = .error f) :
    (a.take h).2.carton = h.carton := by
  obtain ⟨effect, hcomes⟩ := comes_take a h
  exact (hf ▸ hcomes).eq_of_error

end Action

/-! ## Actions one after the other -/

/-- The events that were taken away, by the actions that gave them back. -/
def pulledIn (outcomes : List (Fallible Yield)) : List Event :=
  outcomes.flatMap fun
    | .ok y => y.events
    | .error _ => []

/-- What actions with a carton come to, one after the other: what each gives back, the carton
afterwards, and the changes that took effect. -/
inductive History : Carton → List Action → List (Fallible Yield) → Carton → List Effect → Prop
  | nil (c : Carton) : History c [] [] c []
  | cons {c c₁ c' : Carton} {a : Action} {rest : List Action} {outcome : Fallible Yield}
      {outcomes : List (Fallible Yield)} {effect : Option Effect} {effects : List Effect}
      (step : a.Comes c outcome c₁ effect) (run : History c₁ rest outcomes c' effects) :
      History c (a :: rest) (outcome :: outcomes) c' (effect.toList ++ effects)

theorem history_takeAll (actions : List Action) (h : Held) : ∃ effects,
    History h.carton actions (Action.takeAll actions h).1 (Action.takeAll actions h).2.carton
      effects := by
  induction actions generalizing h with
  | nil => exact ⟨[], .nil h.carton⟩
  | cons a rest ih =>
    obtain ⟨effect, hstep⟩ := Action.comes_take a h
    obtain ⟨effects, hrun⟩ := ih (a.take h).2
    exact ⟨_, .cons hstep hrun⟩

/-- The latest of the events that show the carton, if there is one, shows it as it is now, but for
the time. -/
def ShownBy (c : Carton) (events : List Event) : Prop :=
  ∀ s, (events.filterMap Event.snapshot?).getLast? = some s →
    s = { c.snapshot with occurredOn := s.occurredOn }

namespace Action.Comes

variable {c c' : Carton} {a : Action} {outcome : Fallible Yield} {effect : Option Effect}

theorem identity (h : a.Comes c outcome c' effect) : c'.id = c.id ∧ c'.createdAt = c.createdAt := by
  cases h with
  | updated _ _ hc => rw [hc]; exact ⟨rfl, rfl⟩
  | _ => exact ⟨rfl, rfl⟩

/-- No event is lost by an action, and none comes twice. -/
theorem events (h : a.Comes c outcome c' effect) : pulledIn [outcome] ++ c'.pending =
    c.pending ++ effect.toList.filterMap Effect.event? := by
  cases h with
  | refused | settled | activated | deactivated | updated => simp [pulledIn, Effect.event?]
  | pulled => simp [pulledIn]

theorem updatedAt (h : a.Comes c outcome c' effect) :
    c'.updatedAt = (effect.map Effect.time).getD c.updatedAt := by
  cases h <;> rfl

theorem shownBy {events : List Event} (h : a.Comes c outcome c' effect) (hc : c.ShownBy events) :
    c'.ShownBy (events ++ effect.toList.filterMap Effect.event?) := by
  cases h with
  | refused | settled | pulled =>
    rw [Option.toList_none, List.filterMap_nil, List.append_nil]
    exact hc
  | activated time =>
    rw [Option.toList_some, List.filterMap_cons_none rfl, List.filterMap_nil, List.append_nil]
    exact hc
  | deactivated =>
    intro s hs
    have : (events.filterMap Event.snapshot?).getLast? = some s := by
      simpa [Effect.event?, Event.snapshot?] using hs
    exact hc s this
  | updated time hsets hc' =>
    intro s hs
    rw [List.filterMap_append, List.getLast?_append] at hs
    cases hs
    rfl

end Action.Comes

theorem pulledIn_cons (outcome : Fallible Yield) (outcomes : List (Fallible Yield)) :
    pulledIn (outcome :: outcomes) = pulledIn [outcome] ++ pulledIn outcomes := by
  simp [pulledIn]

theorem Effect.occurredOn_of_event {effect : Effect} {e : Event} (h : effect.event? = some e) :
    e.occurredOn? = some effect.time := by
  cases effect <;> cases h <;> rfl

namespace History

variable {c c' : Carton} {actions : List Action} {outcomes : List (Fallible Yield)}
  {effects : List Effect}

theorem identity (h : History c actions outcomes c' effects) :
    c'.id = c.id ∧ c'.createdAt = c.createdAt := by
  induction h with
  | nil c => exact ⟨rfl, rfl⟩
  | cons step _ ih => exact ⟨ih.1.trans step.identity.1, ih.2.trans step.identity.2⟩

theorem events (h : History c actions outcomes c' effects) :
    pulledIn outcomes ++ c'.pending = c.pending ++ effects.filterMap Effect.event? := by
  induction h with
  | nil c => simp [pulledIn]
  | cons step _ ih =>
    rw [pulledIn_cons, List.append_assoc, ih, ← List.append_assoc, step.events,
      List.append_assoc, List.filterMap_append]

theorem updatedAt (h : History c actions outcomes c' effects) :
    c'.updatedAt = (effects.getLast?.map Effect.time).getD c.updatedAt := by
  induction h with
  | nil c => rfl
  | @cons _ _ _ _ _ _ _ effect effects step _ ih =>
    rw [ih, step.updatedAt, List.getLast?_append]
    cases effects.getLast? <;> cases effect <;> rfl

theorem shownBy (h : History c actions outcomes c' effects) {events : List Event}
    (hc : c.ShownBy events) : c'.ShownBy (events ++ effects.filterMap Effect.event?) := by
  induction h generalizing events with
  | nil c => simpa using hc
  | cons step _ ih =>
    rw [List.filterMap_append, ← List.append_assoc]
    exact ih (step.shownBy hc)

/-- The carton was updated when its last event occurred, or it was made active since. -/
theorem time_of_last (h : History c actions outcomes c' effects) {told : List Event} {e : Event}
    (htold : ∀ e, told.getLast? = some e → e.occurredOn? = some c.updatedAt)
    (he : (told ++ effects.filterMap Effect.event?).getLast? = some e) :
    e.occurredOn? = some c'.updatedAt ∨ effects.getLast? = some (.activated c'.updatedAt) := by
  rw [h.updatedAt]
  rcases List.eq_nil_or_concat effects with rfl | ⟨before, effect, rfl⟩
  · exact .inl (htold e (by simpa using he))
  · rw [List.concat_eq_append] at he ⊢
    rw [List.getLast?_concat]
    cases hevent : effect.event? with
    | none =>
      cases effect with
      | activated time => exact .inr rfl
      | deactivated | updated => cases hevent
    | some e' =>
      have : e' = e := by simpa [hevent] using he
      exact .inl (this ▸ Effect.occurredOn_of_event hevent)

end History

/-- A carton as someone gets hold of it, with the events told of it by then: it is made, or it is
brought back. -/
inductive Started : Carton → List Event → Prop
  | created {name : Json} {dimensions : Attribute Dimensions} {maxWeight : Attribute Weight}
      {supply : Supply} {change : Change}
      (h : create name dimensions maxWeight supply = .ok change) :
      Started change.carton [.cartonCreated change.carton.snapshot]
  | restored (id : String) (name : Json) (dimensions : Attribute Dimensions)
      (maxWeight : Attribute Weight) (status : CartonStatus) (createdAt updatedAt : Timestamp) :
      Started (restore id name dimensions maxWeight status createdAt updatedAt) []

namespace Started

variable {c : Carton} {told : List Event}

theorem pending (h : Started c told) : c.pending = told := by
  cases h with
  | created h =>
    simp only [create, bind_eq_ok, pure_eq_ok] at h
    obtain ⟨_, -, _, -, _, -, rfl⟩ := h
    rfl
  | restored => rfl

theorem shownBy (h : Started c told) : c.ShownBy told := by
  intro s hs
  cases h <;> cases hs
  rfl

theorem time_of_last (h : Started c told) {e : Event} (he : told.getLast? = some e) :
    e.occurredOn? = some c.updatedAt := by
  cases h <;> cases he
  rfl

end Started

/-- **The events of a carton are its history.** Whatever is done with a carton that was made or
brought back, an action that fails leaves it as it was, its identity stays, what was pulled and what
is pending is one event for each change that took effect other than an activation, in order, and the
latest of them shows the carton and its time, unless it was made active since. -/
theorem carton_history_exact {c : Carton} {told : List Event} (hstart : Started c told)
    (supply : Supply) (actions : List Action) :
    let (outcomes, h) := Action.takeAll actions ⟨c, supply⟩
    ∃ effects, History c actions outcomes h.carton effects ∧
      (∀ (a : Action) (g : Held) (f : Failure), (a.take g).1 = .error f →
        (a.take g).2.carton = g.carton) ∧
      h.carton.id = c.id ∧ h.carton.createdAt = c.createdAt ∧
      pulledIn outcomes ++ h.carton.pending = told ++ effects.filterMap Effect.event? ∧
      h.carton.ShownBy (pulledIn outcomes ++ h.carton.pending) ∧
      ∀ e, (pulledIn outcomes ++ h.carton.pending).getLast? = some e →
        e.occurredOn? = some h.carton.updatedAt ∨
          effects.getLast? = some (.activated h.carton.updatedAt) := by
  obtain ⟨effects, hrun⟩ := history_takeAll actions ⟨c, supply⟩
  have hevents := hrun.events
  rw [hstart.pending] at hevents
  refine ⟨effects, hrun, fun _ _ _ => Action.take_of_error, hrun.identity.1, hrun.identity.2,
    hevents, ?_, ?_⟩
  · rw [hevents]
    exact hrun.shownBy hstart.shownBy
  · intro e he
    rw [hevents] at he
    exact hrun.time_of_last (fun _ => hstart.time_of_last) he

/-! ## A chest -/

/-- A new chest, with the event of it pending. -/
def chest : Carton :=
  let side : Amount := ⟨⟨false, 2, 0⟩, Eq.refl true⟩
  let chest := restore (Supply.uuid 1) (.text "Chest") (.known ⟨side, side, side, .inches⟩)
    (.known ⟨⟨⟨false, 50, 0⟩, Eq.refl true⟩, .pounds⟩) .active (.ofSeconds 1704067200)
    (.ofSeconds 1704067200)
  { chest with pending := [.cartonCreated chest.snapshot] }

theorem started_chest : Started chest [.cartonCreated chest.snapshot] := by
  have h : create (.text " Chest") chest.dimensions chest.maxWeight .start =
    .ok ⟨chest, ⟨1, 1⟩, .created⟩ := rfl
  exact .created h

/-- The chest is refused a blank name, taken out of use with its events pulled, taken out of use
again, given a new name, and made active. -/
def chestActions : List Action :=
  [.updateName (.text " "), .deactivate, .pullEvents, .deactivate, .updateName (.text "Box"),
    .activate]

/-- Three events tell of the chest, and the activation is later than all of them. -/
theorem carton_history_exact_chest :
    let (outcomes, h) := Action.takeAll chestActions ⟨chest, ⟨1, 1⟩⟩
    ∃ effects, History chest chestActions outcomes h.carton effects ∧
      pulledIn outcomes ++ h.carton.pending =
        .cartonCreated chest.snapshot :: effects.filterMap Effect.event? ∧
      (pulledIn outcomes).length = 2 ∧ h.carton.pending.length = 1 ∧
      effects.getLast? = some (.activated h.carton.updatedAt) := by
  obtain ⟨effects, hrun, -, -, -, hevents, -, htime⟩ :=
    carton_history_exact started_chest ⟨1, 1⟩ chestActions
  refine ⟨effects, hrun, hevents, rfl, rfl, ?_⟩
  obtain h | h := htime _ rfl
  · cases h
  · exact h

end Carton

end Stowage
