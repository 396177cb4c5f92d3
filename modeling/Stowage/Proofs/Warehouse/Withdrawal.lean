import Stowage.Proofs.Warehouse.Saved

/-!
# Taking a carton out of use side by side

Several calls take the same carton out of use, each making its next step whenever it likes, while
others do something else. The calls look at the status of the carton when they fetch it and do not
look again when they write. So each that has found the carton active tells of it
(`withdrawals_told`), and two of them may (`two_calls_tell_twice`). In the end the carton is out of
use, and no call tells of it that has come after the first was done writing.
-/

namespace Stowage

/-! ## What a step publishes -/

namespace Revision

/-- What the next step publishes. -/
def news : Revision → List OutboundEvent
  | .written c => Outbox.outgoing Warehouse.cartonTopic (.text c.id) c.pending
  | _ => []

theorem write_outbox {w w' : Warehouse} {c : Carton} (h : write w c = .ok w') :
    w'.outbox = w.outbox := by
  obtain ⟨row, -, h⟩ := bind_eq_ok.1 h
  rw [← pure_eq_ok.1 h]

/-- The outbox takes what a step publishes, and nothing else. -/
theorem step_outbox (w : Warehouse) (r : Revision) :
    (r.step w).2.outbox = r.news.foldl Outbox.push w.outbox := by
  cases r with
  | written c => exact Outbox.publishAll_outbox _ _ _ _
  | changed c =>
    rw [step]
    split
    next w' hwrite => exact write_outbox hwrite
    next => rfl
  | asked | fetched => rw [step]; split <;> rfl
  | done => rfl

end Revision

/-- Whether an event tells that the carton with an id was taken out of use. -/
def OutboundEvent.withdraws (id : String) (e : OutboundEvent) : Bool :=
  (e.payload.field "type").text? == some "carton.deactivated" &&
    (e.payload.field "cartonId").text? == some id

/-- The event of a carton that was taken out of use tells so. -/
theorem countP_outgoing (topic key : Json) (id : String) (time : Timestamp) :
    (Outbox.outgoing topic key [.cartonDeactivated (.text id) time]).countP
      (OutboundEvent.withdraws id) = 1 := by
  have hevent : OutboundEvent.withdraws id ⟨topic, key,
      .object [("type", .text "carton.deactivated"), ("cartonId", .text id),
        ("occurredOn", .text time.text)]⟩ = true := by
    refine Bool.and_eq_true_iff.2 ⟨rfl, ?_⟩
    exact beq_iff_eq.2 rfl
  exact List.countP_eq_length.2 (List.forall_mem_singleton.2 hevent)

namespace Withdrawal

/-! ## Calls -/

/-- A call to take a carton out of use. -/
structure Call where
  state : Revision
  /-- The status of the carton when it was fetched. -/
  found : Option CartonStatus

namespace Call

/-- The call before its first step. -/
def start (id : String) : Call := ⟨.asked id .deactivate, none⟩

/-- The call after its next step. -/
def next (w : Warehouse) (c : Call) : Call where
  state := (c.state.step w).1
  found :=
    match (c.state.step w).1 with
    | .fetched carton _ => some carton.status
    | _ => c.found

/-- The call is over. -/
def Over (c : Call) : Prop := ∃ outcome, c.state = .done outcome

end Call

/-- A carton that has been taken out of use, with an event of it if it was found active. -/
structure OutOfUse (id : String) (found : Option CartonStatus) (c : Carton) : Prop where
  row : ∃ r, StoredCarton.ofCarton c = .ok r ∧ r.id = id ∧ r.status = .inactive
  pending : c.pending =
    if found = some .active then [.cartonDeactivated (.text id) c.updatedAt] else []

/-- The step of a call that finds a row, and the row afterwards. -/
inductive Turn (id : String) (r : StoredCarton) : Call → Call → StoredCarton → Prop
  | fetched {c : Carton} (hc : r.toCarton = .ok c) :
      Turn id r (.start id) ⟨.fetched c .deactivate, some r.status⟩ r
  | missed {f : Failure} (hf : r.toCarton = .error f) :
      Turn id r (.start id) ⟨.done (.error f), none⟩ r
  | changed {old c : Carton} {found : Option CartonStatus} (hc : OutOfUse id found c) :
      Turn id r ⟨.fetched old .deactivate, found⟩ ⟨.changed c, found⟩ r
  | written {c : Carton} {found : Option CartonStatus} {r' : StoredCarton}
      (hr' : r'.status = .inactive) :
      Turn id r ⟨.changed c, found⟩ ⟨.written c, found⟩ r'
  | told {c : Carton} {found : Option CartonStatus} {outcome : Fallible Carton} :
      Turn id r ⟨.written c, found⟩ ⟨.done outcome, found⟩ r
  | idle {found : Option CartonStatus} {outcome : Fallible Carton} :
      Turn id r ⟨.done outcome, found⟩ ⟨.done outcome, found⟩ r

/-- What is known of a call when the carton is retired, that is out of use, or is not. -/
def Call.Sound (id : String) (retired : Prop) : Call → Prop
  | ⟨.asked i edit, found⟩ => Call.mk (.asked i edit) found = .start id
  | ⟨.fetched c edit, found⟩ => edit = .deactivate ∧ found = some c.status ∧
      (∃ r : StoredCarton, r.id = id ∧ r.toCarton = .ok c) ∧ (found = some .active ∨ retired)
  | ⟨.changed c, found⟩ => OutOfUse id found c ∧ (found = some .active ∨ retired)
  | ⟨.written c, found⟩ => OutOfUse id found c ∧ retired
  | ⟨.done _, _⟩ => retired

variable {id : String} {w : Warehouse} {r r' : StoredCarton} {c c' : Call} {P P' : Prop}

theorem Call.Sound.mono (h : c.Sound id P) (himp : P → P') : c.Sound id P' := by
  obtain ⟨state, found⟩ := c
  cases state with
  | asked => exact h
  | fetched => exact ⟨h.1, h.2.1, h.2.2.1, h.2.2.2.imp_right himp⟩
  | changed => exact ⟨h.1, h.2.imp_right himp⟩
  | written => exact ⟨h.1, himp h.2⟩
  | done => exact himp h

/-- What a fetched carton is changed to. -/
theorem outOfUse_deactivate {carton : Carton} (hid : r.id = id) (hc : r.toCarton = .ok carton)
    (supply : Supply) : OutOfUse id (some carton.status) (carton.deactivate supply).carton := by
  obtain ⟨d, m, -, -, hcarton⟩ := StoredCarton.toCarton_eq_ok.1 hc
  obtain ⟨hpending, -, -⟩ := StoredCarton.state_of_toCarton hc
  have hsame : carton.id = id := by
    rw [hcarton]
    exact hid
  have hname : carton.name.isBroken = false := by
    rw [hcarton]
    exact r.encodable
  have hd : carton.dimensions = .known d := by
    rw [hcarton]
    rfl
  have hm : carton.maxWeight = .known m := by
    rw [hcarton]
    rfl
  obtain ⟨hstatus, hchange⟩ | ⟨hstatus, changed, time, hchanged, hchange⟩ :=
    carton.deactivate_cases hpending supply
  · rw [hchange]
    exact ⟨⟨_, StoredCarton.ofCarton_eq_ok.2 ⟨d, m, hname, hd, hm, rfl⟩, hsame, hstatus⟩,
      by simp [hstatus]⟩
  · rw [hchange]
    refine ⟨?_, by rw [hstatus, if_pos rfl, hchanged, hcarton, ← hid]; rfl⟩
    rw [hchanged]
    exact ⟨_, StoredCarton.ofCarton_eq_ok.2 ⟨d, m, hname, hd, hm, rfl⟩, hsame, rfl⟩

/-- The first step of a call fetches the carton, when it can be fetched. -/
theorem step_start {carton : Carton} (hrow : w.cartons.row? id = some r)
    (hload : r.toCarton = .ok carton) :
    (Call.start id).state.step w = (.fetched carton .deactivate, w) ∧
      (Call.start id).next w = ⟨.fetched carton .deactivate, some r.status⟩ := by
  have hget := Warehouse.getCarton_eq_ok.2 ⟨r, hrow, hload⟩
  have hstatus := (StoredCarton.state_of_toCarton hload).2.1
  simp [Call.next, Call.start, Revision.step, hget, hstatus]

/-- **What a step of a call comes to.** -/
theorem turn_next (hrow : w.cartons.row? id = some r) (h : c.Sound id P) :
    ∃ r', (c.state.step w).2.cartons.row? id = some r' ∧ Turn id r c (c.next w) r' := by
  obtain ⟨state, found⟩ := c
  cases state with
  | asked i edit =>
    obtain ⟨rfl, rfl, rfl⟩ : i = id ∧ edit = .deactivate ∧ found = none := by
      cases h
      exact ⟨rfl, rfl, rfl⟩
    cases hload : r.toCarton with
    | ok carton =>
      obtain ⟨hstep, hnext⟩ := step_start hrow hload
      exact ⟨r, (congrArg (·.2.cartons.row? i) hstep).trans hrow, hnext ▸ Turn.fetched hload⟩
    | error f =>
      have hget : w.getCarton i = .error f := by
        simp [Warehouse.getCarton, CartonTable.find?, hrow, hload, Except.map]
      have hnext : (Call.start i).next w = ⟨.done (.error f), none⟩ := by
        simp [Call.next, Call.start, Revision.step, hget]
      exact ⟨r, by simpa [Revision.step, hget] using hrow, hnext ▸ Turn.missed hload⟩
  | fetched carton edit =>
    obtain ⟨rfl, rfl, ⟨q, hid, hq⟩, -⟩ := h
    exact ⟨r, hrow, .changed (outOfUse_deactivate hid hq w.supply)⟩
  | changed carton =>
    obtain ⟨⟨⟨r', hr', hid, hstatus⟩, -⟩, -⟩ := h
    have hwrite : Revision.write w carton = .ok { w with cartons := w.cartons.put r' } := by
      rw [Revision.write, hr']
      rfl
    refine ⟨r', ?_, ?_⟩
    · simpa [Revision.step, hwrite, hid] using w.cartons.row?_put r'
    · simpa [Call.next, Revision.step, hwrite] using Turn.written hstatus
  | written carton => exact ⟨r, hrow, .told⟩
  | done outcome => exact ⟨r, hrow, .idle⟩

namespace Call

/-- Whether the call has found the carton active. -/
def foundActive (c : Call) : Bool := c.found = some .active

/-- Whether the call has told that the carton is out of use. -/
def hasTold (c : Call) : Bool :=
  match c.state with
  | .done _ => c.foundActive
  | _ => false

end Call

namespace Turn

/-- A row that is out of use stays so. -/
theorem retired (h : Turn id r c c' r') (hr : r.status = .inactive) : r'.status = .inactive := by
  cases h with
  | written hr' => exact hr'
  | _ => exact hr

/-- A row that is written anew is out of use. -/
theorem eq_of_active (h : Turn id r c c' r') (hr' : r'.status = .active) : r' = r := by
  cases h with
  | written hinactive => cases hinactive.symm.trans hr'
  | _ => rfl

theorem sound (h : Turn id r c c' r') (hid : r.id = id) (hsound : c.Sound id (r.status = .inactive))
    (hload : r.status = .active → ∃ carton, r.toCarton = .ok carton) :
    c'.Sound id (r'.status = .inactive) := by
  cases h with
  | fetched hc =>
    have hstatus := (StoredCarton.state_of_toCarton hc).2.1
    refine ⟨rfl, by rw [hstatus], ⟨r, hid, hc⟩, ?_⟩
    cases hr : r.status with
    | active => exact .inl rfl
    | inactive => exact .inr rfl
  | missed hf =>
    change r.status = .inactive
    cases hr : r.status with
    | active =>
      obtain ⟨carton, hc⟩ := hload hr
      cases hf.symm.trans hc
    | inactive => rfl
  | changed hc => exact ⟨hc, hsound.2.2.2⟩
  | written hr' => exact ⟨hsound.1, hr'⟩
  | told => exact hsound.2
  | idle => exact hsound

/-- A row is out of use only when a call has found it active. -/
theorem retires (h : Turn id r c c' r') (hsound : c.Sound id (r.status = .inactive))
    (hr' : r'.status = .inactive) : r.status = .inactive ∨ c'.foundActive = true := by
  cases h with
  | written => exact hsound.2.symm.imp_right fun hfound => decide_eq_true hfound
  | _ => exact .inl hr'

/-- A call that has found the carton active has found it so for good. -/
theorem found_le (h : Turn id r c c' r') :
    (if c.foundActive then 1 else 0) ≤ if c'.foundActive then 1 else 0 := by
  cases h with
  | fetched | missed => exact Nat.zero_le _
  | _ => exact le_rfl

/-- No call finds a carton active that is out of use. -/
theorem foundActive_of_retired (h : Turn id r c c' r') (hr : r.status = .inactive) :
    c'.foundActive = c.foundActive := by
  cases h with
  | fetched => simp [Call.foundActive, Call.start, hr]
  | _ => rfl

/-- A call tells of the carton once, at its end, and only when it has found it active. -/
theorem told_eq (h : Turn id r c c' r') (hsound : c.Sound id P) :
    c.state.news.countP (OutboundEvent.withdraws id) + (if c.hasTold then 1 else 0) =
      if c'.hasTold then 1 else 0 := by
  cases h with
  | @told carton found outcome =>
    have hpending := hsound.1.pending
    by_cases hfound : found = some .active
    · rw [if_pos hfound] at hpending
      simp [Revision.news, hpending, countP_outgoing, Call.hasTold, Call.foundActive, hfound]
    · rw [if_neg hfound] at hpending
      simp [Revision.news, hpending, Call.hasTold, Call.foundActive, hfound, Outbox.outgoing]
  | idle => exact Nat.zero_add _
  | missed | fetched | changed | written => rfl

end Turn

/-! ## Calls side by side -/

/-- Calls that go on side by side in a warehouse, and all that has been published. -/
structure Floor where
  warehouse : Warehouse
  calls : List Call
  published : List OutboundEvent

namespace Floor

/-- So many calls that have not begun. -/
def start (w : Warehouse) (id : String) (count : ℕ) : Floor :=
  ⟨w, List.replicate count (.start id), []⟩

/-- How many calls have found the carton active. -/
def finders (f : Floor) : ℕ := f.calls.countP Call.foundActive

/-- How many events tell that the carton was taken out of use. -/
def withdrawals (f : Floor) (id : String) : ℕ := f.published.countP (OutboundEvent.withdraws id)

/-- The carton is out of use. -/
def Retired (f : Floor) (id : String) : Prop :=
  ∃ r, f.warehouse.cartons.row? id = some r ∧ r.status = .inactive

/-- All calls are over. -/
def Over (f : Floor) : Prop := ∀ c ∈ f.calls, c.Over

/-- What may come about next: a call makes its next step, or something else is done that leaves the
row of the carton alone and does not tell of its being taken out of use. -/
inductive Step (id : String) : Floor → Floor → Prop
  | call {w : Warehouse} {before after : List Call} {c : Call} {published : List OutboundEvent} :
      Step id ⟨w, before ++ c :: after, published⟩
        ⟨(c.state.step w).2, before ++ c.next w :: after, published ++ c.state.news⟩
  | other {w w' : Warehouse} {calls : List Call} {published news : List OutboundEvent}
      (hrow : w'.cartons.row? id = w.cartons.row? id)
      (houtbox : w'.outbox = news.foldl Outbox.push w.outbox)
      (hnews : ∀ e ∈ news, e.withdraws id = false) :
      Step id ⟨w, calls, published⟩ ⟨w', calls, published ++ news⟩

/-- What may come about in the course of time. -/
abbrev Reaches (id : String) : Floor → Floor → Prop := Relation.ReflTransGen (Step id)

/-- What is kept while calls go on: the row of the carton can be fetched unless it is out of use,
and then some call has found it active; and every call at its end has told of the carton if it has
found it active. -/
structure Orderly (f : Floor) (id : String) : Prop where
  row : ∃ r, f.warehouse.cartons.row? id = some r ∧
    (r.status = .active → ∃ carton, r.toCarton = .ok carton)
  sound : ∀ c ∈ f.calls, c.Sound id (f.Retired id)
  told : f.withdrawals id = f.calls.countP Call.hasTold
  found : f.Retired id → 0 < f.finders

variable {f g : Floor}

theorem retired_iff (hrow : f.warehouse.cartons.row? id = some r) :
    f.Retired id ↔ r.status = .inactive := by
  constructor
  · rintro ⟨q, hq, hstatus⟩
    obtain rfl := Option.some.inj (hq.symm.trans hrow)
    exact hstatus
  · exact fun hstatus => ⟨r, hrow, hstatus⟩

theorem orderly_start {count : ℕ} {carton : Carton} (hrow : w.cartons.row? id = some r)
    (hactive : r.status = .active) (hload : r.toCarton = .ok carton) :
    (start w id count).Orderly id := by
  have hretired : ¬ (start w id count).Retired id := by
    rw [retired_iff hrow, hactive]
    exact nofun
  refine ⟨⟨r, hrow, fun _ => ⟨carton, hload⟩⟩, fun c hc => ?_, ?_, fun h => absurd h hretired⟩
  · rw [List.eq_of_mem_replicate hc]
    rfl
  · simp [start, withdrawals, Call.hasTold, Call.start, List.countP_replicate]

/-- A turn of one call among others. -/
theorem Orderly.call {w' : Warehouse} {before after : List Call} {published : List OutboundEvent}
    (h : Orderly ⟨w, before ++ c :: after, published⟩ id) (hrow : w.cartons.row? id = some r)
    (hrow' : w'.cartons.row? id = some r') (hturn : Turn id r c c' r') :
    Orderly ⟨w', before ++ c' :: after, published ++ c.state.news⟩ id := by
  obtain ⟨⟨q, hq, hload⟩, hsound, htold, hfound⟩ := h
  obtain rfl : q = r := Option.some.inj (hq.symm.trans hrow)
  rw [retired_iff hrow] at hsound hfound
  have hc := hsound c (by simp)
  have hretired' := retired_iff (f := ⟨w', before ++ c' :: after, published ++ c.state.news⟩) hrow'
  refine ⟨⟨r', hrow', fun hactive => ?_⟩, ?_, ?_, ?_⟩
  · obtain rfl := hturn.eq_of_active hactive
    exact hload hactive
  · rw [hretired']
    intro d hd
    simp only [List.mem_append, List.mem_cons] at hd
    rcases hd with hd | rfl | hd
    · exact (hsound d (by simp [hd])).mono hturn.retired
    · exact hturn.sound (CartonTable.id_of_row? hrow) hc hload
    · exact (hsound d (by simp [hd])).mono hturn.retired
  · have htold' := hturn.told_eq hc
    simp only [withdrawals, List.countP_append, List.countP_cons] at htold ⊢
    omega
  · rw [hretired']
    intro hr'
    simp only [finders, List.countP_append, List.countP_cons] at hfound ⊢
    rcases hturn.retires hc hr' with hr | hfound'
    · have hpos := hfound hr
      have hle := hturn.found_le
      omega
    · rw [if_pos hfound']
      omega

/-- **Every step keeps the floor in order.** -/
theorem Orderly.step (h : f.Orderly id) (hstep : Step id f g) : g.Orderly id := by
  cases hstep with
  | @call w before after c published =>
    obtain ⟨r, hrow, -⟩ := h.row
    obtain ⟨r', hrow', hturn⟩ := turn_next hrow (h.sound c (by simp))
    exact h.call hrow hrow' hturn
  | @other w w' calls published news hrow' houtbox hnews =>
    have hretired :
        Retired ⟨w', calls, published ++ news⟩ id ↔ Retired ⟨w, calls, published⟩ id := by
      simp only [Retired, hrow']
    have hnone : news.countP (OutboundEvent.withdraws id) = 0 :=
      List.countP_eq_zero.2 fun e he => by simp [hnews e he]
    refine ⟨by simpa only [hrow'] using h.row, by simpa only [hretired] using h.sound, ?_,
      fun hr => h.found (hretired.1 hr)⟩
    simpa [withdrawals, hnone] using h.told

theorem Reaches.orderly (h : Reaches id f g) (hf : f.Orderly id) : g.Orderly id := by
  induction h with
  | refl => exact hf
  | tail _ hstep ih => exact ih.step hstep

/-! ## Who finds the carton active -/

/-- Once the carton is out of use it stays so, and no more calls find it active. -/
theorem Step.finders_of_retired (hf : f.Orderly id) (hstep : Step id f g)
    (hretired : f.Retired id) :
    g.Retired id ∧ g.finders = f.finders := by
  cases hstep with
  | @call w before after c published =>
    obtain ⟨r, hrow, hr⟩ := hretired
    obtain ⟨r', hrow', hturn⟩ := turn_next hrow (hf.sound c (by simp))
    refine ⟨⟨r', hrow', hturn.retired hr⟩, ?_⟩
    simp only [finders, List.countP_append, List.countP_cons, hturn.foundActive_of_retired hr]
  | other hrow' =>
    obtain ⟨r, hrow, hr⟩ := hretired
    exact ⟨⟨r, hrow'.trans hrow, hr⟩, rfl⟩

theorem Reaches.finders_of_retired (hf : f.Orderly id) (h : Reaches id f g)
    (hretired : f.Retired id) : g.Retired id ∧ g.finders = f.finders := by
  induction h with
  | refl => exact ⟨hretired, rfl⟩
  | tail hreach hstep ih =>
    obtain ⟨hr, hfinders⟩ := hstep.finders_of_retired (Reaches.orderly hreach hf) ih.1
    exact ⟨hr, hfinders.trans ih.2⟩

/-- Calls that have found the carton active are counted for good. -/
theorem Step.finders_le (hf : f.Orderly id) (hstep : Step id f g) : f.finders ≤ g.finders := by
  cases hstep with
  | @call w before after c published =>
    obtain ⟨r, (hrow : w.cartons.row? id = some r), -⟩ := hf.row
    obtain ⟨r', -, hturn⟩ := turn_next hrow (hf.sound c (by simp))
    have hle := hturn.found_le
    simp only [finders, List.countP_append, List.countP_cons]
    omega
  | other => exact le_rfl

theorem Reaches.finders_le (hf : f.Orderly id) (h : Reaches id f g) : f.finders ≤ g.finders := by
  induction h with
  | refl => exact le_rfl
  | tail hreach hstep ih => exact ih.trans (hstep.finders_le (Reaches.orderly hreach hf))

theorem Reaches.outbox_eq (h : Reaches id f g) (hf : f.published = []) :
    g.warehouse.outbox = g.published.foldl Outbox.push f.warehouse.outbox := by
  induction h with
  | refl => rw [hf]; rfl
  | tail _ hstep ih =>
    cases hstep with
    | call => rw [Revision.step_outbox, List.foldl_append, ← ih]
    | other hrow houtbox => rw [houtbox, List.foldl_append, ← ih]

/-! ## At the end -/

/-- A call that is not over gets nearer to its end by its next step. -/
theorem left_next_lt (w : Warehouse) (hc : ¬ c.Over) : (c.next w).state.left < c.state.left := by
  refine Revision.left_step_lt w c.state ?_
  cases hstate : c.state with
  | done outcome => exact absurd ⟨outcome, hstate⟩ hc
  | _ => rfl

/-- From every floor all calls may come to an end. -/
theorem exists_over (id : String) (f : Floor) : ∃ g, Reaches id f g ∧ g.Over := by
  induction hleft : (f.calls.map (·.state.left)).sum using Nat.strong_induction_on
    generalizing f with
  | _ left ih =>
    by_cases hover : f.Over
    · exact ⟨f, .refl, hover⟩
    · obtain ⟨w, calls, published⟩ := f
      simp only [Over, not_forall] at hover
      obtain ⟨c, hc, hstate⟩ := hover
      obtain ⟨before, after, rfl⟩ := List.append_of_mem hc
      have hlt := left_next_lt w hstate
      obtain ⟨g, hg, hover⟩ := ih _ (by
        simp only [List.map_append, List.map_cons, List.sum_append, List.sum_cons] at hleft ⊢
        omega) ⟨(c.state.step w).2, before ++ c.next w :: after, published ++ c.state.news⟩ rfl
      exact ⟨g, .head .call hg, hover⟩

/-- When all calls are over, the carton is out of use, if there was a call, and each call that has
found it active has told of it. -/
theorem Orderly.of_over (h : f.Orderly id) (hover : f.Over) :
    (f.calls ≠ [] → f.Retired id) ∧ f.withdrawals id = f.finders := by
  constructor
  · intro hne
    obtain ⟨⟨state, found⟩, hc⟩ := List.exists_mem_of_ne_nil _ hne
    obtain ⟨outcome, rfl : state = .done outcome⟩ := hover _ hc
    exact h.sound _ hc
  · rw [h.told]
    refine List.countP_congr fun c hc => ?_
    obtain ⟨outcome, hstate⟩ := hover c hc
    rw [Call.hasTold, hstate]

theorem Step.calls_length (hstep : Step id f g) : g.calls.length = f.calls.length := by
  cases hstep with
  | call => simp
  | other => rfl

theorem Reaches.calls_length (h : Reaches id f g) : g.calls.length = f.calls.length := by
  induction h with
  | refl => rfl
  | tail _ hstep ih => exact hstep.calls_length.trans ih

end Floor

open Withdrawal.Floor

variable {w : Warehouse} {id : String} {r : StoredCarton} {carton : Carton} {now : Floor}

/-- **Each call that finds a carton active tells that it is out of use.** When calls to take an
active carton out of use are over, whatever the order of their steps, the carton is out of use, and
as many events tell of that as calls had found it active: at least one, and no more than had fetched
it before the first of them wrote it. -/
theorem withdrawals_told {count : ℕ} (hrow : w.cartons.row? id = some r)
    (hactive : r.status = .active) (hload : r.toCarton = .ok carton) (hcount : 1 ≤ count)
    (h : Reaches id (.start w id count) now) (hover : now.Over) :
    now.Retired id ∧ 1 ≤ now.withdrawals id ∧ now.withdrawals id = now.finders ∧
      (∀ between, Reaches id (.start w id count) between → Reaches id between now →
        between.Retired id → now.withdrawals id = between.finders) ∧
      now.warehouse.outbox = now.published.foldl Outbox.push w.outbox := by
  have hstart : (Floor.start w id count).Orderly id := orderly_start hrow hactive hload
  have horderly := h.orderly hstart
  obtain ⟨hretired, htold⟩ := horderly.of_over hover
  have hcalls : now.calls ≠ [] := by
    rw [← List.length_pos_iff, h.calls_length]
    simpa [Floor.start, Nat.pos_iff_ne_zero, Nat.one_le_iff_ne_zero] using hcount
  refine ⟨hretired hcalls, ?_, htold, fun between hbefore hafter hbetween => ?_, h.outbox_eq rfl⟩
  · rw [htold]
    exact horderly.found (hretired hcalls)
  · rw [htold]
    exact (hafter.finders_of_retired (hbefore.orderly hstart) hbetween).2

/-- **Two calls may both tell.** They do when each fetches the carton before the other writes. -/
theorem two_calls_tell_twice (hrow : w.cartons.row? id = some r) (hactive : r.status = .active)
    (hload : r.toCarton = .ok carton) :
    ∃ now, Reaches id (.start w id 2) now ∧ now.Over ∧ now.withdrawals id = 2 := by
  obtain ⟨hstep, hnext⟩ := step_start hrow hload
  let fetched : Call := ⟨.fetched carton .deactivate, some r.status⟩
  have hfirst : Step id (.start w id 2) ⟨w, [fetched, .start id], []⟩ := by
    have h := @Step.call id w [] [.start id] (.start id) []
    rwa [hstep, hnext] at h
  have hsecond : Step id ⟨w, [fetched, .start id], []⟩ ⟨w, [fetched, fetched], []⟩ := by
    have h := @Step.call id w [fetched] [] (.start id) []
    rwa [hstep, hnext] at h
  have hboth : Reaches id (.start w id 2) ⟨w, [fetched, fetched], []⟩ :=
    .tail (.single hfirst) hsecond
  obtain ⟨now, hnow, hover⟩ := exists_over id ⟨w, [fetched, fetched], []⟩
  have hstart : (Floor.start w id 2).Orderly id := orderly_start hrow hactive hload
  have hreach : Reaches id (.start w id 2) now := hboth.trans hnow
  have htold := ((hreach.orderly hstart).of_over hover).2
  have hle := hnow.finders_le (hboth.orderly hstart)
  have hge : now.finders ≤ now.calls.length := List.countP_le_length
  rw [hnow.calls_length] at hge
  have hfetched : (Floor.mk w [fetched, fetched] []).finders = 2 := by
    simp [finders, fetched, Call.foundActive, hactive]
  rw [hfetched] at hle
  exact ⟨now, hreach, hover, htold.trans (le_antisymm hge hle)⟩

/-! ## A crate and a speck -/

/-- A warehouse with a single row. -/
def storing (r : StoredCarton) : Warehouse := { Warehouse.empty with cartons := ⟨[r]⟩ }

theorem row?_storing (r : StoredCarton) : (storing r).cartons.row? r.id = some r := by
  simp [storing, CartonTable.row?]

/-- The crate as it is stored. -/
def storedCrate : StoredCarton :=
  { storedSpeck with
    name := .text "Crate"
    length := crateSide.toBinary
    width := crateSide.toBinary
    height := crateSide.toBinary
    encodable := rfl }

theorem fetchable_storedCrate : storedCrate.Fetchable := by
  have hside : crateSide.InRange := by
    norm_num [crateSide, Amount.InRange, Decimal.toRat, Decimal.signed, Decimal.magnitude]
  obtain ⟨hdimensions, hweight⟩ := @inRange_createCube "Crate" crateSide hside
  exact StoredCarton.fetchable_ofCarton (c := firstCube "Crate" crateSide)
    ⟨⟨"Crate", rfl⟩, ⟨_, rfl, hdimensions _ rfl⟩, _, rfl, hweight _ rfl⟩ rfl

/-- Three calls take the crate out of use and tell of it. -/
theorem withdrawals_told_crate : ∃ now,
    Reaches storedCrate.id (.start (storing storedCrate) storedCrate.id 3) now ∧ now.Over ∧
      now.Retired storedCrate.id ∧ 1 ≤ now.withdrawals storedCrate.id := by
  obtain ⟨carton, hload, -⟩ := fetchable_storedCrate
  obtain ⟨now, hreach, hover⟩ := exists_over storedCrate.id
    (.start (storing storedCrate) storedCrate.id 3)
  have htold := withdrawals_told (row?_storing storedCrate) rfl hload (by decide) hreach hover
  exact ⟨now, hreach, hover, htold.1, htold.2.1⟩

/-- **Twice or not at all.** Two calls may tell twice of the crate, and one that comes to the speck
fails and leaves it in use. -/
theorem crate_withdrawn_twice :
    (∃ now, Reaches storedCrate.id (.start (storing storedCrate) storedCrate.id 2) now ∧ now.Over ∧
      now.withdrawals storedCrate.id = 2) ∧
    ∃ now, Reaches storedSpeck.id (.start (storing storedSpeck) storedSpeck.id 1) now ∧ now.Over ∧
      now.withdrawals storedSpeck.id = 0 ∧ ¬ now.Retired storedSpeck.id := by
  obtain ⟨carton, hload, -⟩ := fetchable_storedCrate
  refine ⟨two_calls_tell_twice (row?_storing storedCrate) rfl hload, ?_⟩
  have hget : (storing storedSpeck).getCarton storedSpeck.id =
      .error (.domain (.notPositive .length)) := by
    simp [Warehouse.getCarton, CartonTable.find?, row?_storing, toCarton_storedSpeck, Except.map]
  have hstep := @Step.call storedSpeck.id (storing storedSpeck) [] [] (.start storedSpeck.id) []
  refine ⟨_, .single hstep, ?_, rfl, ?_⟩
  · intro c hc
    rw [List.mem_singleton.1 hc]
    exact ⟨.error (.domain (.notPositive .length)),
      by simp [Call.next, Call.start, Revision.step, hget]⟩
  · have hrow : ((Call.start storedSpeck.id).state.step (storing storedSpeck)).2.cartons.row?
        storedSpeck.id = some storedSpeck := by
      simp [Call.start, Revision.step, hget, row?_storing]
    rw [Floor.retired_iff hrow]
    intro hretired
    cases hretired

end Withdrawal

end Stowage
