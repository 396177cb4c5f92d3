import Stowage.Proofs.Event.Outbox
import Stowage.Proofs.Warehouse.Revision

/-!
# What is told of cartons

Cartons are created, updated, activated and deactivated, and others are told of it. A call that
fails changes nothing; one that succeeds writes a single row, and the event that it publishes, if
any, shows that row (`CartonCall.tells`). So the events on the topic of cartons are those of the
calls that succeeded, one after the other (`carton_news_exact`).
-/

namespace Stowage

/-! ## Rows and events -/

namespace StoredCarton

/-- The event that shows a row. -/
def announcement (kind : String) (r : StoredCarton) : OutboundEvent where
  topic := Warehouse.cartonTopic
  key := .text r.id
  payload := .object [("type", .text kind), ("cartonId", .text r.id), ("name", r.name),
    ("dimensions", .object [("length", .float r.length), ("width", .float r.width),
      ("height", .float r.height), ("unit", .text r.lengthUnit.name)]),
    ("maxWeight", .object [("value", .float r.maxWeight), ("unit", .text r.weightUnit.name)]),
    ("occurredOn", .text r.updatedAt.text)]

/-- The event that tells that the carton of a row was taken out of use. -/
def withdrawal (r : StoredCarton) : OutboundEvent where
  topic := Warehouse.cartonTopic
  key := .text r.id
  payload := .object [("type", .text "carton.deactivated"), ("cartonId", .text r.id),
    ("occurredOn", .text r.updatedAt.text)]

end StoredCarton

namespace Carton

variable {c : Carton} {r : StoredCarton}

/-- The pending events of a carton on their way out. -/
def outbound (c : Carton) : Fallible (List OutboundEvent) :=
  c.pending.mapM fun e => e.payload.map fun payload =>
    ⟨Warehouse.cartonTopic, .text c.id, payload⟩

/-- What an event shows of a carton is its row. -/
theorem snapshotPayload_eq (h : StoredCarton.ofCarton c = .ok r) (kind : String) :
    Event.snapshotPayload kind c.snapshot = .ok (r.announcement kind).payload := by
  obtain ⟨d, m, _, hd, hm, rfl⟩ := StoredCarton.ofCarton_eq_ok.1 h
  simp [Event.snapshotPayload, snapshot, hd, hm, Attribute.get, StoredCarton.announcement,
    Dimensions.toJson, Weight.toJson]

theorem outbound_single {e : Event} {payload : Json} (h : e.payload = .ok payload) :
    outbound { c with pending := [e] } = .ok [⟨Warehouse.cartonTopic, .text c.id, payload⟩] := by
  simp [outbound, h, Except.map]

theorem outbound_created (h : StoredCarton.ofCarton c = .ok r) :
    outbound { c with pending := [.cartonCreated c.snapshot] } =
      .ok [r.announcement "carton.created"] := by
  have hpayload : (Event.cartonCreated c.snapshot).payload = _ :=
    snapshotPayload_eq h "carton.created"
  rw [outbound_single hpayload, ← (StoredCarton.state_of_ofCarton h).1]
  rfl

theorem outbound_updated (h : StoredCarton.ofCarton c = .ok r) :
    outbound { c with pending := [.cartonUpdated c.snapshot] } =
      .ok [r.announcement "carton.updated"] := by
  have hpayload : (Event.cartonUpdated c.snapshot).payload = _ :=
    snapshotPayload_eq h "carton.updated"
  rw [outbound_single hpayload, ← (StoredCarton.state_of_ofCarton h).1]
  rfl

theorem outbound_deactivated (h : StoredCarton.ofCarton c = .ok r) :
    outbound { c with pending := [.cartonDeactivated (.text c.id) c.updatedAt] } =
      .ok [r.withdrawal] := by
  refine (outbound_single rfl).trans ?_
  obtain ⟨d, m, _, -, -, rfl⟩ := StoredCarton.ofCarton_eq_ok.1 h
  rfl

theorem outbound_none (hpending : c.pending = []) : c.outbound = .ok [] := by
  simp [outbound, hpending]

end Carton

/-! ## Changes -/

namespace Carton

variable {c : Carton} {name : Json} {dimensions : Attribute Dimensions}
  {maxWeight : Attribute Weight} {supply : Supply} {change : Change}

theorem create_eq_ok (h : create name dimensions maxWeight supply = .ok change) :
    ∃ s d m id time c, checkName name = .ok s ∧ dimensions = .known d ∧ maxWeight = .known m ∧
      c = restore id (.text s) (.known d) (.known m) .active time time ∧
      change.carton = { c with pending := [.cartonCreated c.snapshot] } := by
  obtain ⟨s, hs, h⟩ := bind_eq_ok.1 h
  obtain ⟨d, hd, h⟩ := bind_eq_ok.1 h
  obtain ⟨m, hm, h⟩ := bind_eq_ok.1 h
  obtain rfl := pure_eq_ok.1 h
  exact ⟨s, d, m, _, _, _, hs, known_of_checkDimensions hd, known_of_checkMaxWeight hm, rfl, rfl⟩

theorem update_eq_ok (hpending : c.pending = [])
    (h : c.update name dimensions maxWeight supply = .ok change) :
    ∃ s d m time c', checkName name = .ok s ∧ dimensions = .known d ∧ maxWeight = .known m ∧
      c' = restore c.id (.text s) (.known d) (.known m) c.status c.createdAt time ∧
      change.carton = { c' with pending := [.cartonUpdated c'.snapshot] } := by
  obtain ⟨s, hs, h⟩ := bind_eq_ok.1 h
  obtain ⟨d, hd, h⟩ := bind_eq_ok.1 h
  obtain ⟨m, hm, h⟩ := bind_eq_ok.1 h
  obtain rfl := pure_eq_ok.1 h
  refine ⟨s, d, m, supply.now.1, _, hs, known_of_checkDimensions hd, known_of_checkMaxWeight hm,
    rfl, ?_⟩
  rw [touch, hpending]
  rfl

theorem isActive_iff : c.isActive = true ↔ c.status = .active := beq_iff_eq

theorem isActive_eq_false_iff : c.isActive = false ↔ c.status = .inactive := by
  unfold isActive
  cases c.status <;> simp

theorem activate_cases (hpending : c.pending = []) (supply : Supply) :
    (c.status = .active ∧ (c.activate supply).carton = { c with pending := [] }) ∨
      (c.status = .inactive ∧ ∃ c' time, c' = { c with status := .active, updatedAt := time } ∧
        (c.activate supply).carton = { c' with pending := [] }) := by
  unfold activate
  cases hactive : c.isActive with
  | true => exact .inl ⟨isActive_iff.1 hactive, by rw [← hpending]; rfl⟩
  | false =>
    exact .inr ⟨isActive_eq_false_iff.1 hactive, _, supply.now.1, rfl, by rw [← hpending]; rfl⟩

theorem deactivate_cases (hpending : c.pending = []) (supply : Supply) :
    (c.status = .inactive ∧ (c.deactivate supply).carton = { c with pending := [] }) ∨
      (c.status = .active ∧ ∃ c' time, c' = { c with status := .inactive, updatedAt := time } ∧
        (c.deactivate supply).carton =
          { c' with pending := [.cartonDeactivated (.text c'.id) c'.updatedAt] }) := by
  unfold deactivate
  cases hactive : c.isActive with
  | false => exact .inl ⟨isActive_eq_false_iff.1 hactive, by rw [← hpending]; rfl⟩
  | true =>
    exact .inr ⟨isActive_iff.1 hactive, _, supply.now.1, rfl, by rw [hpending]; rfl⟩

end Carton

/-! ## Revisions -/

/-- The warehouse with a row written and events published. -/
def Warehouse.written (w : Warehouse) (r : StoredCarton) (supply : Supply)
    (news : List OutboundEvent) : Warehouse :=
  { w with
    cartons := w.cartons.put r
    outbox := news.foldl Outbox.push w.outbox
    supply := supply }

namespace Revision

variable {w : Warehouse} {c : Carton} {r : StoredCarton} {events : List Event}
  {out : List OutboundEvent}

/-- A revision that is about to write writes one row and publishes the pending events. -/
theorem run_changed_eq (supply : Supply) (hrow : StoredCarton.ofCarton c = .ok r)
    (hpending : c.pending = []) (hout : Carton.outbound { c with pending := events } = .ok out) :
    run { w with supply } (.changed { c with pending := events }) =
      (.ok c, w.written r supply out) := by
  have hwrite : write { w with supply } { c with pending := events } =
      .ok { w with cartons := w.cartons.put r, supply := supply } := by
    change (StoredCarton.ofCarton c >>= fun row => _) = _
    rw [hrow]
    rfl
  rw [run_changed hwrite, publish, Carton.pullEvents]
  simp only [Outbox.publishAll_eq hout, ← hpending]
  rfl

/-- A revision that is about to write a name without octets breaks off. -/
theorem run_changed_of_broken (supply : Supply) {d : Dimensions} {m : Weight}
    (hd : c.dimensions = .known d) (hm : c.maxWeight = .known m) (hname : c.name.isBroken = true) :
    run { w with supply } (.changed { c with pending := events }) =
      (.error .unencodable, { w with supply }) := by
  have hrow : StoredCarton.ofCarton { c with pending := events } = .error .unencodable := by
    rw [StoredCarton.ofCarton, hd, hm]
    exact dif_neg (by simp [hname])
  rw [run_step _ _ rfl, step, write, hrow]
  exact run_done _ _

end Revision

namespace Warehouse

variable {w : Warehouse} {id : String} {edit : CartonEdit}

theorem getCarton_eq_ok {c : Carton} : w.getCarton id = .ok c ↔
    ∃ r, w.cartons.row? id = some r ∧ r.toCarton = .ok c := by
  rw [getCarton, CartonTable.find?]
  cases w.cartons.row? id with
  | none => simp [Fallible.refuse]
  | some r => cases hr : r.toCarton <;> simp [hr, Except.map]

/-- A revision fails and leaves everything as it was, or it fetches the carton and changes it. -/
theorem revise_cases (w : Warehouse) (id : String) (edit : CartonEdit) :
    (∃ f, w.revise id edit = (.error f, w)) ∨
      ∃ r c change, w.cartons.row? id = some r ∧ r.toCarton = .ok c ∧
        edit c w.supply = .ok change ∧
        w.revise id edit =
          Revision.run { w with supply := change.supply } (.changed change.carton) := by
  rw [revise, Revision.run_step _ _ rfl, Revision.step]
  cases hget : w.getCarton id with
  | error f => exact .inl ⟨f, Revision.run_done _ _⟩
  | ok c =>
    obtain ⟨r, hrow, hr⟩ := getCarton_eq_ok.1 hget
    dsimp only
    rw [Revision.run_step _ _ rfl, Revision.step]
    cases hedit : edit c w.supply with
    | error f => exact .inl ⟨f, Revision.run_done _ _⟩
    | ok change => exact .inr ⟨r, c, change, hrow, hr, hedit, rfl⟩

end Warehouse

/-! ## Calls -/

namespace CartonCall

/-- What a call in a warehouse comes to: its outcome, the warehouse afterwards and what is told of
it. A call that succeeds gives the carton of which it has written the row. -/
inductive Tells (w : Warehouse) :
    CartonCall → Fallible Carton → Warehouse → List OutboundEvent → Prop
  /-- A call that fails changes nothing and tells nothing. -/
  | failed {call : CartonCall} {f : Failure} : Tells w call (.error f) w []
  /-- A carton that gets a name without octets is not written. An id or a time has been taken. -/
  | unwritten {call : CartonCall} {name : Json} {s : BrokenText} {supply : Supply}
      (hname : Carton.checkName name = .ok (.broken s))
      (hcall : (∃ d m, call = .create name d m) ∨ ∃ id d m, call = .update id name d m) :
      Tells w call (.error .unencodable) { w with supply } []
  /-- A new carton is told of with all that was written of it. -/
  | created {name : Json} {s : String} {d : Dimensions} {m : Weight} {c : Carton}
      {r : StoredCarton} {supply : Supply} (hname : Carton.checkName name = .ok s)
      (hc : c = Carton.restore c.id (.text s) (.known d) (.known m) .active c.createdAt c.createdAt)
      (hrow : StoredCarton.ofCarton c = .ok r) :
      Tells w (.create name (.known d) (.known m)) (.ok c)
        (w.written r supply [r.announcement "carton.created"]) [r.announcement "carton.created"]
  /-- An update is told of with all that was written. -/
  | updated {id : String} {name : Json} {s : String} {d : Dimensions} {m : Weight} {c : Carton}
      {before r : StoredCarton} {supply : Supply} (hbefore : w.cartons.row? id = some before)
      (hname : Carton.checkName name = .ok s)
      (hc : c = Carton.restore id (.text s) (.known d) (.known m) before.status before.createdAt
        c.updatedAt)
      (hrow : StoredCarton.ofCarton c = .ok r) :
      Tells w (.update id name (.known d) (.known m)) (.ok c)
        (w.written r supply [r.announcement "carton.updated"]) [r.announcement "carton.updated"]
  /-- That an active carton is taken out of use is told of. -/
  | deactivated {id : String} {c old : Carton} {before r : StoredCarton} {supply : Supply}
      (hbefore : w.cartons.row? id = some before) (hactive : before.status = .active)
      (hold : before.toCarton = .ok old)
      (hc : c = { old with status := .inactive, updatedAt := c.updatedAt })
      (hrow : StoredCarton.ofCarton c = .ok r) (hid : r.id = id) (hstatus : r.status = .inactive) :
      Tells w (.deactivate id) (.ok c) (w.written r supply [r.withdrawal]) [r.withdrawal]
  /-- That a carton is made active again is not told of. -/
  | activated {id : String} {c old : Carton} {before r : StoredCarton} {supply : Supply}
      (hbefore : w.cartons.row? id = some before) (hinactive : before.status = .inactive)
      (hold : before.toCarton = .ok old)
      (hc : c = { old with status := .active, updatedAt := c.updatedAt })
      (hrow : StoredCarton.ofCarton c = .ok r) (hid : r.id = id) (hstatus : r.status = .active) :
      Tells w (.activate id) (.ok c) (w.written r supply []) []
  /-- A carton that has the status already keeps it, and the time of its last change. -/
  | settled {id : String} {call : CartonCall} {c : Carton} {before r : StoredCarton}
      {supply : Supply} (hbefore : w.cartons.row? id = some before)
      (hcall : call = .activate id ∧ before.status = .active ∨
        call = .deactivate id ∧ before.status = .inactive)
      (hold : before.toCarton = .ok c) (hrow : StoredCarton.ofCarton c = .ok r) (hid : r.id = id)
      (hstatus : r.status = before.status) (hupdated : r.updatedAt = before.updatedAt) :
      Tells w call (.ok c) (w.written r supply []) []

variable {w : Warehouse}

theorem tells_create (w : Warehouse) (name : Json) (dimensions : Attribute Dimensions)
    (maxWeight : Attribute Weight) : ∃ news,
      Tells w (.create name dimensions maxWeight) (w.createCarton name dimensions maxWeight).1
        (w.createCarton name dimensions maxWeight).2 news := by
  unfold Warehouse.createCarton
  cases hcreate : Carton.create name dimensions maxWeight w.supply with
  | error f => exact ⟨[], .failed⟩
  | ok change =>
    obtain ⟨s, d, m, id, time, c, hname, rfl, rfl, hc, hchange⟩ := Carton.create_eq_ok hcreate
    dsimp only
    rw [hchange]
    cases s with
    | broken s =>
      rw [Revision.run_changed_of_broken _ (by rw [hc]; rfl) (by rw [hc]; rfl) (by rw [hc]; rfl)]
      exact ⟨[], .unwritten hname (.inl ⟨_, _, rfl⟩)⟩
    | whole s =>
      obtain ⟨r, hrow⟩ := StoredCarton.exists_ofCarton (c := c) (by rw [hc]; rfl) (by rw [hc]; rfl)
        (by rw [hc]; rfl)
      rw [Revision.run_changed_eq _ hrow (by rw [hc]; rfl) (Carton.outbound_created hrow)]
      exact ⟨_, .created hname (by rw [hc]; rfl) hrow⟩

theorem tells_update (w : Warehouse) (id : String) (name : Json)
    (dimensions : Attribute Dimensions) (maxWeight : Attribute Weight) : ∃ news,
      Tells w (.update id name dimensions maxWeight)
        (w.revise id (.update name dimensions maxWeight)).1
        (w.revise id (.update name dimensions maxWeight)).2 news := by
  obtain ⟨f, h⟩ | ⟨before, old, change, hbefore, hold, hupdate, h⟩ :=
    w.revise_cases id (.update name dimensions maxWeight)
  · rw [h]
    exact ⟨[], .failed⟩
  obtain rfl := CartonTable.id_of_row? hbefore
  obtain ⟨_, _, -, -, rfl⟩ := StoredCarton.toCarton_eq_ok.1 hold
  obtain ⟨s, d, m, time, c, hname, rfl, rfl, hc, hchange⟩ := Carton.update_eq_ok rfl hupdate
  rw [h, hchange]
  cases s with
  | broken s =>
    rw [Revision.run_changed_of_broken _ (by rw [hc]; rfl) (by rw [hc]; rfl) (by rw [hc]; rfl)]
    exact ⟨[], .unwritten hname (.inr ⟨_, _, _, rfl⟩)⟩
  | whole s =>
    obtain ⟨r, hrow⟩ := StoredCarton.exists_ofCarton (c := c) (by rw [hc]; rfl) (by rw [hc]; rfl)
      (by rw [hc]; rfl)
    rw [Revision.run_changed_eq _ hrow (by rw [hc]; rfl) (Carton.outbound_updated hrow)]
    exact ⟨_, .updated hbefore hname (by rw [hc]; rfl) hrow⟩

/-- A fetched carton is written with a status and a time, and its events are published. -/
theorem run_status {id : String} {before : StoredCarton} {old c : Carton} {status : CartonStatus}
    {time : Timestamp} (hbefore : w.cartons.row? id = some before)
    (hold : before.toCarton = .ok old)
    (hc : c = { old with status := status, updatedAt := time }) (supply : Supply) :
    ∃ r, StoredCarton.ofCarton c = .ok r ∧ r.id = id ∧ r.status = status ∧ r.updatedAt = time ∧
      ∀ events out, Carton.outbound { c with pending := events } = .ok out →
        Revision.run { w with supply } (.changed { c with pending := events }) =
          (.ok c, w.written r supply out) := by
  obtain rfl := CartonTable.id_of_row? hbefore
  obtain ⟨d, m, -, -, hknown⟩ := StoredCarton.toCarton_eq_ok.1 hold
  obtain ⟨r, hrow⟩ := StoredCarton.exists_ofCarton (c := c) (by rw [hc, hknown]; rfl)
    (by rw [hc, hknown]; rfl) (by rw [hc, hknown]; exact before.encodable)
  obtain ⟨hid, -, hstatus, -, htime⟩ := StoredCarton.state_of_ofCarton hrow
  rw [hc] at hstatus htime
  refine ⟨r, hrow, hid.trans (by rw [hc, hknown]; rfl), hstatus, htime, fun events out hout => ?_⟩
  exact Revision.run_changed_eq supply hrow (by rw [hc, hknown]; rfl) hout

theorem tells_activate (w : Warehouse) (id : String) : ∃ news,
    Tells w (.activate id) (w.revise id .activate).1 (w.revise id .activate).2 news := by
  obtain ⟨f, h⟩ | ⟨before, old, change, hbefore, hold, hedit, h⟩ := w.revise_cases id .activate
  · rw [h]
    exact ⟨[], .failed⟩
  obtain rfl := Except.ok.inj hedit
  obtain ⟨hpending, hstatus, htime⟩ := StoredCarton.state_of_toCarton hold
  obtain ⟨hactive, hchange⟩ | ⟨hinactive, c, time, hc, hchange⟩ :=
    old.activate_cases hpending w.supply
  · obtain ⟨r, hrow, hid, hs, hu, hrun⟩ := run_status hbefore hold (c := old) rfl _
    rw [h, hchange, hrun _ _ (Carton.outbound_none rfl)]
    exact ⟨_, .settled hbefore (.inl ⟨rfl, hstatus ▸ hactive⟩) hold hrow hid (hs.trans hstatus)
      (hu.trans htime)⟩
  · obtain ⟨r, hrow, hid, hs, -, hrun⟩ := run_status hbefore hold hc _
    rw [h, hchange, hrun _ _ (Carton.outbound_none rfl)]
    exact ⟨_, .activated hbefore (hstatus ▸ hinactive) hold (by rw [hc]) hrow hid hs⟩

theorem tells_deactivate (w : Warehouse) (id : String) : ∃ news,
    Tells w (.deactivate id) (w.revise id .deactivate).1 (w.revise id .deactivate).2 news := by
  obtain ⟨f, h⟩ | ⟨before, old, change, hbefore, hold, hedit, h⟩ := w.revise_cases id .deactivate
  · rw [h]
    exact ⟨[], .failed⟩
  obtain rfl := Except.ok.inj hedit
  obtain ⟨hpending, hstatus, htime⟩ := StoredCarton.state_of_toCarton hold
  obtain ⟨hinactive, hchange⟩ | ⟨hactive, c, time, hc, hchange⟩ :=
    old.deactivate_cases hpending w.supply
  · obtain ⟨r, hrow, hid, hs, hu, hrun⟩ := run_status hbefore hold (c := old) rfl _
    rw [h, hchange, hrun _ _ (Carton.outbound_none rfl)]
    exact ⟨_, .settled hbefore (.inr ⟨rfl, hstatus ▸ hinactive⟩) hold hrow hid (hs.trans hstatus)
      (hu.trans htime)⟩
  · obtain ⟨r, hrow, hid, hs, -, hrun⟩ := run_status hbefore hold hc _
    rw [h, hchange, hrun _ _ (Carton.outbound_deactivated hrow)]
    exact ⟨_, .deactivated hbefore (hstatus ▸ hactive) hold (by rw [hc]) hrow hid hs⟩

/-- **Every call comes to something that is told of as it should be.** -/
theorem tells (w : Warehouse) (call : CartonCall) :
    ∃ news, call.Tells w (call.perform w).1 (call.perform w).2 news := by
  cases call with
  | create name dimensions maxWeight => exact tells_create w name dimensions maxWeight
  | update id name dimensions maxWeight => exact tells_update w id name dimensions maxWeight
  | activate id => exact tells_activate w id
  | deactivate id => exact tells_deactivate w id

theorem Tells.outbox_eq {call : CartonCall} {outcome : Fallible Carton} {w w' : Warehouse}
    {news : List OutboundEvent} (h : call.Tells w outcome w' news) :
    w'.outbox = news.foldl Outbox.push w.outbox := by
  cases h <;> rfl

end CartonCall

open CartonCall

end Stowage
