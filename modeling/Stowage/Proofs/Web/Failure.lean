import Stowage.Catalogue.Prepared
import Stowage.Proofs.Warehouse.Answer
import Stowage.Proofs.Warehouse.Saved
import Stowage.Web.Site

/-!
# Requests that fail

A request that is answered with an error leaves the stored cartons, the stored solutions and the
outbox as they were (`failed_request_keeps_records`), as long as the carton that it changes has a
volume, and the solution that it adds has no text without octets: both are shown only after they
were stored and told of, a carton without a volume cannot be shown (`unshown_request_is_kept`,
`giant_is_kept`), and a solution with such a text cannot be sent (`unsent_solution_is_kept`).
-/

namespace Stowage

/-- A carton without a volume cannot be shown. -/
theorem Carton.view_eq_error {c : Carton} {d : Dimensions} {m : Weight} {e : Decimal.Signal}
    (hd : c.dimensions = .known d) (hm : c.maxWeight = .known m) (hv : d.volume = .error e) :
    c.view = .error (.arithmetic e) := by
  rw [view, Attribute.get_eq_ok.2 hd, ok_bind, Attribute.get_eq_ok.2 hm, ok_bind, hv]
  rfl

/-- The view of a carton has its name. -/
theorem Carton.name_of_view {c : Carton} {v : CartonView} {s : RawText} (hname : c.name = .text s)
    (h : c.view = .ok v) : v.name = s := by
  obtain ⟨d, -, h⟩ := bind_eq_ok.1 h
  obtain ⟨m, -, h⟩ := bind_eq_ok.1 h
  obtain ⟨volume, -, h⟩ := bind_eq_ok.1 h
  obtain ⟨t, ht, h⟩ := bind_eq_ok.1 h
  rw [hname] at ht
  cases ht
  rw [← pure_eq_ok.1 h]

/-- The carton has a volume, if its dimensions are known. -/
def Carton.HasVolume (c : Carton) : Prop := ∀ d, c.dimensions = .known d → ∃ v, d.volume = .ok v

namespace CartonCall

variable {w w' : Warehouse} {call : CartonCall} {outcome : Fallible Carton}
  {news : List OutboundEvent}

/-- A call gives a carton with a written name, and has written such a row. -/
theorem Tells.named (h : call.Tells w outcome w' news) (hw : w.cartons.Named) :
    w'.cartons.Named ∧ ∀ c, outcome = .ok c →
      ∃ (s : String) (r : StoredCarton), c.name = .text s ∧ StoredCarton.ofCarton c = .ok r := by
  have hwritten {c : Carton} {r : StoredCarton} {supply : Supply} {news : List OutboundEvent}
      (hname : ∃ s : String, c.name = .text s) (hrow : StoredCarton.ofCarton c = .ok r) :
      (w.written r supply news).cartons.Named ∧ ∀ c', Except.ok c = (.ok c' : Fallible Carton) →
        ∃ (s : String) (r : StoredCarton),
          c'.name = .text s ∧ StoredCarton.ofCarton c' = .ok r := by
    obtain ⟨s, hs⟩ := hname
    refine ⟨hw.put hrow hs, ?_⟩
    rintro _ ⟨⟩
    exact ⟨s, r, hs, hrow⟩
  cases h with
  | failed | unwritten =>
    refine ⟨hw, ?_⟩
    rintro c ⟨⟩
  | created _ hc hrow => exact hwritten ⟨_, congrArg Carton.name hc⟩ hrow
  | updated _ _ hc hrow => exact hwritten ⟨_, congrArg Carton.name hc⟩ hrow
  | deactivated hbefore _ hold hc hrow =>
    obtain ⟨s, hs⟩ := hw.of_row? hbefore hold
    exact hwritten ⟨s, (congrArg Carton.name hc).trans hs⟩ hrow
  | activated hbefore _ hold hc hrow =>
    obtain ⟨s, hs⟩ := hw.of_row? hbefore hold
    exact hwritten ⟨s, (congrArg Carton.name hc).trans hs⟩ hrow
  | settled hbefore _ hold hrow => exact hwritten (hw.of_row? hbefore hold) hrow

theorem named_perform (hw : w.cartons.Named) (call : CartonCall) :
    (call.perform w).2.cartons.Named := by
  obtain ⟨news, htells⟩ := call.tells w
  exact (htells.named hw).1

/-- A call fails and keeps the records, or it gives a carton that can be shown if it has a volume,
under a name of characters. -/
theorem perform_cases (hw : w.cartons.Named) (call : CartonCall) :
    (∃ f, (call.perform w).1 = .error f ∧ w.SameRecords (call.perform w).2) ∨
      ∃ c, (call.perform w).1 = .ok c ∧
        (c.HasVolume → ∃ v, c.view = .ok v ∧ ∃ s : String, v.name = s) := by
  obtain ⟨news, htells⟩ := call.tells w
  have hnamed := (htells.named hw).2
  generalize hperform : call.perform w = p at htells hnamed ⊢
  obtain ⟨outcome, w'⟩ := p
  cases outcome with
  | error f =>
    refine .inl ⟨f, rfl, ?_⟩
    cases htells with
    | failed => exact .refl w'
    | unwritten => exact ⟨rfl, rfl, rfl⟩
  | ok c =>
    obtain ⟨s, r, hname, hrow⟩ := hnamed c rfl
    obtain ⟨d, m, -, hd, hm, -⟩ := StoredCarton.ofCarton_eq_ok.1 hrow
    refine .inr ⟨c, rfl, fun hvolume => ?_⟩
    obtain ⟨volume, hvolume⟩ := hvolume d hd
    obtain ⟨v, hv⟩ := Carton.exists_view hname hd hm hvolume
    exact ⟨v, hv, s, Carton.name_of_view hname hv⟩

/-- What a call gives has a volume when all amounts are in range. -/
theorem hasVolume_of_inRange {c : Carton} (hw : w.cartons.Usable) (hcall : call.InRange)
    (hc : (call.perform w).1 = .ok c) : c.HasVolume := by
  have hknown {d : Dimensions} (hd : c.dimensions = .known d) (hrange : d.InRange) :
      c.HasVolume := by
    intro d' hd'
    obtain rfl := Attribute.known.inj (hd.symm.trans hd')
    exact hrange.exists_volume
  have hstored {id : String} {before : StoredCarton} {old : Carton}
      (hbefore : w.cartons.row? id = some before) (hold : before.toCarton = .ok old)
      (hd : c.dimensions = old.dimensions) : c.HasVolume := by
    obtain ⟨c', hc', hrange⟩ := hw before (List.mem_of_find?_eq_some hbefore)
    obtain rfl := Except.ok.inj (hold.symm.trans hc')
    obtain ⟨d, hknown', hrange⟩ := hrange.dimensions
    exact hknown (hd.trans hknown') hrange
  obtain ⟨news, htells⟩ := call.tells w
  rw [hc] at htells
  generalize (call.perform w).2 = w' at htells
  cases htells with
  | created _ hc => exact hknown (congrArg Carton.dimensions hc) (hcall.1 _ rfl)
  | updated _ _ hc => exact hknown (congrArg Carton.dimensions hc) (hcall.1 _ rfl)
  | deactivated hbefore _ hold hc => exact hstored hbefore hold (by rw [hc])
  | activated hbefore _ hold hc => exact hstored hbefore hold (by rw [hc])
  | settled hbefore _ hold => exact hstored hbefore hold rfl

/-- A call that gives a carton has written its row. -/
theorem exists_row_of_perform {c : Carton} (hc : (call.perform w).1 = .ok c) :
    ∃ r, StoredCarton.ofCarton c = .ok r ∧ r ∈ (call.perform w).2.cartons.rows := by
  obtain ⟨news, htells⟩ := call.tells w
  rw [hc] at htells
  generalize (call.perform w).2 = w' at htells ⊢
  cases htells with
  | created _ _ hrow => exact ⟨_, hrow, w.cartons.mem_put _⟩
  | updated _ _ _ hrow => exact ⟨_, hrow, w.cartons.mem_put _⟩
  | deactivated _ _ _ _ hrow => exact ⟨_, hrow, w.cartons.mem_put _⟩
  | activated _ _ _ _ hrow => exact ⟨_, hrow, w.cartons.mem_put _⟩
  | settled _ _ _ hrow => exact ⟨_, hrow, w.cartons.mem_put _⟩

end CartonCall

namespace Web

/-! ## Replies that can be sent -/

mutual

/-- Numbers that are left out have no texts in them. -/
theorem isWhole_finite : ∀ v : Json, v.finite.isWhole = v.isWhole
  | .null | .bool _ | .int _ | .text _ => rfl
  | .float x => by
    rw [Json.finite]
    split <;> rfl
  | .array xs => by rw [Json.finite, Json.isWhole, Json.isWhole, areWhole_finiteItems xs]
  | .object members => by
    rw [Json.finite, Json.isWhole, Json.isWhole, areMembersWhole_finiteMembers members]

theorem areWhole_finiteItems : ∀ xs : List Json,
    Json.areWhole (Json.finiteItems xs) = Json.areWhole xs
  | [] => rfl
  | x :: xs => by
    rw [Json.finiteItems, Json.areWhole, Json.areWhole, isWhole_finite x, areWhole_finiteItems xs]

theorem areMembersWhole_finiteMembers : ∀ members : List (RawText × Json),
    Json.areMembersWhole (Json.finiteMembers members) = Json.areMembersWhole members
  | [] => rfl
  | (name, x) :: rest => by
    rw [Json.finiteMembers, Json.areMembersWhole, Json.areMembersWhole, isWhole_finite x,
      areMembersWhole_finiteMembers rest]

end

theorem Reply.isSendable_json (status : ℕ) (v : Json) :
    (Reply.json status v).isSendable = v.isWhole :=
  isWhole_finite v

/-- A carton with a name of characters can be shown. -/
theorem isWhole_carton {v : CartonView} {s : String} (hname : v.name = s) :
    v.toJson.isWhole = true := by
  simp [CartonView.toJson, DimensionsView.toJson, Json.isWhole, Json.areMembersWhole,
    RawText.isWhole, hname]

/-! ## Commands -/

/-- The call that a command makes to change a carton. -/
def Command.cartonCall? : Command → Option CartonCall
  | .createCarton form =>
    some (.create (.text form.name) (.known form.dimensions) (.known form.weight))
  | .updateCarton id form =>
    some (.update id (.text form.name) (.known form.dimensions) (.known form.weight))
  | .deactivateCarton id => some (.deactivate id)
  | .activateCarton id => some (.activate id)
  | _ => none

namespace Site

variable {s : Site} {now : Int} {r : Request} {command : Command} {call : CartonCall}

/-- A command changes the cartons by the call that it makes, or not at all. -/
theorem perform_cartons (s : Site) (now : Int) (command : Command) :
    (s.perform now command).2.cartons = s.warehouse.cartons ∨
      ∃ call, command.cartonCall? = some call ∧
        (s.perform now command).2 = (call.perform s.warehouse).2 := by
  cases command with
  | createCarton form => exact .inr ⟨_, rfl, rfl⟩
  | updateCarton id form => exact .inr ⟨_, rfl, rfl⟩
  | deactivateCarton id => exact .inr ⟨_, rfl, rfl⟩
  | activateCarton id => exact .inr ⟨_, rfl, rfl⟩
  | calculate order =>
    exact .inl (s.warehouse.calculate_comes s.desk order).cartons_eq
  | _ => exact .inl rfl

/-- What a command changes can be shown. The carton that it changes, if it changes one, has a
volume, and there are octets for all texts of the solution that it adds, if it adds one. -/
structure Showable (s : Site) (command : Command) : Prop where
  carton : ∀ call c, command.cartonCall? = some call →
    (call.perform s.warehouse).1 = .ok c → c.HasVolume
  solution : ∀ order v, command = .calculate order →
    (s.warehouse.calculate s.desk order).1 = .ok v →
    v ∈ s.warehouse.solutions.views ∨ v.toJson.isWhole = true

/-- **A command leaves the records as they were or is answered without an error**, as long as what
it changes can be shown. -/
theorem perform_cases (hnamed : s.warehouse.cartons.Named) (hshow : s.Showable command) :
    s.warehouse.SameRecords (s.perform now command).2 ∨
      ∃ reply, (s.perform now command).1 = .ok reply ∧ reply.status < 400 ∧
        reply.isSendable = true := by
  have hshown {call : CartonCall} (h : command.cartonCall? = some call) {status : ℕ}
      (hstatus : status < 400) : s.warehouse.SameRecords (call.perform s.warehouse).2 ∨
        ∃ reply, showCarton status (call.perform s.warehouse).1 = .ok reply ∧
          reply.status < 400 ∧ reply.isSendable = true := by
    obtain ⟨f, -, hsame⟩ | ⟨c, hc, hview⟩ := call.perform_cases hnamed
    · exact .inl hsame
    · obtain ⟨v, hv, name, hname⟩ := hview (hshow.carton call c h hc)
      rw [hc]
      exact .inr ⟨.json status v.toJson, bind_eq_ok.2 ⟨c, rfl, bind_eq_ok.2 ⟨v, hv, rfl⟩⟩, hstatus,
        (Reply.isSendable_json _ _).trans (isWhole_carton hname)⟩
  cases command with
  | createCarton form => exact hshown rfl (by decide)
  | updateCarton id form => exact hshown rfl (by decide)
  | activateCarton id => exact hshown rfl (by decide)
  | deactivateCarton id =>
    obtain ⟨f, -, hsame⟩ | ⟨c, hc, -⟩ := (CartonCall.deactivate id).perform_cases hnamed
    · exact .inl hsame
    · exact .inr ⟨.empty 204, congrArg (Except.map fun _ => Reply.empty 204) hc, by decide, rfl⟩
  | calculate order =>
    have hcomes := s.warehouse.calculate_comes s.desk order
    cases houtcome : (s.warehouse.calculate s.desk order).1 with
    | error f =>
      rw [houtcome] at hcomes
      exact .inl hcomes.sameRecords
    | ok v =>
      rw [houtcome] at hcomes
      obtain hold | hwhole := hshow.solution order v rfl houtcome
      · exact .inl (hcomes.sameRecords_of_mem hold)
      · exact .inr ⟨.json 200 v.toJson, congrArg showSolution houtcome, by simp [Reply.json],
          (Reply.isSendable_json _ _).trans hwhole⟩
  | _ => exact .inl (.refl _)

/-! ## Requests -/

/-- The site with the supply that is left after a request was given a name. -/
def named (s : Site) (r : Request) : Site :=
  { s with warehouse := { s.warehouse with supply := (nameRequest s.warehouse.supply r).2 } }

/-- What is done for a request, unless it is refused. -/
def command? (s : Site) (now : Int) (r : Request) : Option Command :=
  match sharingReply? r with
  | some _ => none
  | none => (((s.named r).gate now).read (nameRequest s.warehouse.supply r).1 r).toOption

/-- What a request changes can be shown. -/
def ShowsChange (s : Site) (now : Int) (r : Request) : Prop :=
  ∀ command, s.command? now r = some command → (s.named r).Showable command

/-- The sites that requests find, one after the other. -/
inductive Reached (desk : Calculation.Desk) (salt : List UInt8) : Site → Prop
  | opened {s : Site} (h : opened desk salt = .ok s) : Reached desk salt s
  | responded {s : Site} (h : Reached desk salt s) (now : Int) (r : Request) :
      Reached desk salt (s.respond now r).2

/-- What is answered to a request, and the warehouse afterwards. -/
theorem respond_eq (s : Site) (now : Int) (r : Request) :
    (s.respond now r).2.warehouse =
        ((s.named r).reply? now (nameRequest s.warehouse.supply r).1 r).2 ∧
      (s.respond now r).1.reply =
        ((s.named r).reply? now (nameRequest s.warehouse.supply r).1 r).1.getD
          (.text 500 "Internal Server Error") := by
  unfold respond named
  generalize nameRequest s.warehouse.supply r = given
  obtain ⟨name, supply⟩ := given
  dsimp only
  generalize reply? _ now name r = answer
  obtain ⟨reply, w⟩ := answer
  cases reply <;> exact ⟨rfl, rfl⟩

/-- A request that is refused leaves the warehouse alone. -/
theorem respond_of_none (h : s.command? now r = none) :
    (s.respond now r).2.warehouse = (s.named r).warehouse := by
  rw [(s.respond_eq now r).1]
  unfold command? at h
  unfold reply? draft?
  cases hsharing : sharingReply? r with
  | some reply => rfl
  | none =>
    rw [hsharing] at h
    cases hread : ((s.named r).gate now).read (nameRequest s.warehouse.supply r).1 r with
    | ok command => simp [hread, Except.toOption] at h
    | error refusal => simp

/-- The command for a request is done, and its outcome answered. -/
theorem reply?_of_some (h : s.command? now r = some command) :
    (s.named r).reply? now (nameRequest s.warehouse.supply r).1 r =
      ((match ((s.named r).perform now command).1 with
        | .ok reply => some reply
        | .error f => failureReply? (nameRequest s.warehouse.supply r).1 f).filter
          Reply.isSendable, ((s.named r).perform now command).2) := by
  unfold command? at h
  cases hsharing : sharingReply? r with
  | some reply => simp [hsharing] at h
  | none =>
    rw [hsharing] at h
    cases hread : ((s.named r).gate now).read (nameRequest s.warehouse.supply r).1 r with
    | error refusal => simp [hread, Except.toOption] at h
    | ok found =>
      obtain rfl : found = command := by simpa [hread, Except.toOption] using h
      rw [reply?, draft?, hsharing]
      dsimp only
      rw [hread]
      dsimp only
      generalize (s.named r).perform now found = done
      obtain ⟨outcome, w⟩ := done
      cases outcome <;> rfl

theorem warehouse_of_some (h : s.command? now r = some command) :
    (s.respond now r).2.warehouse = ((s.named r).perform now command).2 := by
  rw [(s.respond_eq now r).1, reply?_of_some h]

theorem reply_of_ok {reply : Reply} (h : s.command? now r = some command)
    (hdone : ((s.named r).perform now command).1 = .ok reply) (hsend : reply.isSendable = true) :
    (s.respond now r).1.reply = reply := by
  rw [(s.respond_eq now r).2, reply?_of_some h, hdone]
  simp [Option.filter, hsend]

/-- What breaks a rule of the domain is answered with its message. -/
theorem reply_of_domain {e : DomainError} (h : s.command? now r = some command)
    (hdone : ((s.named r).perform now command).1 = .error (.domain e))
    (hmessage : e.message.isWhole = true) :
    (s.respond now r).1.reply = domainReply (nameRequest s.warehouse.supply r).1 e := by
  have hsend : (domainReply (nameRequest s.warehouse.supply r).1 e).isSendable = true := by
    rw [domainReply, Reply.isSendable_json]
    simp [Json.isWhole, Json.areMembersWhole, hmessage]
    simp [RawText.isWhole]
  rw [(s.respond_eq now r).2, reply?_of_some h, hdone]
  simp [failureReply?, Option.filter, hsend]

/-- The site breaks down over a reply that cannot be sent. -/
theorem status_of_unsendable {reply : Reply} (h : s.command? now r = some command)
    (hdone : ((s.named r).perform now command).1 = .ok reply) (hsend : reply.isSendable = false) :
    (s.respond now r).1.reply.status = 500 := by
  rw [(s.respond_eq now r).2, reply?_of_some h, hdone]
  simp [Option.filter, hsend, Reply.text]

/-- The site breaks down over an arithmetic failure. -/
theorem status_of_arithmetic {e : Decimal.Signal} (h : s.command? now r = some command)
    (hdone : ((s.named r).perform now command).1 = .error (.arithmetic e)) :
    (s.respond now r).1.reply.status = 500 := by
  rw [(s.respond_eq now r).2, reply?_of_some h, hdone]
  rfl

variable {desk : Calculation.Desk} {salt : List UInt8}

theorem named_of_addUsual {w w' : Warehouse} {entry : String × (ℕ × ℕ × ℕ) × ℕ}
    (hw : w.cartons.Named) (h : w.addUsual entry = .ok w') : w'.cartons.Named := by
  obtain ⟨name, ⟨length, width, height⟩, weight⟩ := entry
  obtain ⟨d, -, h⟩ := bind_eq_ok.1 h
  obtain ⟨m, -, h⟩ := bind_eq_ok.1 h
  obtain ⟨change, hchange, h⟩ := bind_eq_ok.1 h
  obtain ⟨r, hrow, h⟩ := bind_eq_ok.1 h
  obtain ⟨s, d, m, id, time, c, -, -, -, hc, hcarton⟩ := Carton.create_eq_ok hchange
  rw [← pure_eq_ok.1 h]
  exact hw.put hrow (by rw [hcarton, hc]; rfl)

theorem named_of_opened {w : Warehouse} {settings : Settings}
    (h : Warehouse.empty.opened settings = .ok w) : w.cartons.Named := by
  have hempty : Warehouse.empty.cartons.Named := fun r hr => absurd hr List.not_mem_nil
  unfold Warehouse.opened at h
  split_ifs at h
  · exact of_foldlM (P := fun w => w.cartons.Named) (fun _ _ _ => named_of_addUsual) hempty h
  · rw [← Except.ok.inj h]
    exact hempty

/-- All names stay written. -/
theorem Reached.named (h : Reached desk salt s) : s.warehouse.cartons.Named := by
  induction h with
  | opened h =>
    obtain ⟨w, hw, h⟩ := bind_eq_ok.1 h
    rw [← pure_eq_ok.1 h]
    exact named_of_opened hw
  | @responded s h now r ih =>
    have hnamed : (s.named r).warehouse.cartons.Named := ih
    cases hcommand : s.command? now r with
    | none =>
      rw [respond_of_none hcommand]
      exact hnamed
    | some command =>
      rw [warehouse_of_some hcommand]
      obtain hcartons | ⟨call, -, hcall⟩ := (s.named r).perform_cartons now command
      · rw [hcartons]
        exact hnamed
      · rw [hcall]
        exact call.named_perform hnamed

/-- **A request that fails leaves the records as they were**, as long as what it changes can be
shown: the carton that it changes has a volume, or there are octets for all texts of the solution
that it adds. -/
theorem failed_request_keeps_records (hs : s.Reached desk salt) (hshow : s.ShowsChange now r)
    (herror : 400 ≤ (s.respond now r).1.reply.status) :
    s.warehouse.SameRecords (s.respond now r).2.warehouse := by
  cases hcommand : s.command? now r with
  | none =>
    rw [respond_of_none hcommand]
    exact ⟨rfl, rfl, rfl⟩
  | some command =>
    rw [warehouse_of_some hcommand]
    have hnamed : (s.named r).warehouse.cartons.Named := hs.named
    obtain hsame | ⟨reply, hok, hstatus, hsend⟩ := perform_cases hnamed (hshow command hcommand)
    · exact ⟨hsame.cartons, hsame.solutions, hsame.outbox⟩
    · rw [reply_of_ok hcommand hok hsend] at herror
      omega

/-- Changes of cartons with amounts in range can be shown, if those before were in range as well. -/
theorem showable_of_inRange (hs : s.warehouse.cartons.Usable)
    (hcommand : command.cartonCall? = some call) (hrange : call.InRange) : s.Showable command where
  carton call' c hcall hc := by
    obtain rfl := Option.some.inj (hcommand.symm.trans hcall)
    exact CartonCall.hasVolume_of_inRange hs hrange hc
  solution order v hsame _ := by
    rw [hsame] at hcommand
    cases hcommand

/-- So can a command that changes nothing. -/
theorem showable_of_unchanging (hcall : command.cartonCall? = none)
    (horder : ∀ order, command ≠ .calculate order) : s.Showable command where
  carton call _ hcall' _ := by
    rw [hcall] at hcall'
    cases hcall'
  solution order _ hsame _ := absurd hsame (horder order)

theorem showCarton_eq_error {c : Carton} {d : Dimensions} {m : Weight} {e : Decimal.Signal}
    (hd : c.dimensions = .known d) (hm : c.maxWeight = .known m) (hv : d.volume = .error e)
    (status : ℕ) : showCarton status (.ok c) = .error (.arithmetic e) := by
  rw [showCarton, ok_bind, Carton.view_eq_error hd hm hv]
  rfl

/-- A change of a carton that has no volume fails after it was made, unless it takes the carton out
of use, which is not shown. -/
theorem perform_unshown (s : Site) (now : Int) {c : Carton} {d : Dimensions} {e : Decimal.Signal}
    (hcall : command.cartonCall? = some call) (hshown : ∀ id, command ≠ .deactivateCarton id)
    (hc : (call.perform s.warehouse).1 = .ok c) (hd : c.dimensions = .known d)
    (hv : d.volume = .error e) : (s.perform now command).1 = .error (.arithmetic e) ∧
      ∃ r, StoredCarton.ofCarton c = .ok r ∧ r ∈ (s.perform now command).2.cartons.rows := by
  obtain ⟨r, hrow, hmem⟩ := CartonCall.exists_row_of_perform hc
  obtain ⟨-, m, -, -, hm, -⟩ := StoredCarton.ofCarton_eq_ok.1 hrow
  have hfails (status : ℕ) : showCarton status (call.perform s.warehouse).1 =
      .error (.arithmetic e) := hc ▸ showCarton_eq_error hd hm hv status
  cases command with
  | createCarton form =>
    cases hcall
    exact ⟨hfails 201, r, hrow, hmem⟩
  | updateCarton id form =>
    cases hcall
    exact ⟨hfails 200, r, hrow, hmem⟩
  | activateCarton id =>
    cases hcall
    exact ⟨hfails 200, r, hrow, hmem⟩
  | deactivateCarton id => exact absurd rfl (hshown id)
  | _ => cases hcall

/-- **A request may fail and change the records all the same.** It does when it changes a carton
that has no volume, unless it takes the carton out of use. -/
theorem unshown_request_is_kept {c : Carton} {d : Dimensions} {e : Decimal.Signal}
    (hcommand : s.command? now r = some command) (hcall : command.cartonCall? = some call)
    (hshown : ∀ id, command ≠ .deactivateCarton id)
    (hc : (call.perform (s.named r).warehouse).1 = .ok c) (hd : c.dimensions = .known d)
    (hv : d.volume = .error e) : (s.respond now r).1.reply.status = 500 ∧
      ∃ row, StoredCarton.ofCarton c = .ok row ∧
        row ∈ (s.respond now r).2.warehouse.cartons.rows := by
  obtain ⟨herror, hrow⟩ := (s.named r).perform_unshown now hcall hshown hc hd hv
  rw [warehouse_of_some hcommand]
  exact ⟨status_of_arithmetic hcommand herror, hrow⟩

/-- **So may a request for a solution.** It does when it adds one with a text that has no octets. -/
theorem unsent_solution_is_kept {order : PackingOrder} {v : SolutionView}
    (hcommand : s.command? now r = some (.calculate order))
    (hv : ((s.named r).warehouse.calculate s.desk order).1 = .ok v)
    (hnew : v ∉ s.warehouse.solutions.views) (hbroken : v.toJson.isWhole = false) :
    (s.respond now r).1.reply.status = 500 ∧
      ¬ s.warehouse.SameRecords (s.respond now r).2.warehouse := by
  have hcomes := (s.named r).warehouse.calculate_comes s.desk order
  rw [hv] at hcomes
  have hshown : ((s.named r).perform now (.calculate order)).1 = .ok (.json 200 v.toJson) :=
    congrArg showSolution hv
  refine ⟨status_of_unsendable hcommand hshown ((Reply.isSendable_json _ _).trans hbroken),
    fun hsame => hnew ?_⟩
  rw [← hsame.solutions, warehouse_of_some hcommand]
  exact hcomes.mem

/-! ## A site without cartons -/

/-- What a site is run with that is not given the usual cartons. -/
def bareDesk : Calculation.Desk := ⟨{ Settings.usual with seedCartons := false }, .none⟩

/-- A site without cartons. -/
def bare : Site := ⟨bareDesk, [Operator.first bareDesk.settings []], .empty⟩

/-- A request for a carton that there is not. -/
def strayRequest : Request := ⟨.get, "/api/v1/cartons/none", "", [], []⟩

theorem command?_stray : bare.command? 0 strayRequest = some (.getCarton "none") := rfl

/-- The stray request fails and changes nothing. -/
theorem failed_request_keeps_records_stray : bare.Reached bareDesk [] ∧
    bare.ShowsChange 0 strayRequest ∧ 400 ≤ (bare.respond 0 strayRequest).1.reply.status ∧
      bare.warehouse.SameRecords (bare.respond 0 strayRequest).2.warehouse := by
  have hreached : bare.Reached bareDesk [] := .opened rfl
  have hshow : bare.ShowsChange 0 strayRequest := by
    intro command hcommand
    rw [command?_stray] at hcommand
    cases hcommand
    exact showable_of_unchanging rfl (by simp)
  have hmissing : ((bare.named strayRequest).perform 0 (.getCarton "none")).1 =
      .error (.domain (.cartonNotFound (.text "none"))) := rfl
  have herror : 400 ≤ (bare.respond 0 strayRequest).1.reply.status := by
    rw [reply_of_domain command?_stray hmissing rfl]
    decide
  exact ⟨hreached, hshow, herror, failed_request_keeps_records hreached hshow herror⟩

/-! ## A giant -/

/-- A side of ten thousand million inches. -/
def giantSide : Amount := ⟨⟨false, 1, 10⟩, Eq.refl true⟩

/-- The form for a giant cube. -/
def giantForm : CartonForm :=
  ⟨"Giant", giantSide, giantSide, giantSide, .inches, ⟨⟨false, 1, 0⟩, Eq.refl true⟩, .pounds⟩

-- so that roundings of given decimals can be computed
attribute [local semireducible] digitCount

/-- A volume of so many digits cannot be written with two places. -/
theorem volume_giant :
    giantForm.dimensions.volume = .error .invalidOperation := by
  decide

theorem createCarton_giant : bare.warehouse.createCarton (.text giantForm.name)
    (.known giantForm.dimensions) (.known giantForm.weight) =
      (createCube "Giant" giantSide).perform .empty := rfl

/-- **A change may be kept although it failed.** The giant is stored and told of, and then its
volume cannot be worked out. -/
theorem giant_is_kept :
    (bare.perform 0 (.createCarton giantForm)).1 = .error (.arithmetic .invalidOperation) ∧
      (bare.perform 0 (.createCarton giantForm)).2.cartons.rows.length = 1 ∧
      (bare.perform 0 (.createCarton giantForm)).2.outbox.events.length = 1 := by
  rw [perform, createCarton_giant, @perform_createCube "Giant" giantSide _ rfl rfl]
  exact ⟨showCarton_eq_error rfl rfl volume_giant 201, rfl, rfl⟩

end Site

end Web

end Stowage
