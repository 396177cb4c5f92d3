import Stowage.Proofs.Access.Token
import Stowage.Proofs.Warehouse.Interleaving
import Stowage.Proofs.Web.Failure

/-!
# Sessions

Whatever requests a site answers, one after the other, it changes cartons and tells of them only for
a request that is meant to change a carton and comes with a token that an earlier login has handed
out, that has not expired, and whose operator is there and active (`carton_change_needs_login`). The
secret is taken to be kept: a token that is read is one that the site has handed out (`Unforged`).
And whoever has logged in may go on (`Visit.LogsIn.operator`).
-/

namespace Stowage

/-- The stored cartons are left as they are, and nothing is told of cartons. -/
structure Warehouse.LeavesCartons (w w' : Warehouse) : Prop where
  cartons : w'.cartons = w.cartons
  outbox : ∃ news : List OutboundEvent, (∀ e ∈ news, e.topic ≠ Warehouse.cartonTopic) ∧
    w'.outbox = news.foldl Outbox.push w.outbox

theorem Warehouse.LeavesCartons.refl (w : Warehouse) : w.LeavesCartons w := ⟨rfl, [], nofun, rfl⟩

/-- A calculation leaves the cartons alone and tells of its solution only. -/
theorem Calculation.Comes.leavesCartons {order : PackingOrder} {w w' : Warehouse}
    {outcome : Fallible SolutionView} (h : Comes order w outcome w') : w.LeavesCartons w' := by
  cases h with
  | failed h => exact ⟨h.cartons, [], nofun, h.outbox⟩
  | repeated => exact .refl w
  | @stored s v e w' _ _ _ _ _ hannounced hcartons _ houtbox =>
    have htopic : e.topic ≠ Warehouse.cartonTopic := by
      rw [(Solution.about_of_announcement hannounced).1]
      simp [Warehouse.solutionTopic, Warehouse.cartonTopic]
    exact ⟨hcartons, [e], by simpa using htopic, houtbox⟩

namespace Web

/-! ## Cookies -/

namespace Cookie

/-- A character that stands for itself in a cookie. -/
def IsPlain (c : Char) : Prop := c ≠ ';' ∧ c ≠ '"' ∧ Text.isBlank c = false

instance (c : Char) : Decidable (IsPlain c) := inferInstanceAs (Decidable (_ ∧ _))

theorem stripChars_plain {cs : List Char} (h : ∀ c ∈ cs, IsPlain c) : Text.stripChars cs = cs := by
  have hdrop : ∀ ds : List Char, (∀ c ∈ ds, IsPlain c) → ds.dropWhile Text.isBlank = ds := by
    intro ds hds
    cases ds with
    | nil => rfl
    | cons d ds => exact List.dropWhile_cons_of_neg (by simp [(hds d (by simp)).2.2])
  rw [Text.stripChars, hdrop cs h, hdrop cs.reverse fun c hc => h c (List.mem_reverse.1 hc),
    List.reverse_reverse]

theorem readValue_plain {cs : List Char} (h : ∀ c ∈ cs, IsPlain c) : readValue cs = cs := by
  unfold readValue
  split
  · exact absurd rfl (h '"' (by simp)).2.1
  · rfl

/-- A name that can be read back: there is one, of plain characters without an equals sign. -/
def IsName (name : String) : Prop := name ≠ "" ∧ ∀ c ∈ name.toList, IsPlain c ∧ c ≠ '='

-- over the characters of the name, not over all there are
instance (name : String) : Decidable (IsName name) :=
  @instDecidableAnd _ _ inferInstance (List.decidableBAll _ name.toList)

/-- A name and a value of plain characters are read back. -/
theorem value?_write {name value : String} (hname : IsName name)
    (hvalue : ∀ c ∈ value.toList, IsPlain c) :
    value? (write name value) name = some value := by
  obtain ⟨hne, hname⟩ := hname
  have hwhole : (write name value).toList.splitOn ';' = [name.toList ++ '=' :: value.toList] := by
    have hform : (write name value).toList = name.toList ++ '=' :: value.toList := by simp [write]
    rw [hform, List.splitOn_eq_singleton]
    intro hmem
    rw [List.mem_append, List.mem_cons] at hmem
    rcases hmem with hmem | hmem | hmem
    · exact (hname _ hmem).1.1 rfl
    · cases hmem
    · exact (hvalue _ hmem).1 rfl
  have hpart : readPart (name.toList ++ '=' :: value.toList) = (name, value) := by
    obtain ⟨hbefore, hafter⟩ := Text.split_at_first (fun c hc => (hname c hc).2) value.toList
    simp [readPart, hbefore, hafter, stripChars_plain hvalue, readValue_plain hvalue,
      stripChars_plain fun c hc => (hname c hc).1]
  simp [value?, read, hwhole, hpart, hne]

/-- Tokens are made of plain characters. -/
theorem isPlain_of_mem_token {secret : String} {claims : Json} :
    ∀ c ∈ (Token.write secret claims).toList, IsPlain c := by
  have hchars : ∀ n < 64, IsPlain (Base64.urlChar n) := by decide
  intro c hc
  obtain rfl | ⟨n, hn, rfl⟩ := Token.mem_write hc
  · decide
  · exact hchars n hn

end Cookie

/-! ## Replies -/

/-- The reply hands out a token. -/
def Reply.HandsOut (reply : Reply) (token : String) : Prop := reply.cookie = some (.set token)

theorem Reply.HandsOut.cookie_ne_none {reply : Reply} {token : String}
    (h : reply.HandsOut token) : reply.cookie ≠ none := by
  rw [h]
  exact Option.some_ne_none _

/-! ## Requests -/

/-- The methods that change a carton at a resource: one is created, updated, taken out of use or
made active. -/
def Resource.IsChangedBy : Resource → Method → Prop
  | .cartons, .post | .carton _, .put | .carton _, .delete | .activation _, .post => True
  | _, _ => False

/-- The request is one to create, update, deactivate or activate a carton. -/
def Request.ChangesCarton (r : Request) : Prop :=
  ∃ resource, Resource.ofPath? r.path = some resource ∧ resource.IsChangedBy r.method

namespace Gate

variable {g : Gate} {r : Request} {requestId : String} {command : Command}

/-- What a request may be read as. -/
inductive Admits (g : Gate) (r : Request) : Command → Prop
  /-- A change of a carton, at the request of an operator. -/
  | change {command : Command} {p : Operator} (hr : r.ChangesCarton) (hp : g.operator r = .ok p)
      (hlogin : ∀ o, command ≠ .login o) : Admits g r command
  /-- A login with a name and a password. -/
  | login {o : Operator} (hpath : Resource.ofPath? r.path = some .login)
      (hmethod : r.method = .post) (ho : g.credentials r = .ok o) : Admits g r (.login o)
  /-- Anything else, which changes no carton and is no login. -/
  | other {command : Command} (hcall : command.cartonCall? = none)
      (hlogin : ∀ o, command ≠ .login o) : Admits g r command

theorem operator_of_cartonForm {form : CartonForm} (h : g.cartonForm r = .ok form) :
    ∃ p, g.operator r = .ok p := by
  obtain ⟨payload, -, h⟩ := bind_eq_ok.1 h
  obtain ⟨p, hp, -⟩ := bind_eq_ok.1 h
  exact ⟨p, hp⟩

theorem admits_of_readAbout {resource : Resource}
    (hresource : Resource.ofPath? r.path = some resource)
    (h : g.readAbout requestId r resource = .ok command) : g.Admits r command := by
  have hchange {method : Method} (hmethod : r.method = method)
      (hr : resource.IsChangedBy method) : r.ChangesCarton := ⟨resource, hresource, hmethod ▸ hr⟩
  unfold readAbout at h
  cases resource <;> cases hmethod : r.method <;> simp only [hmethod, reduceCtorEq] at h
  case cartons.post =>
    obtain ⟨form, hform, rfl⟩ := map_eq_ok.1 h
    obtain ⟨p, hp⟩ := operator_of_cartonForm hform
    exact .change (hchange hmethod trivial) hp (by simp)
  case carton.put =>
    obtain ⟨form, hform, rfl⟩ := map_eq_ok.1 h
    obtain ⟨p, hp⟩ := operator_of_cartonForm hform
    exact .change (hchange hmethod trivial) hp (by simp)
  case carton.delete =>
    obtain ⟨p, hp, rfl⟩ := map_eq_ok.1 h
    exact .change (hchange hmethod trivial) hp (by simp)
  case activation.post =>
    obtain ⟨p, hp, rfl⟩ := map_eq_ok.1 h
    exact .change (hchange hmethod trivial) hp (by simp)
  case login.post =>
    obtain ⟨o, ho, rfl⟩ := map_eq_ok.1 h
    exact .login hresource hmethod ho
  case cartons.get | solutions.post | operator.get =>
    obtain ⟨_, -, rfl⟩ := map_eq_ok.1 h
    exact .other rfl (by simp)
  all_goals
    cases h
    exact .other rfl (by simp)

/-- **What a request may be read as.** -/
theorem admits_of_read (h : g.read requestId r = .ok command) : g.Admits r command := by
  unfold read at h
  cases hresource : Resource.ofPath? r.path with
  | some resource =>
    rw [hresource] at h
    exact admits_of_readAbout hresource h
  | none =>
    rw [hresource] at h
    dsimp only at h
    split_ifs at h

end Gate

namespace Site

variable {s : Site} {now : ℤ} {r : Request} {command : Command}

/-- A command that is not about changing a carton leaves the cartons alone. -/
theorem perform_leavesCartons (s : Site) (now : ℤ) (h : command.cartonCall? = none) :
    s.warehouse.LeavesCartons (s.perform now command).2 := by
  cases command with
  | createCarton | updateCarton | deactivateCarton | activateCarton => cases h
  | calculate order => exact (s.warehouse.calculate_comes s.desk order).leavesCartons
  | _ => exact .refl _

theorem cookie_of_showCarton {status : ℕ} {c : Fallible Carton} {reply : Reply}
    (h : showCarton status c = .ok reply) : reply.cookie = none := by
  obtain ⟨c, -, h⟩ := bind_eq_ok.1 h
  obtain ⟨v, -, h⟩ := bind_eq_ok.1 h
  rw [← pure_eq_ok.1 h]
  rfl

theorem cookie_of_showSolution {v : Fallible SolutionView} {reply : Reply}
    (h : showSolution v = .ok reply) : reply.cookie = none := by
  obtain ⟨v, -, rfl⟩ := map_eq_ok.1 h
  rfl

/-- Only a login hands out a token. -/
theorem perform_token {reply : Reply} {token : String} (h : (s.perform now command).1 = .ok reply)
    (hhanded : reply.HandsOut token) :
    ∃ o, command = .login o ∧ reply.status = 200 ∧ o.token s.settings now = .ok token := by
  cases command with
  | login o =>
    obtain ⟨token', htoken, h⟩ := bind_eq_ok.1 h
    obtain rfl := pure_eq_ok.1 h
    cases hhanded
    exact ⟨o, rfl, rfl, htoken⟩
  | createCarton | updateCarton | activateCarton | getCarton =>
    exact absurd (cookie_of_showCarton h) hhanded.cookie_ne_none
  | calculate | getSolution => exact absurd (cookie_of_showSolution h) hhanded.cookie_ne_none
  | listCartons =>
    obtain ⟨cartons, -, h⟩ := bind_eq_ok.1 h
    obtain ⟨views, -, h⟩ := bind_eq_ok.1 h
    obtain rfl := pure_eq_ok.1 h
    exact absurd rfl hhanded.cookie_ne_none
  | deactivateCarton =>
    obtain ⟨c, -, rfl⟩ := map_eq_ok.1 h
    exact absurd rfl hhanded.cookie_ne_none
  | health | logout | whoAmI =>
    cases h
    cases hhanded

theorem failureReply?_cookie {name : String} {f : Failure} {reply : Reply}
    (h : failureReply? name f = some reply) : reply.cookie = none := by
  cases f <;> cases h
  rfl

theorem refusalReply?_cookie {name : String} {refusal : Refusal} {reply : Reply}
    (h : refusalReply? name r refusal = some reply) : reply.cookie = none := by
  cases refusal with
  | denied why =>
    cases why <;> cases h
    all_goals rfl
  | failed f => exact failureReply?_cookie h
  | _ =>
    cases h
    rfl

theorem sharingReply?_cookie {reply : Reply} (h : sharingReply? r = some reply) :
    reply.cookie = none := by
  unfold sharingReply? at h
  split at h
  · split_ifs at h
    all_goals
      cases h
      rfl
  · cases h

/-- A request is read as its command. -/
theorem read_of_command? (h : s.command? now r = some command) :
    (s.gate now).read (nameRequest s.warehouse.supply r).1 r = .ok command := by
  unfold command? at h
  cases hsharing : sharingReply? r with
  | some reply => simp [hsharing] at h
  | none =>
    rw [hsharing] at h
    exact eq_ok_of_toOption h

theorem reply?_token {name : String} {reply : Reply} {token : String}
    (h : (s.reply? now name r).1 = some reply) (hhanded : reply.HandsOut token) :
    ∃ o, (s.gate now).read name r = .ok (.login o) ∧ reply.status = 200 ∧
      o.token s.settings now = .ok token := by
  replace h : (s.draft? now name r).1 = some reply := (Option.filter_eq_some_iff.1 h).1
  unfold draft? at h
  cases hsharing : sharingReply? r with
  | some shared =>
    rw [hsharing] at h
    obtain rfl := Option.some.inj h
    exact absurd (sharingReply?_cookie hsharing) hhanded.cookie_ne_none
  | none =>
    rw [hsharing] at h
    dsimp only at h
    cases hread : (s.gate now).read name r with
    | error refusal =>
      rw [hread] at h
      exact absurd (refusalReply?_cookie h) hhanded.cookie_ne_none
    | ok command =>
      rw [hread] at h
      dsimp only at h
      generalize hdone : s.perform now command = done at h
      obtain ⟨outcome, w⟩ := done
      cases outcome with
      | error f => exact absurd (failureReply?_cookie h) hhanded.cookie_ne_none
      | ok found =>
        obtain rfl := Option.some.inj h
        obtain ⟨o, rfl, hstatus, htoken⟩ := perform_token (congrArg Prod.fst hdone) hhanded
        exact ⟨o, rfl, hstatus, htoken⟩

/-- **Only a login hands out a token.** -/
theorem respond_token {token : String}
    (h : (s.respond now r).1.reply.HandsOut token) :
    (s.respond now r).1.reply.status = 200 ∧ ∃ o, o.token s.settings now = .ok token ∧
      (s.gate now).Admits r (.login o) := by
  obtain ⟨-, hreply⟩ := s.respond_eq now r
  rw [hreply] at h ⊢
  cases hfound : ((s.named r).reply? now (nameRequest s.warehouse.supply r).1 r).1 with
  | none =>
    rw [hfound] at h
    cases h
  | some reply =>
    rw [hfound] at h
    obtain ⟨o, hread, hstatus, htoken⟩ := reply?_token hfound h
    exact ⟨hstatus, o, htoken, Gate.admits_of_read hread⟩

/-- The site is run as before. -/
theorem respond_desk (s : Site) (now : ℤ) (r : Request) : (s.respond now r).2.desk = s.desk := by
  unfold respond
  generalize nameRequest s.warehouse.supply r = given
  dsimp only

theorem respond_operators (s : Site) (now : ℤ) (r : Request) :
    (s.respond now r).2.operators = s.operators := by
  unfold respond
  generalize nameRequest s.warehouse.supply r = given
  dsimp only

end Site

/-! ## Visits -/

/-- A request as it comes to a site at a time. -/
structure Visit where
  site : Site
  now : ℤ
  request : Request

/-- The response to a visit. -/
def Visit.response (v : Visit) : Response := (v.site.respond v.now v.request).1

/-- The site after a visit. -/
def Visit.after (v : Visit) : Site := (v.site.respond v.now v.request).2

/-- A visit at which an operator has logged in and was handed out a token. -/
structure Visit.LogsIn (v : Visit) (o : Operator) (token : String) : Prop where
  path : Resource.ofPath? v.request.path = some .login
  method : v.request.method = .post
  credentials : (v.site.gate v.now).credentials v.request = .ok o
  status : v.response.reply.status = 200
  handed : v.response.reply.HandsOut token
  token : o.token v.site.settings v.now = .ok token

/-- The sites that requests find, with the visits so far, the latest last. A site starts with any
cartons and operators, time passes in any way, and operators come and go between requests. -/
inductive Visited (desk : Calculation.Desk) : List Visit → Site → Prop
  /-- Nobody has come yet. -/
  | opened (operators : List Operator) (w : Warehouse) : Visited desk [] ⟨desk, operators, w⟩
  /-- A request was answered. -/
  | responded {log : List Visit} {s : Site} (h : Visited desk log s) (now : ℤ) (r : Request) :
      Visited desk (log ++ [⟨s, now, r⟩]) (s.respond now r).2
  /-- Other operators are there from now on, or some are disabled. -/
  | staffed {log : List Visit} {s : Site} (h : Visited desk log s) (operators : List Operator) :
      Visited desk log { s with operators }

/-- A token that a request comes with and that is read was handed out at a visit. -/
def Unforged (log : List Visit) (s : Site) (now : ℤ) (r : Request) : Prop :=
  ∀ token claims, (s.gate now).tokenOf r = some token →
    Token.read s.settings.depth s.settings.secret now token = .ok (some claims) →
    ∃ v ∈ log, v.response.reply.HandsOut token

/-- A request to change a carton, with an unexpired token that was handed out to an operator who had
logged in, and who is there and active. -/
def Permitted (log : List Visit) (s : Site) (now : ℤ) (r : Request) : Prop :=
  r.ChangesCarton ∧ ∃ token, (s.gate now).tokenOf r = some token ∧
    ∃ v ∈ log, ∃ o, v.LogsIn o token ∧ now ≤ v.now + s.settings.tokenDays * 86400 ∧
      ∃ p ∈ s.operators, p.id = o.id ∧ p.isActive = true

variable {desk : Calculation.Desk} {log : List Visit} {s : Site} {now : ℤ} {r : Request}

/-- After a first visit, there is the site as that visit has left it. -/
theorem Visited.after {v : Visit} (h : Visited desk [] v.site) : Visited desk [v] v.after :=
  h.responded v.now v.request

/-- A site is run with the same settings all the time. -/
theorem Visited.desk_eq (h : Visited desk log s) :
    s.desk = desk ∧ ∀ v ∈ log, v.site.desk = desk := by
  induction h with
  | opened => exact ⟨rfl, by simp⟩
  | @responded log s _ now r ih =>
    obtain ⟨hs, hlog⟩ := ih
    refine ⟨(s.respond_desk now r).trans hs, fun v hv => ?_⟩
    rw [List.mem_append, List.mem_singleton] at hv
    rcases hv with hv | rfl
    · exact hlog v hv
    · exact hs
  | staffed _ _ ih => exact ih

/-- **Only a login hands out a token.** -/
theorem Visit.logsIn_of_handsOut {v : Visit} {token : String}
    (h : v.response.reply.HandsOut token) : ∃ o, v.LogsIn o token := by
  obtain ⟨hstatus, o, htoken, hadmits⟩ := Site.respond_token h
  cases hadmits with
  | change _ _ hlogin => exact absurd rfl (hlogin o)
  | login hpath hmethod ho => exact ⟨o, hpath, hmethod, ho, hstatus, h, htoken⟩
  | other _ hlogin => exact absurd rfl (hlogin o)

/-- A request with the name and password of an active operator is read as a login. -/
theorem Visit.command?_of_login {v : Visit} {o : Operator}
    (hpath : Resource.ofPath? v.request.path = some .login) (hmethod : v.request.method = .post)
    (ho : (v.site.gate v.now).credentials v.request = .ok o) :
    v.site.command? v.now v.request = some (.login o) := by
  have hsharing : Site.sharingReply? v.request = none := by
    unfold Site.sharingReply?
    rw [hmethod]
  have hread : ((v.site.named v.request).gate v.now).credentials v.request = .ok o := ho
  simp [Site.command?, hsharing, Gate.read, hpath, Gate.readAbout, hmethod, hread, Except.map,
    Except.toOption]

/-- A request to log in with the name and password of an active operator hands out a token. -/
theorem Visit.logsIn_of_credentials {v : Visit} {o : Operator} {token : String}
    (hpath : Resource.ofPath? v.request.path = some .login) (hmethod : v.request.method = .post)
    (ho : (v.site.gate v.now).credentials v.request = .ok o)
    (htoken : o.token v.site.settings v.now = .ok token) : v.LogsIn o token := by
  have hcommand := command?_of_login hpath hmethod ho
  let welcomed := Reply.json 200 (.object [("ok", .bool true), ("operator", Site.operatorJson o)])
  have hdone : ((v.site.named v.request).perform v.now (.login o)).1 =
      .ok (welcomed.withCookie (.set token)) := bind_eq_ok.2 ⟨token, htoken, rfl⟩
  have hwelcomed : welcomed.isSendable = true := by
    rw [Reply.isSendable_json]
    simp [Json.isWhole, Json.areMembersWhole, Site.operatorJson, RawText.isWhole]
  have hsend : (welcomed.withCookie (.set token)).isSendable = true := hwelcomed
  have hreply := Site.reply_of_ok hcommand hdone hsend
  exact ⟨hpath, hmethod, ho, by rw [response, hreply]; rfl, by rw [response, hreply]; rfl, htoken⟩

/-- A login leaves the warehouse alone, but for a name for the request. -/
theorem Visit.LogsIn.warehouse_eq {v : Visit} {o : Operator} {token : String}
    (h : v.LogsIn o token) : (v.site.respond v.now v.request).2.warehouse =
      (v.site.named v.request).warehouse :=
  Site.warehouse_of_some (Visit.command?_of_login h.path h.method h.credentials)

/-- **Whoever has logged in may go on** with the token, until it expires, as long as the operator is
there and active. -/
theorem Visit.LogsIn.operator {v : Visit} {o p : Operator} {token : String} (h : v.LogsIn o token)
    (hdesk : v.site.desk = s.desk) (hdepth : 0 < s.settings.depth)
    (hname : Cookie.IsName s.settings.cookieName)
    (hcookie : r.header? "cookie" = some (Cookie.write s.settings.cookieName token))
    (hnow : now ≤ v.now + s.settings.tokenDays * 86400) (hid : o.id ≠ 0) (hp : p ∈ s.operators)
    (hpid : p.id = o.id) (hactive : p.isActive = true) :
    ∃ q, (s.gate now).operator r = .ok q := by
  have hsettings : v.site.settings = s.settings := congrArg Calculation.Desk.settings hdesk
  have htoken : o.token s.settings v.now = .ok token := hsettings ▸ h.token
  have hvalue : (s.gate now).tokenOf r = some token := by
    have hplain : ∀ c ∈ token.toList, Cookie.IsPlain c := by
      rw [(Token.issue_eq_ok htoken).1]
      exact Cookie.isPlain_of_mem_token
    rw [Gate.tokenOf, hcookie]
    exact Cookie.value?_write hname hplain
  obtain ⟨q, hq⟩ := Operator.exists_ofToken_token hdepth htoken hnow hid hp hpid hactive
  exact ⟨q, mapError_eq_ok.2 (hvalue ▸ hq)⟩

/-- **Cartons are changed, and told of, only for a request to change one that comes from an operator
who had logged in**, is there and active, with a token that has not expired. -/
theorem carton_change_needs_login (hs : Visited desk log s) (hr : Unforged log s now r) :
    s.warehouse.LeavesCartons (s.respond now r).2.warehouse ∨ Permitted log s now r := by
  cases hcommand : s.command? now r with
  | none =>
    rw [Site.respond_of_none hcommand]
    exact .inl ⟨rfl, [], nofun, rfl⟩
  | some command =>
    rw [Site.warehouse_of_some hcommand]
    have hleaves (hcall : command.cartonCall? = none) :
        s.warehouse.LeavesCartons ((s.named r).perform now command).2 := by
      obtain ⟨hcartons, houtbox⟩ := (s.named r).perform_leavesCartons now hcall
      exact ⟨hcartons, houtbox⟩
    cases Gate.admits_of_read (Site.read_of_command? hcommand) with
    | other hcall => exact .inl (hleaves hcall)
    | login => exact .inl (hleaves rfl)
    | @change _ p hchange hp _ =>
      obtain ⟨token, claims, htoken, hread, hid, hmem, hactive⟩ :=
        Operator.ofToken_eq_ok (mapError_eq_ok.1 hp)
      obtain ⟨v, hv, hhanded⟩ := hr token claims htoken hread
      obtain ⟨o, hlogin⟩ := v.logsIn_of_handsOut hhanded
      have hsettings : v.site.settings = s.settings := by
        obtain ⟨hs, hlog⟩ := hs.desk_eq
        rw [Site.settings, Site.settings, hlog v hv, hs]
      obtain ⟨ho, hnow⟩ := Operator.of_read_token (hsettings ▸ hlogin.token) hread hid
      exact .inr ⟨hchange, token, htoken, v, hv, o, hlogin, hnow, p, hmem, ho, hactive⟩

/-! ## A session

The first operator logs in and takes the bin out of use a minute later. -/

/-- An active carton that can be fetched is out of use once it was deactivated. -/
theorem exists_row_of_deactivate {w : Warehouse} {id : String} {before : StoredCarton}
    {old : Carton} (hbefore : w.cartons.row? id = some before) (hold : before.toCarton = .ok old)
    (hactive : before.status = .active) :
    ∃ r ∈ (w.revise id .deactivate).2.cartons.rows, r.status = .inactive := by
  have hget := Warehouse.getCarton_eq_ok.2 ⟨before, hbefore, hold⟩
  obtain ⟨hpending, hstatus, -⟩ := StoredCarton.state_of_toCarton hold
  obtain ⟨hinactive, -⟩ | ⟨-, c, time, hc, hchange⟩ := old.deactivate_cases hpending w.supply
  · rw [hstatus, hactive] at hinactive
    cases hinactive
  · obtain ⟨r, hrow, -, hinactive, -, hrun⟩ := CartonCall.run_status hbefore hold hc
      (old.deactivate w.supply).supply
    have hrevise : w.revise id .deactivate =
        (.ok c, w.written r (old.deactivate w.supply).supply [r.withdrawal]) := by
      rw [Warehouse.revise, Revision.run_step _ _ rfl, Revision.step, hget]
      dsimp only
      rw [Revision.run_step _ _ rfl, Revision.step]
      dsimp only [CartonEdit.deactivate]
      rw [hchange, hrun _ _ (Carton.outbound_deactivated hrow)]
    exact ⟨r, hrevise ▸ w.cartons.mem_put r, hinactive⟩

/-- The first operator. -/
def firstOperator : Operator := .first Site.bareDesk.settings []

/-- A site with a bin. -/
def stocked : Site := ⟨Site.bareDesk, [firstOperator], room 0 []⟩

/-- What the first operator sends to log in. -/
def firstForm : List (RawText × Json) :=
  [("username", .text Settings.usual.operatorName),
    ("password", .text Settings.usual.operatorPassword)]

/-- The request of the first operator to log in. -/
def loginRequest : Request :=
  ⟨.post, "/api/v1/auth/login", "", [("content-type", "application/json")],
    Text.Utf8.encode "\x7b\"username\":\"operator\",\"password\":\"change-me-now\"\x7d"⟩

/-- What the first operator is handed out. -/
def firstToken : String :=
  Token.write Settings.usual.secret (.object (firstOperator.claimsUntil 1209600))

theorem payload_login (depth : ℕ) :
    Payload.ofRequest (depth + 1) loginRequest = .ok (.document (.object firstForm)) := by
  have hbody : loginRequest.body = Text.Utf8.encode (Json.object firstForm).print := rfl
  have hfilled : loginRequest.body.isEmpty = false := rfl
  have hkind :
      ((loginRequest.header? "content-type").map Request.isJsonType).getD false = true := by decide
  have hflat : Json.FlatObject firstForm := by
    have hplain : ∀ s ∈ ["username", "password", Settings.usual.operatorName,
        Settings.usual.operatorPassword], Json.Plain s := by decide
    exact ⟨List.cons_ne_nil _ _, by simp [firstForm, Json.Flat, hplain], by decide⟩
  rw [Payload.ofRequest, hfilled, hkind, hbody, Json.ofOctets?_encode hflat]
  rfl

/-- The first operator logs in. -/
def firstVisit : Visit := ⟨stocked, 0, loginRequest⟩

theorem logsIn_first : firstVisit.LogsIn firstOperator firstToken := by
  refine Visit.logsIn_of_credentials (by decide) rfl ?_ rfl
  have hform : (Payload.document (.object firstForm)).form (LoginForm.read .modelAttributesType) =
      .ok ⟨Settings.usual.operatorName, Settings.usual.operatorPassword⟩ := rfl
  have hcredentials : Operator.ofCredentials [firstOperator] Settings.usual.operatorName
      Settings.usual.operatorPassword = .ok firstOperator :=
    Operator.ofCredentials_first Site.bareDesk.settings [] (by decide) (by decide)
  have hpayload : (stocked.gate 0).payload loginRequest = .ok (.document (.object firstForm)) :=
    mapError_eq_ok.2 (payload_login 899)
  have hread : Gate.form (.document (.object firstForm)) (LoginForm.read .modelAttributesType) =
      .ok ⟨Settings.usual.operatorName, Settings.usual.operatorPassword⟩ := by
    rw [Gate.form, hform]
    rfl
  exact bind_eq_ok.2 ⟨_, hpayload, bind_eq_ok.2 ⟨_, hread, mapError_eq_ok.2 hcredentials⟩⟩

/-- A request to take the bin out of use, with a token. -/
def withdrawalWith (token : String) : Request :=
  ⟨.delete, "/api/v1/cartons/BIN", "",
    [("cookie", Cookie.write Settings.usual.cookieName token)], []⟩

theorem header?_withdrawalWith (token : String) : (withdrawalWith token).header? "cookie" =
    some (Cookie.write Settings.usual.cookieName token) := by
  have hsmall : (Request.small "cookie" == "cookie") = true := by decide
  simp [Request.header?, withdrawalWith, hsmall]

theorem tokenOf_withdrawalWith {g : Gate} {token : String}
    (hname : g.settings.cookieName = Settings.usual.cookieName)
    (htoken : ∀ c ∈ token.toList, Cookie.IsPlain c) :
    g.tokenOf (withdrawalWith token) = some token := by
  rw [Gate.tokenOf, header?_withdrawalWith, hname]
  exact Cookie.value?_write (by decide) htoken

/-- A request to take the bin out of use is read as such, if it comes from an operator. -/
theorem command?_withdrawalWith {q : Operator} {token : String}
    (hq : (s.gate now).operator (withdrawalWith token) = .ok q) :
    s.command? now (withdrawalWith token) = some (.deactivateCarton "BIN") := by
  have hpath : Resource.ofPath? (withdrawalWith token).path = some (.carton "BIN") := by
    dsimp only [withdrawalWith]
    decide
  have hmethod : (withdrawalWith token).method = .delete := rfl
  have hsharing : Site.sharingReply? (withdrawalWith token) = none := by
    unfold Site.sharingReply?
    rw [hmethod]
  have hread : ((s.named (withdrawalWith token)).gate now).operator (withdrawalWith token) =
    .ok q := hq
  simp [Site.command?, hsharing, Gate.read, hpath, Gate.readAbout, hmethod, hread, Except.map,
    Except.toOption]

/-- Whoever has logged in may take the bin out of use. -/
theorem not_leavesCartons_withdrawalWith {v : Visit} {token : String} (hsite : v.site = stocked)
    (hlogin : v.LogsIn firstOperator token) (hnow : now ≤ v.now + 14 * 86400) :
    ¬ v.after.warehouse.LeavesCartons
      (v.after.respond now (withdrawalWith token)).2.warehouse := by
  have hdesk : v.site.desk = v.after.desk := (v.site.respond_desk v.now v.request).symm
  have hsettings : v.after.settings = Site.bareDesk.settings := by
    rw [Site.settings, ← hdesk, hsite]
    rfl
  have hoperator : firstOperator ∈ v.after.operators := by
    rw [Visit.after, Site.respond_operators, hsite]
    exact List.mem_singleton_self _
  have hcookie : (withdrawalWith token).header? "cookie" =
      some (Cookie.write v.after.settings.cookieName token) := by
    rw [hsettings]
    exact header?_withdrawalWith token
  obtain ⟨q, hq⟩ : ∃ q, (v.after.gate now).operator (withdrawalWith token) = .ok q :=
    hlogin.operator hdesk (by rw [hsettings]; decide) (by rw [hsettings]; decide) hcookie
      (by rw [hsettings]; exact hnow) (by decide) hoperator rfl rfl
  have hcartons : v.after.warehouse.cartons = ⟨[bin]⟩ := by
    rw [Visit.after, hlogin.warehouse_eq]
    exact congrArg (fun s : Site => s.warehouse.cartons) hsite
  have hrow : (v.after.named (withdrawalWith token)).warehouse.cartons.row? "BIN" = some bin :=
    congrArg (CartonTable.row? · "BIN") hcartons
  have hold : bin.toCarton = .ok binCarton := rfl
  obtain ⟨r, hr, hinactive⟩ := exists_row_of_deactivate hrow hold rfl
  intro hleaves
  have hkept : ((v.after.named (withdrawalWith token)).warehouse.revise "BIN"
      .deactivate).2.cartons = ⟨[bin]⟩ := by
    rw [← hcartons, ← hleaves.cartons, Site.warehouse_of_some (command?_withdrawalWith hq)]
    rfl
  rw [hkept, List.mem_singleton] at hr
  rw [hr] at hinactive
  cases hinactive

/-- The token of a request to take the bin out of use was handed out to whoever has logged in. -/
theorem unforged_withdrawalWith {v : Visit} {o : Operator} {token : String}
    (hdesk : s.desk = Site.bareDesk) (hlogin : v.LogsIn o token) :
    Unforged [v] s now (withdrawalWith token) := by
  have hname : (s.gate now).settings.cookieName = Settings.usual.cookieName :=
    congrArg (fun desk => desk.settings.cookieName) hdesk
  have hplain : ∀ c ∈ token.toList, Cookie.IsPlain c := by
    rw [(Token.issue_eq_ok hlogin.token).1]
    exact Cookie.isPlain_of_mem_token
  intro found claims hfound _
  rw [tokenOf_withdrawalWith hname hplain] at hfound
  obtain rfl := Option.some.inj hfound
  exact ⟨v, List.mem_singleton_self _, hlogin.handed⟩

/-- The first operator, who has logged in, may take the bin out of use a minute later. -/
theorem carton_change_needs_login_first :
    Visited Site.bareDesk [firstVisit] firstVisit.after ∧
      Unforged [firstVisit] firstVisit.after 60 (withdrawalWith firstToken) ∧
      ¬ firstVisit.after.warehouse.LeavesCartons
        (firstVisit.after.respond 60 (withdrawalWith firstToken)).2.warehouse ∧
      Permitted [firstVisit] firstVisit.after 60 (withdrawalWith firstToken) := by
  have hvisited : Visited Site.bareDesk [firstVisit] firstVisit.after :=
    Visited.after (.opened [firstOperator] (room 0 []))
  have hunforged : Unforged [firstVisit] firstVisit.after 60 (withdrawalWith firstToken) :=
    unforged_withdrawalWith hvisited.desk_eq.1 logsIn_first
  have hchanges : ¬ firstVisit.after.warehouse.LeavesCartons
      (firstVisit.after.respond 60 (withdrawalWith firstToken)).2.warehouse :=
    not_leavesCartons_withdrawalWith rfl logsIn_first (by decide)
  exact ⟨hvisited, hunforged, hchanges,
    (carton_change_needs_login hvisited hunforged).resolve_left hchanges⟩

end Web

end Stowage
