-- SUMMARY: Sequential runs of the backend: when a change of the password ends the sessions of the user and lets the user log in again.
import ParkingGate.Backend.CurrentToken
import ParkingGate.Backend.ForcedLogout
import ParkingGate.Backend.StoreFrames
import ParkingGate.Backend.UserFrames

/-!
# Password changes

An administrator's `resetPassword` clears the sessions of the user. `resetPassword` with an
e-mailed token writes the password alone: the session documents and the active device stay,
so old tokens are accepted as before and a login from another device is refused. A change
does what it should exactly if there is nothing left to end: no session fits a token of the
user, and no device is active. An access token with the admin role, from before a demotion,
passes `validate` in both cases.
-/

namespace Backend.PasswordChange

open AuthService AdminService Collection UsersService
open ForcedLogout (Op Request)

/-! ## Runs -/

/-- The tokens that were issued before the password of the user was changed. -/
structure Change where
  userId : String
  accessTokens : List String
  refreshTokens : List String

/-- The store and the clock; the tokens issued and the session ids drawn so far; the changes
    of passwords of regular users; and the users who have stayed approved and have not logged
    in since the latest one, with the new password. -/
structure World where
  store : Store
  now : Nat
  accessTokens : List String
  refreshTokens : List String
  sids : List String
  changes : List Change
  ready : List (String × String)

def World.start (users : List User) : World where
  store := { Store.empty with users }
  now := 0
  accessTokens := []
  refreshTokens := []
  sids := []
  changes := []
  ready := []

/-- An approved user who is no administrator. -/
def regular (user : User) : Bool := user.status = .approved ∧ user.role ≠ .admin

namespace World

variable (w : World)

/-- The password of the user has been changed. -/
def record (user : User) (password : String) : World :=
  if regular user then
    { w with
      changes := ⟨user.id, w.accessTokens, w.refreshTokens⟩ :: w.changes
      ready := (user.id, password) :: w.ready.filter (·.1 ≠ user.id) }
  else { w with ready := w.ready.filter (·.1 ≠ user.id) }

/-- The users who are not approved are not ready. -/
def prune : World :=
  { w with
    ready := w.ready.filter fun entry =>
      (w.store.users.find? (·.id == entry.1)).any (·.status = .approved) }

end World

section Semantics

variable (crypto : Crypto) (w : World)

def afterLogin (dto : LoginDto) (sid salt : String) : World :=
  let out := (login crypto dto ⟨w.now, sid, salt⟩).prog.run w.store
  match out.1 with
  | .ok response =>
    { w with
      store := out.2
      accessTokens := response.accessToken :: w.accessTokens
      refreshTokens := response.refreshToken :: w.refreshTokens
      sids := sid :: w.sids
      ready := w.ready.filter (·.1 ≠ response.user.id) }
  | .error _ => { w with store := out.2, sids := sid :: w.sids }

def afterRefresh (token sid salt : String) : World :=
  let out := (refresh crypto token ⟨w.now, sid, salt⟩).prog.run w.store
  match out.1 with
  | .ok response =>
    { w with
      store := out.2
      accessTokens := response.accessToken :: w.accessTokens
      refreshTokens := response.refreshToken :: w.refreshTokens
      sids := sid :: w.sids }
  | .error _ => { w with store := out.2, sids := sid :: w.sids }

/-- The user whose password a request changes if it succeeds, and the new password. -/
def target : Request → Option (User × String)
  | .resetPassword token newPassword _ =>
    (matchedUser crypto token (w.store.users.filter (hasValidResetToken w.now))).map
      (·, newPassword)
  | .adminResetPassword userId dto _ =>
    (w.store.users.find? (·.id == userId)).map (·, dto.newPassword)
  | _ => none

def afterRequest (r : Request) : World :=
  let out := (r.program crypto w.now).prog.run w.store
  match out.1, target crypto w r with
  | .ok _, some (user, password) => World.record { w with store := out.2 } user password
  | _, _                         => { w with store := out.2 }

def step : Op → Option World
  | .login dto sid salt              => some (afterLogin crypto w dto sid salt).prune
  | .refresh token sid salt          => some (afterRefresh crypto w token sid salt).prune
  | .updateUser userId dto transport =>
    some (World.prune { w with
      store := ((AdminService.updateUser userId dto w.now transport).prog.run w.store).2 })
  | .request r                       => some (afterRequest crypto w r).prune
  | .pass ms                         => some { w with now := w.now + ms }

/-! ## Ended sessions, and the login after a change -/

/-- No token issued to the user before the change is accepted. -/
def Ended (c : Change) : Prop :=
  (∀ token ∈ c.refreshTokens, ∀ payload, crypto.verifyRefresh w.now token = some payload →
    payload.sub = c.userId → ∀ sid salt,
      ∃ e, ((refresh crypto token ⟨w.now, sid, salt⟩).prog.run w.store).1 = .error e) ∧
  ∀ token ∈ c.accessTokens, ∀ payload, crypto.verifyAccess w.now token = some payload →
    payload.sub = c.userId →
      ∃ e, ((JwtStrategy.validate payload w.now).prog.run w.store).1 = .error e

/-- The new password opens the account from any device. -/
def CanLogIn (userId password : String) : Prop :=
  ∀ user ∈ w.store.users, user.id = userId → ∀ deviceId sid salt,
    ((login crypto ⟨user.email, password, deviceId⟩ ⟨w.now, sid, salt⟩).prog.run
      w.store).1.isOk = true

def Secured : Prop :=
  (∀ c ∈ w.changes, Ended crypto w c) ∧ ∀ entry ∈ w.ready, CanLogIn crypto w entry.1 entry.2

/-- The session document of a token. -/
def Fits (payload : JwtPayload) (doc : Session) : Prop :=
  doc.sessionId = payload.sid ∧ doc.userId = payload.sub ∧ doc.deviceId = payload.deviceId

instance (payload : JwtPayload) (doc : Session) : Decidable (Fits payload doc) :=
  inferInstanceAs (Decidable (_ ∧ _))

/-- No unexpired access token of the user carries the admin role. -/
def Unprivileged (u : String) : Prop :=
  ∀ token ∈ w.accessTokens, ∀ payload ∈ crypto.verifyAccess w.now token,
    payload.sub = u → payload.role ≠ .admin

/-- No session document fits an unexpired token of the user. -/
def Sessionless (u : String) : Prop :=
  (∀ token ∈ w.refreshTokens, ∀ payload ∈ crypto.verifyRefresh w.now token, payload.sub = u →
    ∀ doc ∈ w.store.sessions,
      ¬ (Fits payload doc ∧ crypto.compare token doc.refreshTokenHash = true)) ∧
  ∀ token ∈ w.accessTokens, ∀ payload ∈ crypto.verifyAccess w.now token, payload.sub = u →
    ∀ doc ∈ w.store.sessions, ¬ Fits payload doc

instance (u : String) : Decidable (Unprivileged crypto w u) :=
  inferInstanceAs (Decidable (∀ token ∈ w.accessTokens, _))

instance (u : String) : Decidable (Sessionless crypto w u) := inferInstanceAs (Decidable (_ ∧ _))

/-- The condition on a step: a regular user whose password is changed holds no access token
    with the admin role; if it is changed with an e-mailed token, no session fits a token of
    the user and no device is active. -/
def Clean : Op → Prop
  | .request (.resetPassword token _ _) =>
    ∀ user ∈ matchedUser crypto token (w.store.users.filter (hasValidResetToken w.now)),
      regular user = true →
        Unprivileged crypto w user.id ∧ Sessionless crypto w user.id ∧
          truthy user.activeDeviceId = false
  | .request (.adminResetPassword userId dto _) =>
    dto.newPassword = dto.confirmPassword →
      ∀ user ∈ w.store.users.find? (·.id == userId), regular user = true →
        Unprivileged crypto w user.id
  | _ => True

/-- Session ids and the `_id`s of new users are drawn afresh, and a refresh token that verifies
    was issued. -/
def Genuine : Op → Prop
  | .login _ sid _              => sid ∉ w.sids
  | .refresh token sid _        =>
    sid ∉ w.sids ∧ ((crypto.verifyRefresh w.now token).isSome = true → token ∈ w.refreshTokens)
  | .request (.register _ id _) => id ∉ w.store.users.map User.id
  | _                           => True

instance (op : Op) : Decidable (Clean crypto w op) := by
  unfold Clean
  split <;> infer_instance

instance : ∀ op, Decidable (Genuine crypto w op)
  | .login ..      => inferInstanceAs (Decidable (_ ∉ _))
  | .refresh ..    => inferInstanceAs (Decidable (_ ∧ _))
  | .updateUser .. => inferInstanceAs (Decidable True)
  | .request r     => by
    cases r with
    | register => exact inferInstanceAs (Decidable (_ ∉ _))
    | _ => exact inferInstanceAs (Decidable True)
  | .pass ..       => inferInstanceAs (Decidable True)

end Semantics

/-! ## The sessions -/

/-- Each user and device has one document, and each session id that was drawn at most one. -/
structure Sessions (sids : List String) (s : Store) : Prop where
  keyed : Keyed Session.key s.sessions
  drawn : ∀ doc ∈ s.sessions, doc.sessionId ∈ sids
  single : ∀ d ∈ s.sessions, ∀ doc ∈ s.sessions, doc.sessionId = d.sessionId → doc = d

namespace Sessions

variable {sids : List String} {s s' : Store}

theorem quiet (h : Sessions sids s) (hkeyed : Keyed Session.key s'.sessions)
    (hopens : Opens (fun _ => False) s s') : Sessions sids s' := by
  refine ⟨hkeyed, fun doc hdoc => ?_, fun d hd doc hdoc hsid => ?_⟩
  · rcases hopens doc hdoc with hfalse | ⟨old, hold, -, -, hsid, -⟩
    · exact hfalse.elim
    · exact hsid ▸ h.drawn old hold
  · rcases hopens d hd with hfalse | ⟨old, hold, huser, hdevice, hdsid, -⟩
    · exact hfalse.elim
    rcases hopens doc hdoc with hfalse | ⟨old', hold', huser', hdevice', hdsid', -⟩
    · exact hfalse.elim
    obtain rfl := h.single old hold old' hold' (hdsid'.symm.trans (hsid.trans hdsid))
    exact hkeyed.eq_of_key hdoc hd
      (Prod.ext (huser'.trans huser.symm) (hdevice'.trans hdevice.symm))

theorem clear (h : Sessions sids s) (userId : String) : Sessions sids (s.clearSessions userId) :=
  h.quiet h.keyed.deleteMany (.of_sub fun _ hdoc => (Session.mem_clearSessions.mp hdoc).1)

/-- A session is opened under a new id. -/
theorem openSession (h : Sessions sids s) {doc : Session} (hfresh : doc.sessionId ∉ sids) :
    Sessions (doc.sessionId :: sids) (doc.open s) := by
  have hmem : ∀ d ∈ (doc.open s).sessions, d = doc ∨ d ∈ s.sessions := fun _ => Session.of_mem_put
  refine ⟨Session.keyed_put h.keyed, fun d hd => ?_, fun d hd d' hd' hsid => ?_⟩
  · rcases hmem d hd with rfl | hd
    · exact List.mem_cons_self
    · exact List.mem_cons_of_mem _ (h.drawn d hd)
  · rcases hmem d hd with rfl | hold
    · rcases hmem d' hd' with rfl | hold'
      · rfl
      · exact absurd (hsid ▸ h.drawn d' hold') hfresh
    · rcases hmem d' hd' with rfl | hold'
      · exact absurd (hsid ▸ h.drawn d hold) hfresh
      · exact h.single d hold d' hold' hsid

theorem mono (h : Sessions sids s) (sid : String) : Sessions (sid :: sids) s :=
  ⟨h.keyed, fun doc hdoc => List.mem_cons_of_mem _ (h.drawn doc hdoc), h.single⟩

/-- The lookup by session id finds the document. -/
theorem find (h : Sessions sids s) {payload : JwtPayload} {doc : Session} (hdoc : doc ∈ s.sessions)
    (hfits : Fits payload doc) : s.sessions.find? (·.sessionId == payload.sid) = some doc :=
  find?_eq_some_of_unique hdoc (by simp [hfits.1]) fun d hd hsid =>
    h.single doc hdoc d hd ((beq_iff_eq.mp hsid).trans hfits.1.symm)

end Sessions

/-! ## The users -/

/-- Each user has one document, and each address one user. -/
structure Users (s : Store) : Prop where
  keyed : Keyed User.id s.users
  emails : ∀ u ∈ s.users, ∀ v ∈ s.users, u.email = v.email → u.id = v.id

/-- The address and the password are the same, and no other device is active. -/
def SameLogin (user user' : User) : Prop :=
  user'.email = user.email ∧ user'.passwordHash = user.passwordHash ∧
    (user'.activeDeviceId = user.activeDeviceId ∨ user'.activeDeviceId = none)

theorem permits_sameLogin : Permits SameLogin :=
  ⟨fun _ => ⟨rfl, rfl, .inl rfl⟩, fun _ => ⟨rfl, rfl, .inr rfl⟩, fun _ => ⟨rfl, rfl, .inr rfl⟩,
    fun _ _ _ _ _ _ => ⟨rfl, rfl, .inl rfl⟩, fun _ _ => ⟨rfl, rfl, .inl rfl⟩⟩

theorem SameLogin.trans {a b c : User} (h : SameLogin a b) (h' : SameLogin b c) : SameLogin a c := by
  obtain ⟨hemail, hpassword, hdevice⟩ := h
  obtain ⟨hemail', hpassword', hdevice'⟩ := h'
  refine ⟨hemail'.trans hemail, hpassword'.trans hpassword, ?_⟩
  rcases hdevice' with heq | hnone
  · exact heq ▸ hdevice
  · exact .inr hnone

/-- The users of `who` can log in as before, and users and addresses stay distinct. -/
structure Keeps (who : String → Prop) (s s' : Store) : Prop where
  users : Users s → Users s'
  same : ∀ user' ∈ s'.users, who user'.id →
    ∃ user ∈ s.users, user.id = user'.id ∧ SameLogin user user'

namespace Keeps

variable {who who' : String → Prop} {s s' s'' : Store}

theorem of_users (h : s'.users = s.users) : Keeps who s s' where
  users hs := ⟨h ▸ hs.keyed, h ▸ hs.emails⟩
  same user huser _ := ⟨user, h ▸ huser, rfl, permits_sameLogin.refl user⟩

theorem of_rewrites (h : Rewrites SameLogin s s') : Keeps who s s' where
  users hs := by
    refine ⟨h.keyed hs.keyed, fun u' hu' v' hv' hemail => ?_⟩
    obtain ⟨u, hu, huid, husame⟩ := h.users u' hu'
    obtain ⟨v, hv, hvid, hvsame⟩ := h.users v' hv'
    have hold : u.email = v.email := husame.1.symm.trans (hemail.trans hvsame.1)
    exact huid.trans ((hs.emails u hu v hv hold).trans hvid.symm)
  same user' huser' _ := by
    obtain ⟨user, huser, hid, hsame⟩ := h.users user' huser'
    exact ⟨user, huser, hid.symm, hsame⟩

theorem trans (h : Keeps who s s') (h' : Keeps who s' s'') : Keeps who s s'' where
  users hs := h'.users (h.users hs)
  same user'' huser'' hwho := by
    obtain ⟨user', huser', hid', hsame'⟩ := h'.same user'' huser'' hwho
    obtain ⟨user, huser, hid, hsame⟩ := h.same user' huser' (hid'.symm ▸ hwho)
    exact ⟨user, huser, hid.trans hid', hsame.trans hsame'⟩

theorem mono (h : Keeps who s s') (hwho : ∀ id, who' id → who id) : Keeps who' s s' :=
  ⟨h.users, fun user' huser' hid => h.same user' huser' (hwho _ hid)⟩

/-- The document of one user is written. -/
theorem modifyUser {userId : String} {f : User → User} (hid : ∀ user, (f user).id = user.id)
    (hemail : ∀ user, (f user).email = user.email) :
    Keeps (· ≠ userId) s (s.modifyUser userId f) where
  users hs := by
    refine ⟨hs.keyed.updateOne hid, ?_⟩
    have hsource : ∀ u' ∈ (s.modifyUser userId f).users,
        ∃ u ∈ s.users, u'.id = u.id ∧ u'.email = u.email := by
      intro u' hu'
      rcases of_mem_updateOne hu' with hu | ⟨u, hu, -, rfl⟩
      · exact ⟨u', hu, rfl, rfl⟩
      · exact ⟨u, hu, hid u, hemail u⟩
    intro u' hu' v' hv' heq
    obtain ⟨u, hu, huid, huemail⟩ := hsource u' hu'
    obtain ⟨v, hv, hvid, hvemail⟩ := hsource v' hv'
    exact huid.trans ((hs.emails u hu v hv (huemail.symm.trans (heq.trans hvemail))).trans hvid.symm)
  same user' huser' hne := by
    rcases of_mem_updateOne huser' with huser | ⟨user, -, hmatch, rfl⟩
    · exact ⟨user', huser, rfl, permits_sameLogin.refl user'⟩
    · exact absurd ((hid user).trans (beq_iff_eq.mp hmatch)) hne

theorem openSession {doc : Session} : Keeps (· ≠ doc.userId) s (doc.open s) :=
  (modifyUser (f := doc.fields) (fun _ => rfl) fun _ => rfl).trans (.of_users rfl)

theorem register {crypto : Crypto} {dto : RegisterDto} {id salt : String} {now : Nat}
    (hfresh : id ∉ s.users.map User.id) (hwho : ∀ id, who id → id ∈ s.users.map User.id) :
    Keeps who s ((register crypto dto id salt now).prog.run s).2 := by
  apply (register_settles crypto dto id salt now s).leaves (.of_users rfl)
  rintro new _ ⟨⟨params, -, -, rfl⟩, hemail, rfl⟩
  have hunused : ∀ u ∈ s.users, u.email ≠ (params.document id now).email := by
    simpa using hemail
  refine ⟨fun hs => ⟨hs.keyed.append hfresh, fun u hu v hv heq => ?_⟩, fun user huser hid => ?_⟩
  · rcases List.mem_append.mp hu with hu | hu
    · rcases List.mem_append.mp hv with hv | hv
      · exact hs.emails u hu v hv heq
      · obtain rfl := List.mem_singleton.mp hv
        exact absurd heq (hunused u hu)
    · obtain rfl := List.mem_singleton.mp hu
      rcases List.mem_append.mp hv with hv | hv
      · exact absurd heq.symm (hunused v hv)
      · obtain rfl := List.mem_singleton.mp hv
        rfl
  · rcases List.mem_append.mp huser with huser | huser
    · exact ⟨user, huser, rfl, permits_sameLogin.refl user⟩
    · obtain rfl := List.mem_singleton.mp huser
      exact absurd (hwho _ hid) hfresh

theorem deleteUser {userId actingAdminId : String} :
    Keeps who s ((deleteUser userId actingAdminId).prog.run s).2 := by
  apply (deleteUser_settles userId actingAdminId s).leaves (.of_users rfl)
  rintro _ _ rfl
  have hsub : ∀ user ∈ s.users.eraseP (·.id == userId), user ∈ s.users := fun _ =>
    List.mem_of_mem_eraseP
  exact ⟨fun hs => ⟨hs.keyed.sublist (List.eraseP_sublist.map _), fun u hu v hv =>
    hs.emails u (hsub u hu) v (hsub v hv)⟩,
    fun user huser _ => ⟨user, hsub user huser, rfl, permits_sameLogin.refl user⟩⟩

end Keeps

/-! ## The invariant -/

/-- The tokens of a change are refused, and no later session can fit them. -/
structure Retired (crypto : Crypto) (w : World) (c : Change) : Prop where
  refreshTokens : ∀ token ∈ c.refreshTokens, ∀ payload ∈ crypto.verifyRefresh w.now token,
    payload.sub = c.userId → payload.sid ∈ w.sids ∧
      ∀ doc ∈ w.store.sessions,
        ¬ (Fits payload doc ∧ crypto.compare token doc.refreshTokenHash = true)
  accessTokens : ∀ token ∈ c.accessTokens, ∀ payload ∈ crypto.verifyAccess w.now token,
    payload.sub = c.userId → payload.role ≠ .admin ∧ payload.sid ∈ w.sids ∧
      ∀ doc ∈ w.store.sessions, ¬ Fits payload doc

/-- The password is that of the user, no device is active, and no token can make one active. -/
structure Ready (crypto : Crypto) (w : World) (userId password : String) : Prop where
  user : ∀ user ∈ w.store.users, user.id = userId →
    (∃ salt, user.passwordHash = crypto.hash salt password) ∧ truthy user.activeDeviceId = false
  tokens : ∀ token ∈ w.refreshTokens, ∀ payload ∈ crypto.verifyRefresh w.now token,
    payload.sub = userId → ∀ doc ∈ w.store.sessions,
      ¬ (Fits payload doc ∧ crypto.compare token doc.refreshTokenHash = true)

/-- What holds before the users who are not approved are removed … -/
structure Core (crypto : Crypto) (w : World) : Prop where
  users : Users w.store
  sessions : Sessions w.sids w.store
  refreshSids : ∀ token ∈ w.refreshTokens, ∀ payload ∈ crypto.verifyRefresh w.now token,
    payload.sid ∈ w.sids
  accessSids : ∀ token ∈ w.accessTokens, ∀ payload ∈ crypto.verifyAccess w.now token,
    payload.sid ∈ w.sids
  changes : ∀ c ∈ w.changes, Retired crypto w c
  ready : ∀ entry ∈ w.ready, Ready crypto w entry.1 entry.2

/-- … and after. -/
structure Inv (crypto : Crypto) (w : World) : Prop extends Core crypto w where
  approved : ∀ entry ∈ w.ready, ∃ user ∈ w.store.users, user.id = entry.1 ∧ user.status = .approved

section Invariant

variable {crypto : Crypto} {w w' : World}

theorem inv_start {users : List User} (hids : Keyed User.id users)
    (hemails : Keyed User.email users) : Inv crypto (World.start users) where
  users := ⟨hids, fun _ hu _ hv heq => congrArg User.id (hemails.eq_of_key hu hv heq)⟩
  sessions := ⟨List.nodup_nil, by simp [World.start, Store.empty], by simp [World.start, Store.empty]⟩
  refreshSids := by simp [World.start]
  accessSids := by simp [World.start]
  changes := by simp [World.start]
  ready := by simp [World.start]
  approved := by simp [World.start]

theorem Core.prune (h : Core crypto w) : Inv crypto w.prune where
  users := h.users
  sessions := h.sessions
  refreshSids := h.refreshSids
  accessSids := h.accessSids
  changes c hc := ⟨(h.changes c hc).refreshTokens, (h.changes c hc).accessTokens⟩
  ready entry hentry :=
    have hready := h.ready entry (List.mem_of_mem_filter hentry)
    ⟨hready.user, hready.tokens⟩
  approved entry hentry := by
    obtain ⟨user, hfind, hstatus⟩ := Option.any_eq_true _ _ |>.mp (List.mem_filter.mp hentry).2
    exact ⟨user, List.mem_of_find?_eq_some hfind, by simpa using List.find?_some hfind,
      of_decide_eq_true hstatus⟩

/-! ## What the invariant gives -/

theorem Retired.ended {c : Change} (h : Retired crypto w c) : Ended crypto w c := by
  constructor
  · intro token htoken payload hverify hsub sid salt
    have hacc : accepts crypto token payload w.store = false := by
      by_contra hacc
      obtain ⟨doc, hdoc, hsid, huser, hdevice, hcompare⟩ := of_accepts (by simpa using hacc)
      exact (h.refreshTokens token htoken payload hverify hsub).2 doc hdoc
        ⟨⟨hsid, huser, hdevice⟩, hcompare⟩
    obtain ⟨e, he⟩ := refresh_run_refused ⟨w.now, sid, salt⟩ hverify hacc
    exact ⟨e, by rw [he]⟩
  · intro token htoken payload hverify hsub
    obtain ⟨hrole, -, hdocs⟩ := h.accessTokens token htoken payload hverify hsub
    exact JwtStrategy.validate_refuses hrole fun doc hdoc hsid huser hdevice =>
      hdocs doc hdoc ⟨hsid, huser, hdevice⟩

/-- A user is found by the address. -/
theorem Users.find {s : Store} (h : Users s) {user : User} (huser : user ∈ s.users) :
    s.users.find? (·.email == user.email) = some user :=
  find?_eq_some_of_unique huser (by simp) fun found hfound hemail =>
    h.keyed.eq_of_key hfound huser (h.emails found hfound user huser (by simpa using hemail))

theorem Inv.canLogIn (hcompare : ∀ salt text, crypto.compare text (crypto.hash salt text) = true)
    (h : Inv crypto w) {entry : String × String} (hentry : entry ∈ w.ready) :
    CanLogIn crypto w entry.1 entry.2 := by
  intro user huser hid deviceId sid salt
  obtain ⟨⟨drawn, hpassword⟩, hdevice⟩ := (h.ready entry hentry).user user huser hid
  obtain ⟨approved, happroved, happrovedId, hstatus⟩ := h.approved entry hentry
  obtain rfl := h.users.keyed.eq_of_key happroved huser (happrovedId.trans hid.symm)
  let dto : LoginDto := ⟨approved.email, entry.2, deviceId⟩
  have hfind : w.store.users.find? (·.email == dto.email) = some approved := h.users.find huser
  rw [login_run_ok crypto ⟨w.now, sid, salt⟩ hfind (hpassword ▸ hcompare drawn entry.2) hstatus
    fun hactive => absurd hactive.2.1 (by simp [hdevice])]
  rfl

theorem Inv.secured (hcompare : ∀ salt text, crypto.compare text (crypto.hash salt text) = true)
    (h : Inv crypto w) : Secured crypto w :=
  ⟨fun c hc => (h.changes c hc).ended, fun _ hentry => h.canLogIn hcompare hentry⟩

/-! ## Steps that change no password -/

/-- A session that is not new was there before. -/
theorem Fits.source {new : String → Prop} {s s' : Store} {payload : JwtPayload} {doc : Session}
    (h : Fits payload doc) (hopens : Opens new s s') (hnew : ¬ new payload.sid)
    (hdoc : doc ∈ s'.sessions) :
    ∃ d ∈ s.sessions, Fits payload d ∧ doc.refreshTokenHash = d.refreshTokenHash := by
  obtain ⟨hsid, huser, hdevice⟩ := h
  rcases hopens doc hdoc with hnew' | ⟨d, hd, hduser, hddevice, hdsid, hdhash⟩
  · exact absurd (hsid ▸ hnew') hnew
  · exact ⟨d, hd, ⟨hdsid ▸ hsid, hduser ▸ huser, hddevice ▸ hdevice⟩, hdhash⟩

/-- What a step does to the tokens, the sessions and the users, and who stays ready. -/
structure Evolves (crypto : Crypto) (w w' : World) : Prop where
  now : w.now ≤ w'.now
  sids : ∀ sid ∈ w.sids, sid ∈ w'.sids
  opens : Opens (fun sid => sid ∉ w.sids) w.store w'.store
  sessions : Sessions w'.sids w'.store
  refreshTokens : ∀ token ∈ w'.refreshTokens, token ∈ w.refreshTokens ∨
    ∀ payload ∈ crypto.verifyRefresh w'.now token,
      payload.sid ∈ w'.sids ∧ ∀ entry ∈ w'.ready, entry.1 ≠ payload.sub
  accessTokens : ∀ token ∈ w'.accessTokens, token ∈ w.accessTokens ∨
    ∀ payload ∈ crypto.verifyAccess w'.now token, payload.sid ∈ w'.sids
  changes : w'.changes = w.changes
  ready : ∀ entry ∈ w'.ready, entry ∈ w.ready
  keeps : Keeps (fun id => ∃ password, (id, password) ∈ w'.ready) w.store w'.store

theorem Retired.evolve (hcrypto : crypto.Lawful) {c : Change} (h : Retired crypto w c)
    (he : Evolves crypto w w') : Retired crypto w' c := by
  refine ⟨fun token htoken payload hverify hsub => ?_, fun token htoken payload hverify hsub => ?_⟩
  · obtain ⟨hdrawn, hdocs⟩ :=
      h.refreshTokens token htoken payload (hcrypto.refresh_earlier he.now hverify) hsub
    refine ⟨he.sids _ hdrawn, fun doc hdoc ⟨hfits, hcompare⟩ => ?_⟩
    obtain ⟨d, hd, hdfits, hhash⟩ := hfits.source he.opens (not_not_intro hdrawn) hdoc
    exact hdocs d hd ⟨hdfits, hhash ▸ hcompare⟩
  · obtain ⟨hrole, hdrawn, hdocs⟩ :=
      h.accessTokens token htoken payload (hcrypto.access_earlier he.now hverify) hsub
    refine ⟨hrole, he.sids _ hdrawn, fun doc hdoc hfits => ?_⟩
    obtain ⟨d, hd, hdfits, -⟩ := hfits.source he.opens (not_not_intro hdrawn) hdoc
    exact hdocs d hd hdfits

theorem Ready.evolve (hcrypto : crypto.Lawful) (h : Core crypto w) (he : Evolves crypto w w')
    {entry : String × String} (hentry : entry ∈ w'.ready) : Ready crypto w' entry.1 entry.2 := by
  have hready := h.ready entry (he.ready entry hentry)
  refine ⟨fun user' huser' hid' => ?_, fun token htoken payload hverify hsub => ?_⟩
  · obtain ⟨user, huser, hid, -, hpassword, hdevice⟩ :=
      he.keeps.same user' huser' ⟨entry.2, hid' ▸ hentry⟩
    obtain ⟨⟨salt, hsalt⟩, hnone⟩ := hready.user user huser (hid.trans hid')
    refine ⟨⟨salt, hpassword.trans hsalt⟩, ?_⟩
    rcases hdevice with heq | hcleared
    · exact heq ▸ hnone
    · exact hcleared ▸ rfl
  · rcases he.refreshTokens token htoken with hold | hnew
    · have hverify' := hcrypto.refresh_earlier he.now hverify
      rintro doc hdoc ⟨hfits, hcompare⟩
      obtain ⟨d, hd, hdfits, hhash⟩ :=
        hfits.source he.opens (not_not_intro (h.refreshSids token hold payload hverify')) hdoc
      exact hready.tokens token hold payload hverify' hsub d hd ⟨hdfits, hhash ▸ hcompare⟩
    · exact absurd hsub.symm ((hnew payload hverify).2 entry hentry)

theorem Core.evolve (hcrypto : crypto.Lawful) (h : Core crypto w) (he : Evolves crypto w w') :
    Core crypto w' where
  users := he.keeps.users h.users
  sessions := he.sessions
  refreshSids token htoken payload hverify := by
    rcases he.refreshTokens token htoken with hold | hnew
    · exact he.sids _ (h.refreshSids token hold payload (hcrypto.refresh_earlier he.now hverify))
    · exact (hnew payload hverify).1
  accessSids token htoken payload hverify := by
    rcases he.accessTokens token htoken with hold | hnew
    · exact he.sids _ (h.accessSids token hold payload (hcrypto.access_earlier he.now hverify))
    · exact hnew payload hverify
  changes c hc := (h.changes c (he.changes ▸ hc)).evolve hcrypto he
  ready _ hentry := .evolve hcrypto h he hentry

/-- A step that issues nothing and draws nothing. -/
theorem Inv.quiet (hcrypto : crypto.Lawful) (h : Inv crypto w) {α : Type} {p : Db α}
    (hp : OpensOnly (fun _ => False) p)
    (hkeeps : Keeps (· ∈ w.store.users.map User.id) w.store (p.prog.run w.store).2) :
    Core crypto { w with store := (p.prog.run w.store).2 } := by
  have hopens := hp.run w.store
  refine h.toCore.evolve hcrypto ⟨le_rfl, fun _ => id, fun doc hdoc => ?_, ?_, fun _ => .inl,
    fun _ => .inl, rfl, fun _ => id, hkeeps.mono ?_⟩
  · exact (hopens doc hdoc).imp_left False.elim
  · exact h.sessions.quiet (hp.keyed h.sessions.keyed) hopens
  · rintro id ⟨password, hentry⟩
    obtain ⟨user, huser, rfl, -⟩ := h.approved _ hentry
    exact List.mem_map_of_mem huser

/-- A session id is drawn, and the store stays as it is. -/
theorem Core.draw (hcrypto : crypto.Lawful) (h : Core crypto w) (sid : String) :
    Core crypto { w with sids := sid :: w.sids } :=
  h.evolve hcrypto ⟨le_rfl, fun _ => List.mem_cons_of_mem _, .of_eq rfl, h.sessions.mono sid,
    fun _ => .inl, fun _ => .inl, rfl, fun _ => id, .of_users rfl⟩

/-- A session is opened for a user who is not ready afterwards, and tokens are issued for it. -/
theorem Core.openSession (hcrypto : crypto.Lawful) (h : Core crypto w) (doc : Session) {t : Store}
    (access refresh : List String) {ready : List (String × String)}
    (ht : t = w.store ∨ t = w.store.clearSessions doc.userId) (hfresh : doc.sessionId ∉ w.sids)
    (haccess : ∀ token ∈ access, ∀ payload ∈ crypto.verifyAccess w.now token,
      payload.sid = doc.sessionId)
    (hrefresh : ∀ token ∈ refresh, ∀ payload ∈ crypto.verifyRefresh w.now token,
      payload.sid = doc.sessionId ∧ payload.sub = doc.userId)
    (hready : ∀ entry ∈ ready, entry ∈ w.ready ∧ entry.1 ≠ doc.userId) :
    Core crypto { w with
      store := doc.open t
      accessTokens := access ++ w.accessTokens
      refreshTokens := refresh ++ w.refreshTokens
      sids := doc.sessionId :: w.sids
      ready } := by
  have hsessions : Sessions w.sids t := by
    rcases ht with rfl | rfl
    · exact h.sessions
    · exact h.sessions.clear doc.userId
  have hsub : ∀ d ∈ t.sessions, d ∈ w.store.sessions := by
    rcases ht with rfl | rfl
    · exact fun _ => id
    · exact fun _ hd => (Session.mem_clearSessions.mp hd).1
  have husers : t.users = w.store.users := by
    rcases ht with rfl | rfl <;> rfl
  have hopened : Keeps (· ≠ doc.userId) t (doc.open t) := .openSession
  refine h.evolve hcrypto ⟨le_rfl, fun _ => List.mem_cons_of_mem _, fun d hd => ?_,
    hsessions.openSession hfresh, fun token htoken => ?_, fun token htoken => ?_, rfl,
    fun entry hentry => (hready entry hentry).1, ?_⟩
  · rcases Session.of_mem_put hd with rfl | hold
    · exact .inl hfresh
    · exact .inr ⟨d, hsub d hold, rfl, rfl, rfl, rfl⟩
  · rcases List.mem_append.mp htoken with hnew | hold
    · refine .inr fun payload hverify => ?_
      obtain ⟨hsid, huser⟩ := hrefresh token hnew payload hverify
      exact ⟨hsid ▸ List.mem_cons_self, fun entry hentry => huser ▸ (hready entry hentry).2⟩
    · exact .inl hold
  · rcases List.mem_append.mp htoken with hnew | hold
    · exact .inr fun payload hverify => haccess token hnew payload hverify ▸ List.mem_cons_self
    · exact .inl hold
  · apply ((Keeps.of_users husers).trans hopened).mono
    rintro id ⟨password, hentry⟩
    exact (hready _ hentry).2

/-- A session is opened and one token of each kind is issued for it. -/
theorem Core.issue (hcrypto : crypto.Lawful) (h : Core crypto w) (doc : Session) {t : Store}
    {access refresh : JwtPayload} {ready : List (String × String)}
    (ht : t = w.store ∨ t = w.store.clearSessions doc.userId) (hfresh : doc.sessionId ∉ w.sids)
    (haccess : access.sid = doc.sessionId)
    (hrefresh : refresh.sid = doc.sessionId ∧ refresh.sub = doc.userId)
    (hready : ∀ entry ∈ ready, entry ∈ w.ready ∧ entry.1 ≠ doc.userId) :
    Core crypto { w with
      store := doc.open t
      accessTokens := crypto.signAccess w.now access :: w.accessTokens
      refreshTokens := crypto.signRefresh w.now refresh :: w.refreshTokens
      sids := doc.sessionId :: w.sids
      ready } := by
  refine h.openSession hcrypto doc [_] [_] ht hfresh (fun token htoken payload hverify => ?_)
    (fun token htoken payload hverify => ?_) hready
  · obtain rfl := List.mem_singleton.mp htoken
    rw [hcrypto.access_payload hverify]
    exact haccess
  · obtain rfl := List.mem_singleton.mp htoken
    rw [hcrypto.refresh_payload hverify]
    exact hrefresh

theorem Core.login (hcrypto : crypto.Lawful) (h : Core crypto w) (dto : LoginDto) {sid : String}
    (salt : String) (hfresh : sid ∉ w.sids) : Core crypto (afterLogin crypto w dto sid salt) := by
  have hsettles := login_settles crypto dto ⟨w.now, sid, salt⟩ w.store
  unfold afterLogin
  cases hout : ((AuthService.login crypto dto ⟨w.now, sid, salt⟩).prog.run w.store).1 with
  | error e =>
    simp only [hout, hsettles.of_error hout]
    exact h.draw hcrypto sid
  | ok response =>
    obtain ⟨user, -, -, rfl, hstore⟩ := hsettles.of_ok hout
    simp only [hout, hstore]
    refine h.issue hcrypto (opened crypto dto ⟨w.now, sid, salt⟩ user) ?_ hfresh rfl ⟨rfl, rfl⟩
      fun entry hentry => ?_
    · split
      · exact .inr rfl
      · exact .inl rfl
    · exact ⟨List.mem_of_mem_filter hentry, of_decide_eq_true (List.mem_filter.mp hentry).2⟩

theorem Core.refresh (hcrypto : crypto.Lawful) (h : Core crypto w) {token sid : String}
    (salt : String) (hfresh : sid ∉ w.sids)
    (hissued : (crypto.verifyRefresh w.now token).isSome = true → token ∈ w.refreshTokens) :
    Core crypto (afterRefresh crypto w token sid salt) := by
  obtain ⟨e, he⟩ | ⟨payload, hverify, hacc, hstore⟩ :=
    refresh_run_cases crypto token ⟨w.now, sid, salt⟩ w.store
  · simp only [afterRefresh, he]
    exact h.draw hcrypto sid
  -- The token fits a session, so its user is not ready.
  have hready : ∀ entry ∈ w.ready, entry ∈ w.ready ∧ entry.1 ≠ payload.sub := by
    refine fun entry hentry => ⟨hentry, fun hid => ?_⟩
    obtain ⟨doc, hdoc, hsid, huser, hdevice, hcompare⟩ := of_accepts hacc
    exact (h.ready entry hentry).tokens token (hissued (Option.isSome_of_eq_some hverify)) payload
      hverify hid.symm doc hdoc ⟨⟨hsid, huser, hdevice⟩, hcompare⟩
  unfold afterRefresh
  cases hout : ((AuthService.refresh crypto token ⟨w.now, sid, salt⟩).prog.run w.store).1 with
  | error e =>
    simp only [hout, hstore]
    exact h.openSession hcrypto (rotated crypto payload ⟨w.now, sid, salt⟩) [] [] (.inl rfl) hfresh
      (by simp) (by simp) hready
  | ok response =>
    obtain ⟨-, user, -, haccess, hrefresh⟩ := refresh_run_ok hverify hout
    simp only [hout, hstore, haccess, hrefresh]
    exact h.issue hcrypto (rotated crypto payload ⟨w.now, sid, salt⟩) (.inl rfl) hfresh rfl
      ⟨rfl, rfl⟩ hready

/-! ## Changes of a password -/

/-- The tokens of a user without privileges and sessions are retired. -/
theorem Core.retire (h : Core crypto w) {u : String} (hprivileges : Unprivileged crypto w u)
    (hsessions : Sessionless crypto w u) :
    Retired crypto w ⟨u, w.accessTokens, w.refreshTokens⟩ :=
  ⟨fun token htoken payload hverify hsub =>
    ⟨h.refreshSids token htoken payload hverify, hsessions.1 token htoken payload hverify hsub⟩,
    fun token htoken payload hverify hsub =>
      ⟨hprivileges token htoken payload hverify hsub, h.accessSids token htoken payload hverify,
        hsessions.2 token htoken payload hverify hsub⟩⟩

/-- A change of the password is recorded in a world that is as it should be for the others. -/
theorem Core.record {u : User} {password : String}
    (h : Core crypto { w with ready := w.ready.filter (·.1 ≠ u.id) })
    (huser : regular u = true → Unprivileged crypto w u.id ∧ Sessionless crypto w u.id ∧
      ∀ user ∈ w.store.users, user.id = u.id →
        (∃ salt, user.passwordHash = crypto.hash salt password) ∧
          truthy user.activeDeviceId = false) : Core crypto (w.record u password) := by
  unfold World.record
  split
  next hregular =>
    obtain ⟨hprivileges, hsessions, hdocs⟩ := huser hregular
    have hretired := h.retire hprivileges hsessions
    refine ⟨h.users, h.sessions, h.refreshSids, h.accessSids, fun c hc => ?_, fun entry hentry => ?_⟩
    · rcases List.mem_cons.mp hc with rfl | hold
      · exact ⟨hretired.refreshTokens, hretired.accessTokens⟩
      · exact ⟨(h.changes c hold).refreshTokens, (h.changes c hold).accessTokens⟩
    · rcases List.mem_cons.mp hentry with rfl | hold
      · exact ⟨hdocs, hsessions.1⟩
      · exact ⟨(h.ready entry hold).user, (h.ready entry hold).tokens⟩
  next => exact h

/-- A change writes no session and no other user. -/
theorem Inv.change (hcrypto : crypto.Lawful) (h : Inv crypto w) {u : User} {password : String}
    {store : Store} (hkeyed : Keyed Session.key store.sessions)
    (hopens : Opens (fun _ => False) w.store store) (hkeeps : Keeps (· ≠ u.id) w.store store)
    (huser : regular u = true → Unprivileged crypto w u.id ∧
      Sessionless crypto { w with store } u.id ∧ ∀ user ∈ store.users, user.id = u.id →
        (∃ salt, user.passwordHash = crypto.hash salt password) ∧
          truthy user.activeDeviceId = false) :
    Core crypto (World.record { w with store } u password) := by
  refine Core.record (h.toCore.evolve hcrypto ⟨le_rfl, fun _ => id, fun doc hdoc => ?_, ?_,
    fun _ => .inl, fun _ => .inl, rfl, fun _ => List.mem_of_mem_filter, hkeeps.mono ?_⟩) huser
  · exact (hopens doc hdoc).imp_left False.elim
  · exact h.sessions.quiet hkeyed hopens
  · rintro id ⟨password, hentry⟩
    exact of_decide_eq_true (List.mem_filter.mp hentry).2

theorem afterRequest_emailed {token : String} {user : User} (newPassword salt : String)
    (hmatched : matchedUser crypto token (w.store.users.filter (hasValidResetToken w.now)) =
      some user) :
    afterRequest crypto w (.resetPassword token newPassword salt) =
      World.record
        { w with
          store := w.store.modifyUser user.id (User.setPassword (crypto.hash salt newPassword)) }
        user newPassword := by
  simp only [afterRequest, Request.program, resetPassword_run newPassword salt hmatched, target,
    hmatched, Option.map_some]

theorem afterRequest_admin {user : User} {dto : ResetPasswordDto} (salt : String)
    (hsame : dto.newPassword = dto.confirmPassword)
    (hfind : w.store.users.find? (·.id == user.id) = some user) :
    afterRequest crypto w (.adminResetPassword user.id dto salt) =
      World.record
        { w with store := changePassword user.id (crypto.hash salt dto.newPassword) w.store }
        user dto.newPassword := by
  simp only [afterRequest, Request.program, Fallible.run_discard,
    resetPassword_run crypto salt hsame hfind, target, hfind, Option.map_some]
  rfl

theorem Inv.emailed (hcrypto : crypto.Lawful) (h : Inv crypto w) {token newPassword salt : String}
    (hclean : Clean crypto w (.request (.resetPassword token newPassword salt))) :
    Core crypto (afterRequest crypto w (.resetPassword token newPassword salt)) := by
  cases hfind : matchedUser crypto token (w.store.users.filter (hasValidResetToken w.now)) with
  | none =>
    obtain ⟨e, he⟩ := resetPassword_run_none newPassword salt hfind
    simp only [afterRequest, Request.program, he]
    exact h.toCore
  | some user =>
    have huser : user ∈ w.store.users :=
      (List.mem_filter.mp (List.mem_of_find?_eq_some hfind)).1
    rw [afterRequest_emailed newPassword salt hfind]
    refine h.change hcrypto h.sessions.keyed (.of_eq rfl)
      (.modifyUser (fun _ => rfl) fun _ => rfl) fun hregular => ?_
    obtain ⟨hprivileges, hsessions, hdevice⟩ := hclean user hfind hregular
    refine ⟨hprivileges, hsessions, fun user' huser' hid => ?_⟩
    rcases h.users.keyed.mem_updateOne.mp huser' with ⟨-, hne⟩ | ⟨old, hold, holdId, rfl⟩
    · exact absurd hid hne
    · obtain rfl := h.users.keyed.eq_of_key hold huser holdId
      exact ⟨⟨salt, rfl⟩, hdevice⟩

theorem Inv.adminReset (hcrypto : crypto.Lawful) (h : Inv crypto w) {userId : String}
    {dto : ResetPasswordDto} {salt : String}
    (hclean : Clean crypto w (.request (.adminResetPassword userId dto salt))) :
    Core crypto (afterRequest crypto w (.adminResetPassword userId dto salt)) := by
  rcases resetPassword_settles crypto userId dto salt w.store with
    ⟨e, he⟩ | ⟨-, -, -, ⟨hsame, user, hfind⟩, rfl⟩
  · simp only [afterRequest, Request.program, Fallible.run_discard, he]
    exact h.toCore
  obtain rfl : user.id = userId := by simpa using List.find?_some hfind
  rw [afterRequest_admin salt hsame hfind]
  have hcleared : ∀ doc ∈ (changePassword user.id (crypto.hash salt dto.newPassword)
      w.store).sessions, doc ∈ w.store.sessions ∧ doc.userId ≠ user.id := fun doc hdoc =>
    Session.mem_clearSessions.mp hdoc
  let written := w.store.modifyUser user.id fun user =>
    { user with passwordHash := crypto.hash salt dto.newPassword }
  have hwritten : Keeps (· ≠ user.id) w.store written := .modifyUser (fun _ => rfl) fun _ => rfl
  have hfields : Keeps (· ≠ user.id) (written.clearSessions user.id)
      (changePassword user.id (crypto.hash salt dto.newPassword) w.store) :=
    .modifyUser (fun _ => rfl) fun _ => rfl
  have hclear : Keeps (· ≠ user.id) written (written.clearSessions user.id) := .of_users rfl
  refine h.change hcrypto h.sessions.keyed.deleteMany (.of_sub fun doc hdoc => (hcleared doc hdoc).1)
    ((hwritten.trans hclear).trans hfields) fun hregular => ⟨hclean hsame user hfind hregular, ⟨?_, ?_⟩, ?_⟩
  · rintro token htoken payload hverify hsub doc hdoc ⟨⟨-, hdocUser, -⟩, -⟩
    exact (hcleared doc hdoc).2 (hdocUser.trans hsub)
  · rintro token htoken payload hverify hsub doc hdoc ⟨-, hdocUser, -⟩
    exact (hcleared doc hdoc).2 (hdocUser.trans hsub)
  · intro user' huser' hid
    have hkeyed := h.users.keyed.updateOne (p := (·.id == user.id)) (f := fun user =>
      { user with passwordHash := crypto.hash salt dto.newPassword }) fun _ => rfl
    rcases hkeyed.mem_updateOne.mp huser' with ⟨-, hne⟩ | ⟨changed, hchanged, hchangedId, rfl⟩
    · exact absurd hid hne
    rcases h.users.keyed.mem_updateOne.mp hchanged with ⟨-, hne⟩ | ⟨old, -, -, rfl⟩
    · exact absurd hchangedId hne
    · exact ⟨⟨salt, rfl⟩, rfl⟩

/-! ## Steps -/

/-- A request that changes no password. -/
theorem Inv.other (hcrypto : crypto.Lawful) (h : Inv crypto w) {r : Request}
    (hnone : target crypto w r = none)
    (hkeeps : Keeps (· ∈ w.store.users.map User.id) w.store
      ((r.program crypto w.now).prog.run w.store).2) : Core crypto (afterRequest crypto w r) := by
  have hafter : afterRequest crypto w r =
      { w with store := ((r.program crypto w.now).prog.run w.store).2 } := by
    unfold afterRequest
    rw [hnone]
    dsimp only
    split
    next heq => cases heq
    next => rfl
  exact hafter ▸ h.quiet hcrypto r.opensOnly hkeeps

theorem Inv.request (hcrypto : crypto.Lawful) (h : Inv crypto w) {r : Request}
    (hgenuine : Genuine crypto w (.request r)) (hclean : Clean crypto w (.request r)) :
    Core crypto (afterRequest crypto w r) := by
  have hwrites (hnone : target crypto w r = none) (hr : r.Writes SameLogin) :
      Core crypto (afterRequest crypto w r) :=
    h.other hcrypto hnone (.of_rewrites ((r.rewritesOnly permits_sameLogin hr).run
      permits_sameLogin.refl (fun _ _ _ => SameLogin.trans) w.store))
  cases r with
  | resetPassword token newPassword salt => exact h.emailed hcrypto hclean
  | adminResetPassword userId dto salt => exact h.adminReset hcrypto hclean
  | register dto newId salt =>
    apply h.other hcrypto rfl
    rw [Request.program, Fallible.run_discard]
    exact .register hgenuine fun _ => id
  | deleteUser userId actingAdminId =>
    apply h.other hcrypto rfl
    rw [Request.program, Fallible.run_discard]
    exact .deleteUser
  | requestPasswordReset => exact hwrites rfl fun _ _ _ => ⟨rfl, rfl, .inl rfl⟩
  | updateUserRole => exact hwrites rfl fun _ => ⟨rfl, rfl, .inl rfl⟩
  | approveAllPendingUsers => exact hwrites rfl fun _ _ => ⟨rfl, rfl, .inl rfl⟩
  | logout | updateMe | authenticated | resetUserDevice | sendApprovalEmail =>
    exact hwrites rfl trivial

/-- An update by an administrator writes neither the address nor the password. -/
theorem updateData_sameLogin (dto : UpdateUserDto) (existing : User) (now : Nat) (user : User) :
    SameLogin user (dto.updateData existing now user) := by
  obtain ⟨-, -, hdevice, -, -, hemail, hpassword⟩ := updateData_fields dto existing now user
  refine ⟨hemail, hpassword, ?_⟩
  rw [hdevice]
  split
  · exact .inr rfl
  · exact .inl rfl

theorem Inv.step (hcrypto : crypto.Lawful) (h : Inv crypto w) {op : Op}
    (hgenuine : Genuine crypto w op) (hclean : Clean crypto w op)
    (hstep : step crypto w op = some w') : Inv crypto w' := by
  cases op with
  | login dto sid salt =>
    obtain rfl := Option.some.inj hstep
    exact (h.toCore.login hcrypto dto salt hgenuine).prune
  | refresh token sid salt =>
    obtain rfl := Option.some.inj hstep
    exact (h.toCore.refresh hcrypto salt hgenuine.1 hgenuine.2).prune
  | updateUser userId dto transport =>
    obtain rfl := Option.some.inj hstep
    have hwrites : RewritesOnly SameLogin (AdminService.updateUser userId dto w.now transport) :=
      .adminUpdateUser permits_sameLogin
        (fun existing user => (updateData_fields dto existing w.now user).1)
        fun existing user => updateData_sameLogin dto existing w.now user
    exact (h.quiet hcrypto .updateUser (.of_rewrites
      (hwrites.run permits_sameLogin.refl (fun _ _ _ => SameLogin.trans) w.store))).prune
  | request r =>
    obtain rfl := Option.some.inj hstep
    exact (h.request hcrypto hgenuine hclean).prune
  | pass ms =>
    obtain rfl := Option.some.inj hstep
    exact ⟨h.toCore.evolve hcrypto ⟨Nat.le_add_right _ _, fun _ => id, .of_eq rfl, h.sessions,
      fun _ => .inl, fun _ => .inl, rfl, fun _ => id, .of_users rfl⟩, h.approved⟩

/-! ## What goes wrong otherwise -/

section Failures

variable {c : Change} {token : String} {payload : JwtPayload} {doc : Session} {user : User}
  {sids : List String}

theorem Ended.not_admin (h : Ended crypto w c) (htoken : token ∈ c.accessTokens)
    (hverify : crypto.verifyAccess w.now token = some payload) (hsub : payload.sub = c.userId)
    (huser : w.store.users.find? (·.id == c.userId) = some user) : payload.role ≠ .admin := by
  intro hrole
  obtain ⟨e, he⟩ := h.2 token htoken payload hverify hsub
  rw [JwtStrategy.validate_run_admin w.now hrole (by rw [hsub, huser]; rfl)] at he
  cases he

theorem Ended.not_fits_access (h : Ended crypto w c) (hsessions : Sessions sids w.store)
    (hdoc : doc ∈ w.store.sessions) (htoken : token ∈ c.accessTokens)
    (hverify : crypto.verifyAccess w.now token = some payload) (hsub : payload.sub = c.userId)
    (huser : w.store.users.find? (·.id == c.userId) = some user) : ¬ Fits payload doc := by
  intro hfits
  obtain ⟨e, he⟩ := h.2 token htoken payload hverify hsub
  have hok : ((JwtStrategy.validate payload w.now).prog.run w.store).1.isOk = true :=
    (JwtStrategy.validate_isOk_iff (h.not_admin htoken hverify hsub huser)).mpr
      ⟨by rw [hsub, huser]; rfl, doc, hsessions.find hdoc hfits, hfits.2.1, hfits.2.2⟩
  rw [he] at hok
  cases hok

theorem Ended.not_fits_refresh (h : Ended crypto w c) (hsessions : Sessions sids w.store)
    (hdoc : doc ∈ w.store.sessions) (htoken : token ∈ c.refreshTokens)
    (hverify : crypto.verifyRefresh w.now token = some payload) (hsub : payload.sub = c.userId)
    (huser : w.store.users.find? (·.id == c.userId) = some user) :
    ¬ (Fits payload doc ∧ crypto.compare token doc.refreshTokenHash = true) := by
  rintro ⟨hfits, hcompare⟩
  obtain ⟨e, he⟩ := h.1 token htoken payload hverify hsub "" ""
  have hacc : accepts crypto token payload w.store = true := by
    simp [accepts, hsessions.find hdoc hfits, hfits.2.1, hfits.2.2, hcompare]
  rw [refresh_run_accepted hverify hacc (hsub ▸ huser)] at he
  cases he

/-- A regular user with an active device cannot log in from another one. -/
theorem CanLogIn.not_active {userId password : String} (h : CanLogIn crypto w userId password)
    (husers : Users w.store) (huser : user ∈ w.store.users) (hid : user.id = userId)
    (hrole : user.role ≠ .admin) : truthy user.activeDeviceId = false := by
  by_contra hactive
  obtain ⟨deviceId, hother⟩ : ∃ deviceId, user.activeDeviceId ≠ some deviceId := by
    by_cases hphone : user.activeDeviceId = some "phone"
    · exact ⟨"tablet", by simp [hphone]⟩
    · exact ⟨"phone", hphone⟩
  have hok := h user huser hid deviceId "" ""
  rcases login_settles crypto ⟨user.email, password, deviceId⟩ ⟨w.now, "", ""⟩ w.store with
    ⟨e, he⟩ | ⟨response, s', -, found, hfind, hdevice, -⟩
  · rw [he] at hok
    cases hok
  · obtain rfl := Option.some.inj ((husers.find huser).symm.trans hfind)
    exact hother (hdevice hrole (by simpa using hactive))

end Failures

/-- What a change records of a regular user. -/
theorem record_of_regular {user : User} {password : String} (h : regular user = true) :
    w.record user password = { w with
      changes := ⟨user.id, w.accessTokens, w.refreshTokens⟩ :: w.changes
      ready := (user.id, password) :: w.ready.filter (·.1 ≠ user.id) } :=
  if_pos h

theorem Inv.emailed_breaks (h : Inv crypto w) {token newPassword salt : String}
    (hclean : ¬ Clean crypto w (.request (.resetPassword token newPassword salt))) :
    ¬ Secured crypto (afterRequest crypto w (.resetPassword token newPassword salt)).prune := by
  unfold Clean at hclean
  push Not at hclean
  obtain ⟨user, hmatched, hregular, hfail⟩ := hclean
  obtain ⟨hstatus, hrole⟩ : user.status = .approved ∧ user.role ≠ .admin := of_decide_eq_true hregular
  have huser : user ∈ w.store.users := (List.mem_filter.mp (List.mem_of_find?_eq_some hmatched)).1
  let update := User.setPassword (crypto.hash salt newPassword)
  let store := w.store.modifyUser user.id update
  have hfind : store.users.find? (·.id == user.id) = some (update user) :=
    find?_modifyUser (fun _ => rfl) (h.users.keyed.find?_eq_some huser)
  have hkeeps : Keeps (· ≠ user.id) w.store store := .modifyUser (fun _ => rfl) fun _ => rfl
  have hsessions : Sessions w.sids store := ⟨h.sessions.keyed, h.sessions.drawn, h.sessions.single⟩
  rw [afterRequest_emailed newPassword salt hmatched, record_of_regular hregular]
  rintro ⟨hchanges, hready⟩
  have hended := hchanges ⟨user.id, w.accessTokens, w.refreshTokens⟩ List.mem_cons_self
  have hentry : (user.id, newPassword) ∈ ((user.id, newPassword) ::
      w.ready.filter (·.1 ≠ user.id)).filter fun entry =>
        (store.users.find? (·.id == entry.1)).any (·.status = .approved) := by
    refine List.mem_filter.mpr ⟨List.mem_cons_self, ?_⟩
    rw [hfind]
    exact decide_eq_true hstatus
  refine hfail (fun token htoken payload hverify hsub => ?_)
    ⟨fun token htoken payload hverify hsub doc hdoc => ?_,
      fun token htoken payload hverify hsub doc hdoc => ?_⟩ ?_
  · exact hended.not_admin htoken hverify hsub hfind
  · exact hended.not_fits_refresh hsessions hdoc htoken hverify hsub hfind
  · exact hended.not_fits_access hsessions hdoc htoken hverify hsub hfind
  · have hmem : update user ∈ store.users := List.mem_of_find?_eq_some hfind
    have hdevice : truthy (update user).activeDeviceId = false :=
      (hready _ hentry).not_active (hkeeps.users h.users) hmem rfl hrole
    exact hdevice

theorem adminReset_breaks {userId : String} {dto : ResetPasswordDto} {salt : String}
    (hclean : ¬ Clean crypto w (.request (.adminResetPassword userId dto salt))) :
    ¬ Secured crypto (afterRequest crypto w (.adminResetPassword userId dto salt)).prune := by
  unfold Clean at hclean
  push Not at hclean
  obtain ⟨hsame, user, hfind, hregular, hprivileged⟩ := hclean
  rw [Option.mem_def] at hfind
  obtain rfl : user.id = userId := by simpa using List.find?_some hfind
  have hwritten := find?_modifyUser (f := fun user =>
    { user with passwordHash := crypto.hash salt dto.newPassword }) (fun _ => rfl) hfind
  have hstill : (changePassword user.id (crypto.hash salt dto.newPassword) w.store).users.find?
      (·.id == user.id) = some _ := find?_modifyUser (f := User.clearFields) (fun _ => rfl) hwritten
  rw [afterRequest_admin salt hsame hfind, record_of_regular hregular]
  rintro ⟨hchanges, -⟩
  have hended := hchanges ⟨user.id, w.accessTokens, w.refreshTokens⟩ List.mem_cons_self
  exact hprivileged fun token htoken payload hverify hsub =>
    hended.not_admin htoken hverify hsub hstill

theorem Inv.breaks (h : Inv crypto w) {op : Op} (hclean : ¬ Clean crypto w op)
    (hstep : PasswordChange.step crypto w op = some w') : ¬ Secured crypto w' := by
  have htrivial (hop : Clean crypto w op) : ¬ Secured crypto w' := absurd hop hclean
  cases op with
  | request r =>
    obtain rfl := Option.some.inj hstep
    cases r with
    | resetPassword token newPassword salt => exact h.emailed_breaks hclean
    | adminResetPassword userId dto salt => exact adminReset_breaks hclean
    | _ => exact htrivial trivial
  | _ => exact htrivial trivial

end Invariant

/-- In every run, password changes end the old sessions and let the user log in exactly if
    each of them finds nothing that it leaves. -/
theorem changes_secure (crypto : Crypto) (hcrypto : crypto.Lawful)
    (hcompare : ∀ salt text, crypto.compare text (crypto.hash salt text) = true)
    (users : List User) (hids : Keyed User.id users) (hemails : Keyed User.email users)
    (ops : List Op)
    (hgenuine : Trace.AllSteps (step crypto) (Genuine crypto) (World.start users) ops) :
    Trace.AllStates (step crypto) (Secured crypto) (World.start users) ops ↔
      Trace.AllSteps (step crypto) (Clean crypto) (World.start users) ops :=
  Trace.allStates_iff_allSteps_of (J := Inv crypto) (fun _ => Inv.secured hcompare)
    (fun _ _ _ h hgenuine hclean hstep => h.step hcrypto hgenuine hclean hstep)
    (fun _ _ _ h _ hclean hstep => h.breaks hclean hstep)
    (inv_start hids hemails) hgenuine

/-! ## The resident forgets the password -/

open CurrentToken (truncating truncating_lawful truncating_compare)
open ForcedLogout (phoneLogin)

def requestReset : Op :=
  .request (.requestPasswordReset resident.email 60 "token" "salt" "https://mitzpe6-8.com" .accepts)

def emailedReset : Op := .request (.resetPassword "token" "new secret" "salt")

/-- The phone is still logged in after the change, and its token is accepted. -/
theorem emailed_keeps_session :
    ¬ Trace.AllStates (step truncating) (Secured truncating) (World.start [resident])
      [phoneLogin, requestReset, emailedReset] := by
  intro hall
  have h : (Trace.exec (step truncating) (World.start [resident])
      [phoneLogin, requestReset, emailedReset]).any (fun w =>
        (w.changes.any fun c => c.userId = phonePayload.sub ∧ phoneToken ∈ c.refreshTokens) = true ∧
        truncating.verifyRefresh w.now phoneToken = some phonePayload ∧
        ((refresh truncating phoneToken ⟨w.now, "s1", "salt"⟩).prog.run w.store).1.isOk = true) =
      true := by decide +kernel
  obtain ⟨w, hw, hend⟩ := Option.any_eq_true _ _ |>.mp h
  simp only [decide_eq_true_eq] at hend
  obtain ⟨hchange, hverify, hok⟩ := hend
  obtain ⟨c, hc, hmatch⟩ := List.any_eq_true.mp hchange
  obtain ⟨hsub, htoken⟩ := of_decide_eq_true hmatch
  obtain ⟨e, he⟩ := ((hall.last hw).1 c hc).1 phoneToken htoken phonePayload hverify hsub.symm "s1" "salt"
  rw [he] at hok
  cases hok

/-- An administrator changes the password while the phone is logged in, and the resident
    changes it once more after logging out. -/
theorem changes_secure_loggedOut :
    Trace.AllStates (step truncating) (Secured truncating) (World.start [resident])
      [phoneLogin, .request (.adminResetPassword resident.id ⟨"secret2", "secret2"⟩ "salt"),
        .refresh phoneToken "s1" "salt", .login ⟨resident.email, "secret2", "tablet"⟩ "s2" "salt",
        .request (.logout resident.id "tablet"), requestReset, emailedReset,
        .login ⟨resident.email, "new secret", "phone"⟩ "s3" "salt"] :=
  (changes_secure truncating truncating_lawful truncating_compare [resident] (by decide)
    (by decide) _ (by decide +kernel)).mpr (by decide +kernel)

end Backend.PasswordChange
