-- SUMMARY: Sequential runs of the backend: when a user whom an administrator has logged out stays logged out until the next login.
import ParkingGate.Backend.SessionEffects

/-!
# Forced logout

`AdminService.updateUser` logs a user out by clearing the session fields of the user
document. It does not touch the session documents, which `refresh` and `validate`
read. The logout is final if no session document fits a token of the user when it
happens (and no unexpired access token carries the admin role, which `validate` does
not look up): later operations open sessions under new ids only, so a token that
fits no document then never fits one again.
-/

namespace Backend.ForcedLogout

open AuthService AdminService

/-! ## Runs -/

/-- The operations that issue no token. -/
inductive Request where
  | register (dto : RegisterDto) (id salt : String)
  | logout (userId deviceId : String)
  | updateMe (userId : String) (dto : UpdateMeDto)
  | requestPasswordReset (email : String) (expiryMinutes : Nat) (token salt homepageUrl : String)
      (transport : Transport)
  | resetPassword (token newPassword salt : String)
  | authenticated (accessToken : String)
  | updateUserRole (userId : String) (role : UserRole)
  | adminResetPassword (userId : String) (dto : ResetPasswordDto) (salt : String)
  | deleteUser (userId actingAdminId : String)
  | resetUserDevice (userId : String) (deviceId : Option String)
  | approveAllPendingUsers (transports : List Transport)
  | sendApprovalEmail (userId : String) (transport : Transport)

inductive Op where
  | login (dto : LoginDto) (sid salt : String)
  | refresh (token sid salt : String)
  | updateUser (userId : String) (dto : UpdateUserDto) (transport : Transport)
  | request (r : Request)
  | pass (ms : Nat)

/-- The guards of a request by a user. -/
def guarded (crypto : Crypto) (accessToken : String) (now : Nat) : Db Bool := do
  let authUser ← JwtStrategy.authenticate crypto accessToken now
  ApprovedGuard.canActivate authUser

def Request.program (crypto : Crypto) (now : Nat) : Request → Db Unit
  | register dto id salt => do let _ ← AuthService.register crypto dto id salt now
  | logout userId deviceId => AuthService.logout userId deviceId
  | updateMe userId dto => do let _ ← AuthService.updateMe userId dto
  | requestPasswordReset email expiryMinutes token salt homepageUrl transport =>
    AuthService.requestPasswordReset crypto email expiryMinutes now token salt homepageUrl transport
  | resetPassword token newPassword salt => AuthService.resetPassword crypto token newPassword salt now
  | authenticated accessToken => do let _ ← guarded crypto accessToken now
  | updateUserRole userId role => do let _ ← AdminService.updateUserRole userId role
  | adminResetPassword userId dto salt => do
    let _ ← AdminService.resetPassword crypto userId dto salt
  | deleteUser userId actingAdminId => do let _ ← AdminService.deleteUser userId actingAdminId
  | resetUserDevice userId deviceId => do let _ ← AdminService.resetUserDevice userId deviceId
  | approveAllPendingUsers transports => do
    let _ ← AdminService.approveAllPendingUsers now transports
  | sendApprovalEmail userId transport => AdminService.sendApprovalEmail userId now transport

/-- The store and the clock; the tokens issued and the session ids drawn so far; and the
    users whom an administrator has logged out and who have not logged in since. -/
structure World where
  store : Store
  now : Nat
  accessTokens : List String
  refreshTokens : List String
  sids : List String
  forcedOut : List String

def World.start (users : List User) : World where
  store := { Store.empty with users }
  now := 0
  accessTokens := []
  refreshTokens := []
  sids := []
  forcedOut := []

/-- A regular user exists under the id. -/
def regular (userId : String) (s : Store) : Bool :=
  (s.users.find? (·.id == userId)).any (·.role ≠ .admin)

section Semantics

variable (crypto : Crypto) (w : World)

def afterLogin (dto : LoginDto) (sid salt : String) : World :=
  let out := (login crypto dto ⟨w.now, sid, salt⟩).prog.run w.store
  match out.1 with
  | .ok response =>
    { w with
      store := out.2
      accessTokens := response.accessToken :: w.accessTokens
      refreshTokens := response.refreshToken :: w.refreshTokens
      sids := sid :: w.sids
      forcedOut := w.forcedOut.filter (· ≠ response.user.id) }
  | .error _ => { w with store := out.2, sids := sid :: w.sids }

def afterRefresh (token sid salt : String) : World :=
  let out := (refresh crypto token ⟨w.now, sid, salt⟩).prog.run w.store
  match out.1 with
  | .ok response =>
    { w with
      store := out.2
      accessTokens := response.accessToken :: w.accessTokens
      refreshTokens := response.refreshToken :: w.refreshTokens
      sids := sid :: w.sids }
  | .error _ => { w with store := out.2, sids := sid :: w.sids }

/-- A regular user whose status the call has set to one that forces the logout. -/
def afterUpdateUser (userId : String) (dto : UpdateUserDto) (transport : Transport) : World :=
  let out := (AdminService.updateUser userId dto w.now transport).prog.run w.store
  match out.1 with
  | .ok _ =>
    { w with
      store := out.2
      forcedOut :=
        if dto.status.any forcesLogout && regular userId w.store then userId :: w.forcedOut
        else w.forcedOut }
  | .error _ => { w with store := out.2 }

def step : Op → Option World
  | .login dto sid salt               => some (afterLogin crypto w dto sid salt)
  | .refresh token sid salt           => some (afterRefresh crypto w token sid salt)
  | .updateUser userId dto transport  => some (afterUpdateUser w userId dto transport)
  | .request r                        =>
    some { w with store := ((r.program crypto w.now).prog.run w.store).2 }
  | .pass ms                          => some { w with now := w.now + ms }

/-! ## Staying out, and the steps that allow it -/

/-- No token of a user who is forced out is accepted. -/
def StaysOut : Prop :=
  ∀ u ∈ w.forcedOut,
    (∀ token ∈ w.refreshTokens, ∀ payload, crypto.verifyRefresh w.now token = some payload →
      payload.sub = u → ∀ sid salt,
        ∃ e, ((refresh crypto token ⟨w.now, sid, salt⟩).prog.run w.store).1 = .error e) ∧
    ∀ token ∈ w.accessTokens, ∀ payload, crypto.verifyAccess w.now token = some payload →
      payload.sub = u →
        ∃ e, ((guarded crypto token w.now).prog.run w.store).1 = .error e

/-- No session document fits an unexpired token of the user, and no unexpired access token
    of the user carries the admin role. -/
def Unfit (u : String) : Prop :=
  (∀ token ∈ w.refreshTokens, ∀ payload ∈ crypto.verifyRefresh w.now token, payload.sub = u →
    ∀ doc ∈ w.store.sessions, ¬ (doc.sessionId = payload.sid ∧ doc.userId = u ∧
      doc.deviceId = payload.deviceId ∧ crypto.compare token doc.refreshTokenHash = true)) ∧
  ∀ token ∈ w.accessTokens, ∀ payload ∈ crypto.verifyAccess w.now token, payload.sub = u →
    payload.role ≠ .admin ∧
      ∀ doc ∈ w.store.sessions, ¬ (doc.sessionId = payload.sid ∧ doc.userId = u ∧
        doc.deviceId = payload.deviceId)

instance (u : String) : Decidable (Unfit crypto w u) := inferInstanceAs (Decidable (_ ∧ _))

/-- The call sets the status of a regular user to one that forces the logout, and has the
    reason it needs. -/
def forcesOut (userId : String) (dto : UpdateUserDto) : Bool :=
  dto.status.any (fun status =>
    forcesLogout status && !(status = .rejected && missingReason dto.rejectionReason)) &&
  regular userId w.store

/-- The condition on a step: a forced logout finds the tokens of the user unfit. -/
def Cleared : Op → Prop
  | .updateUser userId dto _ => forcesOut w userId dto = true → Unfit crypto w userId
  | _                        => True

instance (op : Op) : Decidable (Cleared crypto w op) := by
  cases op <;> unfold Cleared <;> infer_instance

/-- Session ids are drawn afresh, and a refresh token that verifies was issued. -/
def Genuine : Op → Prop
  | .login _ sid _       => sid ∉ w.sids
  | .refresh token sid _ =>
    sid ∉ w.sids ∧ ((crypto.verifyRefresh w.now token).isSome = true → token ∈ w.refreshTokens)
  | _                    => True

instance (op : Op) : Decidable (Genuine crypto w op) := by
  cases op <;> unfold Genuine <;> infer_instance

end Semantics

/-! ## What the operations do -/

theorem Request.opensOnly {crypto : Crypto} {now : Nat} (r : Request) :
    OpensOnly (fun _ => False) (r.program crypto now) := by
  have discard {α : Type} {p : Db α} (h : OpensOnly (fun _ => False) p) :
      OpensOnly (fun _ => False) (do let _ ← p) := h.bind fun _ => trivial
  cases r with
  | register => exact discard .register
  | logout => exact .logout
  | updateMe => exact discard .updateMe
  | requestPasswordReset => exact .requestPasswordReset
  | resetPassword => exact .resetPassword
  | authenticated => exact discard (.bind .authenticate fun _ => .canActivate)
  | updateUserRole => exact discard .updateUserRole
  | adminResetPassword => exact discard .adminResetPassword
  | deleteUser => exact discard .deleteUser
  | resetUserDevice => exact discard .resetUserDevice
  | approveAllPendingUsers => exact discard .approveAllPendingUsers
  | sendApprovalEmail => exact .sendApprovalEmail

/-- A call that is not refused had the reason it needs. -/
theorem updateUser_ok {userId : String} {dto : UpdateUserDto} {now : Nat} {transport : Transport}
    {s : Store} {user : User}
    (h : ((AdminService.updateUser userId dto now transport).prog.run s).1 = .ok user) :
    ∃ existing, s.users.find? (·.id == userId) = some existing ∧
      (dto.reasonRequired existing && missingReason dto.rejectionReason) = false := by
  unfold AdminService.updateUser UsersService.findById at h
  rw [Fallible.prog_atomically_bind, Prog.run_act] at h
  cases hfind : s.users.find? (·.id == userId) with
  | none =>
    simp only [hfind] at h
    cases h
  | some existing =>
    refine ⟨existing, rfl, ?_⟩
    simp only [hfind] at h
    by_contra hmissing
    simp only [Bool.not_eq_false] at hmissing
    simp only [hmissing, if_true] at h
    split at h <;> cases h

/-- Forcing a regular user out by a call that succeeds is what `forcesOut` describes. -/
theorem forcesOut_of_ok {w : World} {userId : String} {dto : UpdateUserDto}
    {transport : Transport} {user : User}
    (h : ((AdminService.updateUser userId dto w.now transport).prog.run w.store).1 = .ok user)
    (hforced : (dto.status.any forcesLogout && regular userId w.store) = true) :
    forcesOut w userId dto = true := by
  rw [Bool.and_eq_true] at hforced
  obtain ⟨status, hstatus, hlogout⟩ := Option.any_eq_true _ _ |>.mp hforced.1
  obtain ⟨existing, -, hreason⟩ := updateUser_ok h
  simp only [UpdateUserDto.reasonRequired, hstatus] at hreason
  simp only [forcesOut, hstatus, Option.any_some, hlogout, hforced.2, hreason, Bool.not_false,
    Bool.and_true]

/-! ## The invariant -/

/-- Every unexpired token that was issued carries a session id that was drawn, and no
    token of a user who is forced out fits a session. -/
structure Inv (crypto : Crypto) (w : World) : Prop where
  refreshSids : ∀ token ∈ w.refreshTokens, ∀ payload,
    crypto.verifyRefresh w.now token = some payload → payload.sid ∈ w.sids
  accessSids : ∀ token ∈ w.accessTokens, ∀ payload,
    crypto.verifyAccess w.now token = some payload → payload.sid ∈ w.sids
  unfit : ∀ u ∈ w.forcedOut, Unfit crypto w u

variable {crypto : Crypto}

theorem inv_start (users : List User) : Inv crypto (World.start users) :=
  ⟨by simp [World.start], by simp [World.start], by simp [World.start]⟩

/-- The tokens of a user whom they do not fit a session are refused. -/
theorem staysOut_of_inv {w : World} (h : Inv crypto w) : StaysOut crypto w := by
  intro u hu
  obtain ⟨hrefresh, haccess⟩ := h.unfit u hu
  constructor
  · intro token htoken payload hverify hsub sid salt
    have hacc : accepts crypto token payload w.store = false := by
      by_contra hacc
      obtain ⟨doc, hdoc, hsid, huser, hdevice, hcompare⟩ := of_accepts (by simpa using hacc)
      exact hrefresh token htoken payload hverify hsub doc hdoc
        ⟨hsid, huser.trans hsub, hdevice, hcompare⟩
    obtain ⟨e, he⟩ := refresh_run_refused ⟨w.now, sid, salt⟩ hverify hacc
    exact ⟨e, by rw [he]⟩
  · intro token htoken payload hverify hsub
    obtain ⟨hrole, hdocs⟩ := haccess token htoken payload hverify hsub
    obtain ⟨e, he⟩ : ∃ e, ((JwtStrategy.validate payload w.now).prog.run w.store).1 = .error e :=
      JwtStrategy.validate_refuses hrole fun doc hdoc hsid huser hdevice =>
        hdocs doc hdoc ⟨hsid, huser.trans hsub, hdevice⟩
    refine ⟨e, ?_⟩
    simp only [guarded, JwtStrategy.authenticate, hverify, Fallible.prog_bind, Prog.run_bind, he]
    rfl

/-- What a step does to the tokens and the sessions, and whom it leaves forced out. -/
structure Evolves (crypto : Crypto) (w w' : World) : Prop where
  now : w.now ≤ w'.now
  sids : ∀ sid ∈ w.sids, sid ∈ w'.sids
  sessions : Opens (fun sid => sid ∈ w'.sids ∧ sid ∉ w.sids) w.store w'.store
  refreshTokens : ∀ token ∈ w'.refreshTokens, token ∈ w.refreshTokens ∨
    ∀ payload, crypto.verifyRefresh w'.now token = some payload →
      payload.sid ∈ w'.sids ∧ payload.sub ∉ w'.forcedOut
  accessTokens : ∀ token ∈ w'.accessTokens, token ∈ w.accessTokens ∨
    ∀ payload, crypto.verifyAccess w'.now token = some payload →
      payload.sid ∈ w'.sids ∧ payload.sub ∉ w'.forcedOut
  forcedOut : ∀ u ∈ w'.forcedOut, u ∈ w.forcedOut ∨ Unfit crypto w u

/-- A step that evolves the world keeps the invariant: sessions are opened under new ids. -/
theorem Inv.evolve (hcrypto : crypto.Lawful) {w w' : World} (h : Inv crypto w)
    (he : Evolves crypto w w') : Inv crypto w' := by
  refine ⟨fun token htoken payload hverify => ?_, fun token htoken payload hverify => ?_,
    fun u hu => ⟨fun token htoken payload hverify hsub => ?_,
      fun token htoken payload hverify hsub => ?_⟩⟩
  · rcases he.refreshTokens token htoken with hold | hnew
    · exact he.sids _ (h.refreshSids token hold payload (hcrypto.refresh_earlier he.now hverify))
    · exact (hnew payload hverify).1
  · rcases he.accessTokens token htoken with hold | hnew
    · exact he.sids _ (h.accessSids token hold payload (hcrypto.access_earlier he.now hverify))
    · exact (hnew payload hverify).1
  · rcases he.refreshTokens token htoken with hold | hnew
    · have hverify' := hcrypto.refresh_earlier he.now hverify
      have hunfit := ((he.forcedOut u hu).elim (h.unfit u) id).1 token hold payload hverify' hsub
      rintro doc hdoc ⟨hsid, huser, hdevice, hcompare⟩
      rcases he.sessions doc hdoc with ⟨-, hfresh⟩ | ⟨d, hd, hduser, hddevice, hdsid, hdhash⟩
      · exact hfresh (hsid ▸ h.refreshSids token hold payload hverify')
      · exact hunfit d hd ⟨hdsid ▸ hsid, hduser ▸ huser, hddevice ▸ hdevice, hdhash ▸ hcompare⟩
    · exact absurd (hsub ▸ hu) (hnew payload hverify).2
  · rcases he.accessTokens token htoken with hold | hnew
    · have hverify' := hcrypto.access_earlier he.now hverify
      have hunfit := ((he.forcedOut u hu).elim (h.unfit u) id).2 token hold payload hverify' hsub
      refine ⟨hunfit.1, ?_⟩
      rintro doc hdoc ⟨hsid, huser, hdevice⟩
      rcases he.sessions doc hdoc with ⟨-, hfresh⟩ | ⟨d, hd, hduser, hddevice, hdsid, -⟩
      · exact hfresh (hsid ▸ h.accessSids token hold payload hverify')
      · exact hunfit.2 d hd ⟨hdsid ▸ hsid, hduser ▸ huser, hddevice ▸ hdevice⟩
    · exact absurd (hsub ▸ hu) (hnew payload hverify).2

/-! ## The steps -/

/-- A step that issues nothing and draws nothing. -/
theorem evolves_quiet {w : World} {store : Store} {forcedOut : List String}
    (hstore : Opens (fun _ => False) w.store store)
    (hforced : ∀ u ∈ forcedOut, u ∈ w.forcedOut ∨ Unfit crypto w u) :
    Evolves crypto w { w with store, forcedOut } where
  now := le_rfl
  sids _ h := h
  sessions doc hdoc := (hstore doc hdoc).imp_left False.elim
  refreshTokens _ h := .inl h
  accessTokens _ h := .inl h
  forcedOut := hforced

/-- Sessions opened under the id a step draws are new. -/
theorem opens_drawn {w : World} {store : Store} {sid : String} (hfresh : sid ∉ w.sids)
    (h : Opens (· = sid) w.store store) :
    Opens (fun sid' => sid' ∈ sid :: w.sids ∧ sid' ∉ w.sids) w.store store := by
  intro doc hdoc
  refine (h doc hdoc).imp_left fun hsid => ?_
  rw [hsid]
  exact ⟨List.mem_cons_self, hfresh⟩

/-- A step that draws a session id and fails. -/
theorem evolves_failed {w : World} {store : Store} {sid : String} (hfresh : sid ∉ w.sids)
    (h : Opens (· = sid) w.store store) :
    Evolves crypto w { w with store, sids := sid :: w.sids } where
  now := le_rfl
  sids _ := List.mem_cons_of_mem _
  sessions := opens_drawn hfresh h
  refreshTokens _ h := .inl h
  accessTokens _ h := .inl h
  forcedOut _ h := .inl h

/-- A step that issues a pair of tokens to a user who is not forced out afterwards. -/
theorem evolves_issued (hcrypto : crypto.Lawful) {w : World} {store : Store} {sid : String}
    {access refresh : JwtPayload} {forcedOut : List String} (hfresh : sid ∉ w.sids)
    (h : Opens (· = sid) w.store store) (haccess : access.sid = sid ∧ access.sub ∉ forcedOut)
    (hrefresh : refresh.sid = sid ∧ refresh.sub ∉ forcedOut)
    (hforced : ∀ u ∈ forcedOut, u ∈ w.forcedOut) :
    Evolves crypto w
      { w with
        store
        accessTokens := crypto.signAccess w.now access :: w.accessTokens
        refreshTokens := crypto.signRefresh w.now refresh :: w.refreshTokens
        sids := sid :: w.sids
        forcedOut } where
  now := le_rfl
  sids _ := List.mem_cons_of_mem _
  sessions := opens_drawn hfresh h
  refreshTokens token htoken := by
    rcases List.mem_cons.mp htoken with rfl | htoken
    · refine .inr fun payload hverify => ?_
      rw [hcrypto.refresh_payload hverify]
      exact ⟨by simp [hrefresh.1], hrefresh.2⟩
    · exact .inl htoken
  accessTokens token htoken := by
    rcases List.mem_cons.mp htoken with rfl | htoken
    · refine .inr fun payload hverify => ?_
      rw [hcrypto.access_payload hverify]
      exact ⟨by simp [haccess.1], haccess.2⟩
    · exact .inl htoken
  forcedOut u hu := .inl (hforced u hu)

theorem evolves_login (hcrypto : crypto.Lawful) {w : World} {dto : LoginDto} {sid salt : String}
    (hfresh : sid ∉ w.sids) : Evolves crypto w (afterLogin crypto w dto sid salt) := by
  have hstore : Opens (· = sid) w.store
      ((login crypto dto ⟨w.now, sid, salt⟩).prog.run w.store).2 := OpensOnly.login.run w.store
  have hreturns := (login_returns crypto dto ⟨w.now, sid, salt⟩).run (s := w.store) trivial
  simp only [afterLogin]
  cases hout : ((login crypto dto ⟨w.now, sid, salt⟩).prog.run w.store).1 with
  | error e => exact evolves_failed hfresh hstore
  | ok response =>
    have hresponse := hreturns.1 response hout
    have haccess : response.accessToken =
        buildAccessToken crypto w.now response.user dto.deviceId sid :=
      congrArg AuthUserResponse.accessToken hresponse
    have hrefresh : response.refreshToken =
        buildRefreshToken crypto w.now response.user.id response.user.role dto.deviceId sid :=
      congrArg AuthUserResponse.refreshToken hresponse
    simp only [haccess, hrefresh, buildAccessToken, buildRefreshToken]
    exact evolves_issued hcrypto hfresh hstore ⟨rfl, by simp⟩ ⟨rfl, by simp⟩
      fun u hu => List.mem_of_mem_filter hu

theorem evolves_refresh (hcrypto : crypto.Lawful) {w : World} (hinv : Inv crypto w)
    {token sid salt : String} (hfresh : sid ∉ w.sids)
    (hissued : (crypto.verifyRefresh w.now token).isSome = true → token ∈ w.refreshTokens) :
    Evolves crypto w (afterRefresh crypto w token sid salt) := by
  have hstore : Opens (· = sid) w.store
      ((AuthService.refresh crypto token ⟨w.now, sid, salt⟩).prog.run w.store).2 :=
    OpensOnly.refresh.run w.store
  simp only [afterRefresh]
  cases hout : ((AuthService.refresh crypto token ⟨w.now, sid, salt⟩).prog.run w.store).1 with
  | error e => exact evolves_failed hfresh hstore
  | ok response =>
    cases hverify : crypto.verifyRefresh w.now token with
    | none =>
      obtain ⟨e, he⟩ := refresh_prog_of_invalid ⟨w.now, sid, salt⟩ hverify
      rw [he] at hout
      cases hout
    | some payload =>
      obtain ⟨hacc, user, huser, haccess, hrefresh⟩ := refresh_run_ok hverify hout
      -- The token fits a session, so its user is not forced out.
      have hout : payload.sub ∉ w.forcedOut := by
        intro hu
        obtain ⟨doc, hdoc, hsid, hduser, hdevice, hcompare⟩ := of_accepts hacc
        exact (hinv.unfit _ hu).1 token (hissued (by simp [hverify])) payload hverify rfl doc hdoc
          ⟨hsid, hduser, hdevice, hcompare⟩
      simp only [haccess, hrefresh, buildAccessToken, buildRefreshToken]
      exact evolves_issued hcrypto hfresh hstore ⟨rfl, by rwa [huser]⟩ ⟨rfl, hout⟩ fun _ => id

theorem evolves_updateUser {w : World} {userId : String} {dto : UpdateUserDto}
    {transport : Transport} (h : forcesOut w userId dto = true → Unfit crypto w userId) :
    Evolves crypto w (afterUpdateUser w userId dto transport) := by
  have hstore : Opens (fun _ => False) w.store
      ((AdminService.updateUser userId dto w.now transport).prog.run w.store).2 :=
    OpensOnly.updateUser.run w.store
  simp only [afterUpdateUser]
  cases hout : ((AdminService.updateUser userId dto w.now transport).prog.run w.store).1 with
  | error e => exact evolves_quiet hstore fun _ => .inl
  | ok user =>
    refine evolves_quiet hstore fun u hu => ?_
    split at hu
    next hforced =>
      rcases List.mem_cons.mp hu with rfl | hu
      · exact .inr (h (forcesOut_of_ok hout hforced))
      · exact .inl hu
    next => exact .inl hu

theorem evolves_step (hcrypto : crypto.Lawful) {w w' : World} {op : Op} (hinv : Inv crypto w)
    (hgenuine : Genuine crypto w op) (hcleared : Cleared crypto w op)
    (hstep : step crypto w op = some w') : Evolves crypto w w' := by
  cases op with
  | login dto sid salt =>
    obtain rfl := Option.some.inj hstep
    exact evolves_login hcrypto hgenuine
  | refresh token sid salt =>
    obtain rfl := Option.some.inj hstep
    exact evolves_refresh hcrypto hinv hgenuine.1 hgenuine.2
  | updateUser userId dto transport =>
    obtain rfl := Option.some.inj hstep
    exact evolves_updateUser hcleared
  | request r =>
    obtain rfl := Option.some.inj hstep
    exact evolves_quiet (r.opensOnly.run w.store) fun _ => .inl
  | pass ms =>
    obtain rfl := Option.some.inj hstep
    exact ⟨Nat.le_add_right _ _, fun _ => id, .of_eq rfl, fun _ => .inl, fun _ => .inl, fun _ => .inl⟩

/-- In every run from a store without sessions whose forced logouts all find the tokens of
    the user unfit, a user who is forced out stays out until the next login. -/
theorem forcedOut_staysOut (hcrypto : crypto.Lawful) (users : List User) (ops : List Op)
    (hgenuine : Trace.AllSteps (step crypto) (Genuine crypto) (World.start users) ops)
    (hcleared : Trace.AllSteps (step crypto) (Cleared crypto) (World.start users) ops) :
    Trace.AllStates (step crypto) (StaysOut crypto) (World.start users) ops := by
  have hinv : Trace.AllStates (step crypto) (Inv crypto) (World.start users) ops :=
    Trace.allStates_of_allSteps
      (fun _ _ _ hinv hC hstep => hinv.evolve hcrypto (evolves_step hcrypto hinv hC.1 hC.2 hstep))
      (inv_start users) (hgenuine.and hcleared)
  exact hinv.mono fun _ => staysOut_of_inv

/-! ## One session document per device -/

/-- A step runs one operation on the store, or lets time pass. -/
theorem step_store {w w' : World} {op : Op} (h : step crypto w op = some w') :
    w'.store = w.store ∨ ∃ (α : Type) (new : String → Prop) (p : Db α), OpensOnly new p ∧
      w'.store = (p.prog.run w.store).2 := by
  cases op with
  | login dto sid salt =>
    obtain rfl := Option.some.inj h
    refine .inr ⟨_, _, login crypto dto ⟨w.now, sid, salt⟩, .login, ?_⟩
    unfold afterLogin
    dsimp only
    split <;> rfl
  | refresh token sid salt =>
    obtain rfl := Option.some.inj h
    refine .inr ⟨_, _, refresh crypto token ⟨w.now, sid, salt⟩, .refresh, ?_⟩
    unfold afterRefresh
    dsimp only
    split <;> rfl
  | updateUser userId dto transport =>
    obtain rfl := Option.some.inj h
    refine .inr ⟨_, fun _ => False, AdminService.updateUser userId dto w.now transport, .updateUser, ?_⟩
    unfold afterUpdateUser
    dsimp only
    split <;> rfl
  | request r =>
    obtain rfl := Option.some.inj h
    exact .inr ⟨_, _, r.program crypto w.now, r.opensOnly, rfl⟩
  | pass ms =>
    obtain rfl := Option.some.inj h
    exact .inl rfl

/-- In every run there is at most one session document for each user and device. -/
theorem oneDocument (users : List User) (ops : List Op) :
    Trace.AllStates (step crypto) (fun w => Collection.Keyed Session.key w.store.sessions)
      (World.start users) ops := by
  refine Trace.allStates_of_allSteps (C := fun _ _ => True) (fun w op w' hkeyed _ hstep => ?_)
    List.nodup_nil Trace.allSteps_true
  rcases step_store hstep with heq | ⟨α, new, p, hp, heq⟩
  · exact heq ▸ hkeyed
  · exact heq ▸ hp.keyed hkeyed

/-! ## The resident is rejected -/

def phoneLogin : Op := .login (residentLogin "phone") "s0" "salt"

def reject : Op :=
  .updateUser resident.id
    { UpdateUserDto.empty with status := some .rejected, rejectionReason := some "moved out" }
    .notConfigured

def approveAgain : Op :=
  .updateUser resident.id { UpdateUserDto.empty with status := some .approved } .notConfigured

/-- The session of the phone survives the rejection, and its token is still accepted. -/
theorem forcedOut_comesBack :
    ¬ Trace.AllStates (step Crypto.plain) (StaysOut Crypto.plain) (World.start [resident])
      [phoneLogin, reject] := by
  intro hall
  have h : (Trace.exec (step Crypto.plain) (World.start [resident]) [phoneLogin, reject]).any
      (fun w => phonePayload.sub ∈ w.forcedOut ∧ phoneToken ∈ w.refreshTokens ∧
        Crypto.plain.verifyRefresh w.now phoneToken = some phonePayload ∧
        ((refresh Crypto.plain phoneToken ⟨w.now, "s1", "salt"⟩).prog.run w.store).1.isOk = true) =
      true := by decide +kernel
  obtain ⟨w, hw, hend⟩ := Option.any_eq_true _ _ |>.mp h
  simp only [decide_eq_true_eq] at hend
  obtain ⟨hforced, htoken, hverify, hok⟩ := hend
  obtain ⟨e, he⟩ := (hall.last hw _ hforced).1 phoneToken htoken phonePayload hverify rfl "s1" "salt"
  rw [he] at hok
  cases hok

/-- The resident logs out before the rejection, and tries the old token before and after
    being approved again. -/
theorem forcedOut_staysOut_loggedOut :
    Trace.AllStates (step Crypto.plain) (StaysOut Crypto.plain) (World.start [resident])
      [phoneLogin, .request (.logout resident.id "phone"), reject, .pass 1000,
        .refresh phoneToken "s1" "salt", approveAgain, .refresh phoneToken "s2" "salt"] :=
  forcedOut_staysOut Crypto.plain_lawful [resident] _ (by decide +kernel) (by decide +kernel)

end Backend.ForcedLogout
