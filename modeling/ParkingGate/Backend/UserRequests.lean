-- SUMMARY: AuthController and AdminController: each request with its guards, as a program over the store, what it reads and what it writes.
import ParkingGate.Backend.OpenRequests
import ParkingGate.Backend.UserFrames

/-!
# The requests of users and administrators

A request passes the guards of its route before its handler runs, and all of it is interrupted at
every access to the database. What a request draws from the clock and the random sources comes
with it.
-/

namespace Backend

open AuthService AdminService UsersService

/-- The routes of `AdminController` that write to the store. -/
inductive AdminAction where
  | updateUser (id : String) (updateDto : UpdateUserDto) (now : Nat) (transport : Transport)
  | deleteUser (id : String)
  | updateUserRole (id : String) (role : UserRole)
  | resetPassword (id : String) (resetPasswordDto : ResetPasswordDto) (salt : String)
  | resetUserDevice (id : String) (deviceId : Option String)
  | approveAllPendingUsers (now : Nat) (transports : List Transport)
  | sendApprovalEmail (id : String) (now : Nat) (transport : Transport)

/-- `now` is the time at which the guards verify the token. -/
inductive UserRequest where
  | register (registerDto : RegisterDto) (id salt : String) (now : Nat)
  | forgotPassword (email : String) (expiryMinutes now : Nat) (token salt homepageUrl : String)
      (transport : Transport)
  | resetPassword (token newPassword salt : String) (now : Nat)
  | login (loginDto : LoginDto) (draw : Draw)
  | refresh (refreshToken : Option String) (draw : Draw)
  | me (authorization : Option String) (now : Nat)
  | logout (authorization : Option String) (now : Nat)
  | updateMe (authorization : Option String) (now : Nat) (updateDto : UpdateMeDto)
  | admin (authorization : Option String) (now : Nat) (action : AdminAction)

/-- The access token a request carries, and when it is verified. -/
def UserRequest.accessToken? : UserRequest → Option (Nat × String)
  | .me authorization now | .logout authorization now | .updateMe authorization now _
  | .admin authorization now _ =>
    (GateRoute.extractJwtFromRequest authorization).map fun token => (now, token)
  | _ => none

def UserRequest.refreshToken? : UserRequest → Option (Nat × String)
  | .refresh token draw => token.map fun token => (draw.now, token)
  | _                   => none

/-- The tokens of an answer: one in its body and one in its cookie. -/
structure Tokens where
  accessToken : String
  refreshToken : String
  deriving DecidableEq, Repr

/-! ## The guards -/

section Guards

variable (crypto : Crypto) (authorization : Option String) (now : Nat)

/-- `AuthGuard('jwt')` -/
def AuthGuard.canActivate : Db AuthUser :=
  match GateRoute.extractJwtFromRequest authorization with
  | some accessToken => JwtStrategy.authenticate crypto accessToken now
  | none             => throw (.unauthorized "Unauthorized")

/-- `@UseGuards(AuthGuard('jwt'), ApprovedGuard)` -/
def approvedUser : Db AuthUser := do
  let authUser ← AuthGuard.canActivate crypto authorization now
  let _ ← ApprovedGuard.canActivate authUser
  return authUser

/-- `@UseGuards(AuthGuard('jwt'), ApprovedGuard, AdminGuard)` -/
def adminUser : Db AuthUser := do
  let authUser ← approvedUser crypto authorization now
  match AdminGuard.canActivate authUser with
  | .ok _    => return authUser
  | .error e => throw e

end Guards

/-! ## The handlers -/

def AdminAction.run (crypto : Crypto) (authUser : AuthUser) : AdminAction → Db Unit
  | updateUser id updateDto now transport => do
    let _ ← AdminService.updateUser id updateDto now transport
  | deleteUser id => do let _ ← AdminService.deleteUser id authUser.userId
  | updateUserRole id role => do let _ ← AdminService.updateUserRole id role
  | resetPassword id resetPasswordDto salt => do
    let _ ← AdminService.resetPassword crypto id resetPasswordDto salt
  | resetUserDevice id deviceId => do let _ ← AdminService.resetUserDevice id deviceId
  | approveAllPendingUsers now transports => do
    let _ ← AdminService.approveAllPendingUsers now transports
  | sendApprovalEmail id now transport => AdminService.sendApprovalEmail id now transport

/-- `AuthController.refresh`; the cookie may be missing or empty. -/
def AuthController.refresh (crypto : Crypto) (refreshToken : Option String) (draw : Draw) :
    Db Tokens := do
  if !truthy refreshToken then
    throw (.unauthorized "Refresh token לא נמצא")
  let result ← AuthService.refresh crypto (refreshToken.getD "") draw
  return ⟨result.accessToken, result.refreshToken⟩

/-- A request from its guards to its answer. -/
def UserRequest.handle (crypto : Crypto) : UserRequest → Db (Option Tokens)
  | register registerDto id salt now => do
    let _ ← AuthService.register crypto registerDto id salt now
    return none
  | forgotPassword email expiryMinutes now token salt homepageUrl transport => do
    requestPasswordReset crypto email expiryMinutes now token salt homepageUrl transport
    return none
  | resetPassword token newPassword salt now => do
    AuthService.resetPassword crypto token newPassword salt now
    return none
  | login loginDto draw => do
    let result ← AuthService.login crypto loginDto draw
    return some ⟨result.accessToken, result.refreshToken⟩
  | refresh refreshToken draw => do
    let tokens ← AuthController.refresh crypto refreshToken draw
    return some tokens
  | me authorization now => do
    let authUser ← approvedUser crypto authorization now
    let _ ← findById authUser.userId
    return none
  | logout authorization now => do
    let authUser ← approvedUser crypto authorization now
    AuthService.logout authUser.userId authUser.deviceId
    return none
  | updateMe authorization now updateDto => do
    let authUser ← approvedUser crypto authorization now
    let _ ← AuthService.updateMe authUser.userId updateDto
    return none
  | admin authorization now action => do
    let authUser ← adminUser crypto authorization now
    action.run crypto authUser
    return none

/-! ## What the operations do to the user documents -/

/-- Every user document has `P`. -/
def Store.AllUsers (P : User → Prop) (s : Store) : Prop := ∀ user ∈ s.users, P user

section Documents

variable {P : User → Prop} {α : Type}

/-- Every action of the program keeps `P` of the user documents. -/
abbrev KeepsUsers (P : User → Prop) (p : Db α) : Prop :=
  p.prog.Always fun upd => ∀ s : Store, s.AllUsers P → (upd s).AllUsers P

theorem KeepsUsers.of_rewrites {p : Db α}
    (h : RewritesOnly (fun user user' => P user → P user') p) : KeepsUsers P p := by
  refine h.mono fun upd hupd s hs user' huser' => ?_
  obtain ⟨user, huser, -, hkeep⟩ := (hupd s).users user' huser'
  exact hkeep (hs user huser)

theorem KeepsUsers.findByIdAndUpdate {userId : String} {f : User → User}
    (hf : ∀ user, user.id = userId → P user → P (f user)) :
    KeepsUsers P (UsersService.findByIdAndUpdate userId f) := by
  refine ⟨fun s hs user' huser' => ?_, fun _ => trivial⟩
  rcases Collection.of_mem_updateOne huser' with huser | ⟨user, huser, hid, rfl⟩
  · exact hs user' huser
  · exact hf user (by simpa using hid) (hs user huser)

theorem KeepsUsers.keeps {p : Db α} (h : KeepsUsers P p) :
    Fallible.Keeps (Store.AllUsers P) p fun _ => True :=
  h.maintains.mono fun _ _ _ _ => trivial

theorem keeps_of_rewrites {p : Db α} (h : RewritesOnly (fun user user' => P user → P user') p) :
    Fallible.Keeps (Store.AllUsers P) p fun _ => True :=
  (KeepsUsers.of_rewrites h).keeps

theorem keeps_findById (id : String) :
    Fallible.Keeps (Store.AllUsers P) (findById id) fun found =>
      ∀ user, found = some user → P user ∧ user.id = id := by
  refine .atomically fun s hs => ⟨hs, fun user hfind => ?_⟩
  exact ⟨hs user (List.mem_of_find?_eq_some hfind), by simpa using List.find?_some hfind⟩

theorem keeps_findByEmail (email : String) :
    Fallible.Keeps (Store.AllUsers P) (findByEmail email) fun found =>
      ∀ user, found = some user → P user ∧ user.email = email := by
  refine .atomically fun s hs => ⟨hs, fun user hfind => ?_⟩
  exact ⟨hs user (List.mem_of_find?_eq_some hfind), by simpa using List.find?_some hfind⟩

/-- `lookUpAndUpdate` for an update that `P` allows for this user only. -/
theorem keeps_lookUpAndUpdate {userId : String} {e e' : HttpException} {f : User → User}
    {k : User → Db α} (hf : ∀ user, user.id = userId → P user → P (f user))
    (hk : ∀ user, Fallible.Keeps (Store.AllUsers P) (k user) fun _ => True) :
    Fallible.Keeps (Store.AllUsers P) (do
      if (← findById userId).isNone then
        throw e
      let some updatedUser ← UsersService.updateUser userId f
        | throw e'
      k updatedUser) fun _ => True := by
  refine .bind (keeps_findById userId) fun found _ => .guard fun _ => ?_
  refine .bind (KeepsUsers.findByIdAndUpdate hf).keeps fun updated _ => ?_
  cases updated with
  | none => exact .throw
  | some user => exact hk user

theorem keeps_register {crypto : Crypto} {dto : RegisterDto} {id salt : String} {now : Nat}
    (hnew : ∀ params : CreateUserParams, params.status = some .pending → params.email = dto.email →
      params.passwordHash = crypto.hash salt dto.password → P (params.document id now)) :
    Fallible.Keeps (Store.AllUsers P) (register crypto dto id salt now) fun _ => True := by
  refine .bind (keeps_findByEmail dto.email) fun found _ => .guard fun _ => ?_
  refine .bind (Q := fun _ => True) (.atomically fun s hs => ⟨?_, trivial⟩) fun stored _ => ?_
  · dsimp only
    split
    · exact hs
    · intro user huser
      rcases List.mem_append.mp huser with huser | huser
      · exact hs user huser
      · rw [List.mem_singleton.mp huser]
        exact hnew _ rfl rfl rfl
  · split
    · exact .pure trivial
    · exact .throw

theorem keeps_deleteUser {userId actingAdminId : String} :
    Fallible.Keeps (Store.AllUsers P) (deleteUser userId actingAdminId) fun _ => True := by
  unfold deleteUser
  refine Fallible.Keeps.guard fun _ => ?_
  refine .bind (keeps_findById userId) fun _ _ => .guard fun _ => ?_
  refine .bind (Q := fun _ => True) (.atomically fun s hs => ⟨hs, trivial⟩) fun _ _ => ?_
  refine .bind (Q := fun _ => True) (.atomically fun s hs => ⟨?_, trivial⟩) fun deleted _ => ?_
  · exact fun user huser => hs user (List.eraseP_subset huser)
  · cases deleted with
    | none => exact .throw
    | some user => exact .pure trivial

section Permitted

variable (hP : Permits fun user user' => P user → P user')

include hP

theorem keeps_approvedUser (crypto : Crypto) (authorization : Option String) (now : Nat) :
    Fallible.Keeps (Store.AllUsers P) (approvedUser crypto authorization now) fun authUser =>
      ∃ token payload, GateRoute.extractJwtFromRequest authorization = some token ∧
        crypto.verifyAccess now token = some payload ∧ authUser = GateRoute.authUserOf payload := by
  unfold approvedUser AuthGuard.canActivate
  cases htoken : GateRoute.extractJwtFromRequest authorization with
  | none => exact .bind (Q := fun _ => False) .throw fun _ h => h.elim
  | some token =>
    have hauthenticate : Fallible.Keeps (Store.AllUsers P)
        (JwtStrategy.authenticate crypto token now) fun authUser => ∃ payload,
          crypto.verifyAccess now token = some payload ∧ authUser = GateRoute.authUserOf payload := by
      refine ((GateRoute.reads_authenticate crypto token now).maintains
        (KeepsUsers.of_rewrites (.authenticate hP))).mono fun r hr authUser hok => ?_
      obtain ⟨payload, hverify, hauth, -⟩ := hr authUser hok
      exact ⟨payload, hverify, hauth⟩
    refine hauthenticate.bind fun authUser hauth => ?_
    obtain ⟨payload, hverify, rfl⟩ := hauth
    exact .bind (keeps_of_rewrites (.canActivate hP)) fun _ _ =>
      .pure ⟨token, payload, rfl, hverify, rfl⟩

theorem keeps_adminUser (crypto : Crypto) (authorization : Option String) (now : Nat) :
    Fallible.Keeps (Store.AllUsers P) (adminUser crypto authorization now) fun _ =>
      ∃ token payload, GateRoute.extractJwtFromRequest authorization = some token ∧
        crypto.verifyAccess now token = some payload ∧ payload.role = .admin := by
  refine (keeps_approvedUser hP crypto authorization now).bind fun authUser hauth => ?_
  obtain ⟨token, payload, htoken, hverify, rfl⟩ := hauth
  unfold AdminGuard.canActivate
  by_cases hrole : payload.role = .admin
  · rw [if_neg (by simp [GateRoute.authUserOf, hrole])]
    exact .pure ⟨token, payload, htoken, hverify, hrole⟩
  · rw [if_pos (by simpa [GateRoute.authUserOf] using hrole)]
    exact .throw

/-- The session fields of a user document do not matter to `P`. -/
theorem keeps_login {crypto : Crypto} {dto : LoginDto} {draw : Draw}
    (hset : ∀ user deviceId sid tokenHash, P user → P
      { user with
        activeDeviceId := some deviceId
        activeSessionId := some sid
        refreshTokenHash := some tokenHash }) :
    Fallible.Keeps (Store.AllUsers P) (login crypto dto draw) fun response =>
      ∃ user, P user ∧ user.email = dto.email ∧
        crypto.compare dto.password user.passwordHash = true ∧
        response = loginResponse crypto dto draw user := by
  refine .bind (keeps_findByEmail dto.email) fun found hfound => ?_
  cases found with
  | none => exact .throw
  | some user =>
    obtain ⟨hright, hemail⟩ := hfound user rfl
    refine .guard fun hpassword => .guard fun _ => .guard fun _ => .guard fun _ =>
      .guard fun _ => .guard fun _ => ?_
    have hopen : Fallible.Keeps (Store.AllUsers P)
        (do
          createSession user.id dto.deviceId draw.sid
            (crypto.hash draw.salt
              (buildRefreshToken crypto draw.now user.id user.role dto.deviceId draw.sid)) draw.now
          setSession user.id dto.deviceId draw.sid
            (crypto.hash draw.salt
              (buildRefreshToken crypto draw.now user.id user.role dto.deviceId draw.sid)) draw.now
          return loginResponse crypto dto draw user)
        fun response => ∃ user, P user ∧ user.email = dto.email ∧
          crypto.compare dto.password user.passwordHash = true ∧
          response = loginResponse crypto dto draw user := by
      refine .bind (keeps_of_rewrites (.quiet hP.refl fun _ => rfl)) fun _ _ => ?_
      refine .bind (keeps_of_rewrites (.setSession hP.refl hset)) fun _ _ => ?_
      exact .pure ⟨user, hright, hemail, by simpa using hpassword, rfl⟩
    dsimp only
    split
    · exact .bind (keeps_of_rewrites (.quiet hP.refl fun _ => rfl)) fun _ _ => hopen
    · exact hopen

theorem keeps_refresh {crypto : Crypto} {token : String} {draw : Draw}
    (hset : ∀ user deviceId sid tokenHash, P user → P
      { user with
        activeDeviceId := some deviceId
        activeSessionId := some sid
        refreshTokenHash := some tokenHash }) :
    Fallible.Keeps (Store.AllUsers P) (refresh crypto token draw) fun response =>
      ∃ payload user, crypto.verifyRefresh draw.now token = some payload ∧ P user ∧
        user.id = payload.sub ∧ response = refreshed crypto payload draw user := by
  unfold refresh
  cases hverify : crypto.verifyRefresh draw.now token with
  | none => exact .throw
  | some payload =>
    refine .bind (Q := fun _ => True) (.atomically fun s hs => ⟨hs, trivial⟩) fun found _ => ?_
    cases found with
    | none => exact .throw
    | some session =>
      refine .guard fun _ => .guard fun _ => .guard fun _ => ?_
      refine .bind (keeps_of_rewrites (.quiet hP.refl fun _ => rfl)) fun _ _ => ?_
      refine .bind (keeps_of_rewrites (.setSession hP.refl hset)) fun _ _ => ?_
      refine .bind (keeps_findById payload.sub) fun found hfound => ?_
      cases found with
      | none => exact .throw
      | some user =>
        obtain ⟨hright, hid⟩ := hfound user rfl
        exact .pure ⟨payload, user, rfl, hright, hid, rfl⟩

end Permitted

end Documents

end Backend
