-- SUMMARY: The checks a request passes before a handler runs: JwtStrategy.validate, ApprovedGuard and AdminGuard.
import ParkingGate.Backend.AuthService

namespace Backend

open UsersService

/-- What `validate` puts on the request. -/
structure AuthUser where
  userId : String
  role : UserRole
  deviceId : String
  sid : String
  deriving DecidableEq, Repr

def JwtStrategy.validate (payload : JwtPayload) (now : Nat) : Db AuthUser := do
  if (← findById payload.sub).isNone then
    throw (.unauthorized "משתמש לא נמצא")
  let session ← getSessionBySessionId payload.sid
  if payload.role ≠ .admin then
    let some session := session
      | throw (.unauthorized "Session לא תקין")
    if session.userId ≠ payload.sub then
      throw (.unauthorized "Session לא תואם למשתמש")
    if session.deviceId ≠ payload.deviceId then
      throw (.unauthorized "Device לא תואם")
    updateSessionLastActive payload.sid now
  return {
    userId := payload.sub, role := payload.role, deviceId := payload.deviceId, sid := payload.sid }

/-- A regular user's access token passes exactly if the user exists and the session under
    its session id is that of its user and device. -/
theorem JwtStrategy.validate_isOk_iff {payload : JwtPayload} {now : Nat} {s : Store}
    (hrole : payload.role ≠ .admin) :
    ((validate payload now).prog.run s).1.isOk = true ↔
      (s.users.find? (·.id == payload.sub)).isSome ∧
      ∃ doc, s.sessions.find? (·.sessionId == payload.sid) = some doc ∧
        doc.userId = payload.sub ∧ doc.deviceId = payload.deviceId := by
  simp only [validate, findById, getSessionBySessionId, hrole, ne_eq, not_false_eq_true, if_true,
    Fallible.prog_atomically_bind, Prog.run_act]
  cases s.users.find? (·.id == payload.sub) with
  | none => simp [Except.isOk, Except.toBool]
  | some user =>
    simp only [Option.isNone_some, Bool.false_eq_true, if_false, Fallible.prog_atomically_bind,
      Prog.run_act]
    cases hdoc : s.sessions.find? (·.sessionId == payload.sid) with
    | none => simp [Except.isOk, Except.toBool]
    | some doc =>
      by_cases huser : doc.userId = payload.sub
      · by_cases hdevice : doc.deviceId = payload.deviceId
        · simp only [huser, hdevice, not_true_eq_false, if_false, updateSessionLastActive,
            Fallible.prog_atomically_bind, Prog.run_act]
          exact iff_of_true rfl ⟨rfl, doc, rfl, huser, hdevice⟩
        · simp [huser, hdevice, Except.isOk, Except.toBool]
      · simp [huser, Except.isOk, Except.toBool]

/-- An administrator's access token is accepted without a session. -/
theorem JwtStrategy.validate_run_admin {payload : JwtPayload} {s : Store} (now : Nat)
    (hrole : payload.role = .admin) (huser : (s.users.find? (·.id == payload.sub)).isSome = true) :
    (validate payload now).prog.run s =
      (.ok ⟨payload.sub, .admin, payload.deviceId, payload.sid⟩, s) := by
  obtain ⟨user, hfind⟩ := Option.isSome_iff_exists.mp huser
  simp only [validate, findById, getSessionBySessionId, Fallible.prog_atomically_bind, Prog.run_act,
    hfind, Option.isNone_some, Bool.false_eq_true, if_false, hrole, ne_eq, not_true_eq_false]
  rfl

/-- A regular user's access token is refused when no session document fits it. -/
theorem JwtStrategy.validate_refuses {payload : JwtPayload} {now : Nat} {s : Store}
    (hrole : payload.role ≠ .admin)
    (h : ∀ doc ∈ s.sessions, doc.sessionId = payload.sid → doc.userId = payload.sub →
      doc.deviceId ≠ payload.deviceId) :
    ∃ e, ((validate payload now).prog.run s).1 = .error e := by
  cases hresult : ((validate payload now).prog.run s).1 with
  | error e => exact ⟨e, rfl⟩
  | ok authUser =>
    have hpass : ((validate payload now).prog.run s).1.isOk = true := by rw [hresult]; rfl
    obtain ⟨-, doc, hdoc, huser, hdevice⟩ := (validate_isOk_iff hrole).mp hpass
    have hsid : doc.sessionId = payload.sid := by simpa using List.find?_some hdoc
    exact absurd hdevice (h doc (List.mem_of_find?_eq_some hdoc) hsid huser)

/-- The guard strategy: the signature and the expiry, then `validate`. -/
def JwtStrategy.authenticate (crypto : Crypto) (accessToken : String) (now : Nat) : Db AuthUser :=
  match crypto.verifyAccess now accessToken with
  | some payload => validate payload now
  | none         => throw (.unauthorized "Unauthorized")

def ApprovedGuard.canActivate (authUser : AuthUser) : Db Bool := do
  let some user ← findById authUser.userId
    | throw (.unauthorized "משתמש לא נמצא")
  if authUser.role = .admin ∨ user.role = .admin then
    return true
  if user.status ≠ .approved then
    match user.status with
    | .pending  => throw (.forbidden "החשבון ממתין לאישור אדמין")
    | .rejected => throw (.forbidden "הבקשה לאישור החשבון נדחתה")
    | .archived => throw (.forbidden "המשתמש נחסם")
    | .approved => throw (.forbidden "החשבון לא מאושר")
  if !truthy user.activeDeviceId then
    throw (.unauthorized "המשתמש לא מחובר")
  if user.activeDeviceId ≠ some authUser.deviceId then
    throw (.unauthorized "המשתמש מחובר ממכשיר אחר או התנתק")
  return true

def AdminGuard.canActivate (authUser : AuthUser) : Except HttpException Bool :=
  if authUser.role ≠ .admin then .error (.forbidden "גישה מוגבלת לאדמין בלבד") else .ok true

end Backend
