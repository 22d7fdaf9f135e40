-- SUMMARY: AuthService: registration, login, refresh, logout, profile and password reset as programs over the store.
import ParkingGate.Backend.UsersService

namespace Backend

structure JwtPayload where
  sub : String
  role : UserRole
  deviceId : String
  sid : String
  deriving DecidableEq, Repr

/-- The signing and hashing packages. A token is signed at a time and verified at a
    time, because it expires; a hash takes the salt `bcrypt` draws. -/
structure Crypto where
  signAccess : Nat → JwtPayload → String
  verifyAccess : Nat → String → Option JwtPayload
  signRefresh : Nat → JwtPayload → String
  verifyRefresh : Nat → String → Option JwtPayload
  hash : String → String → String
  compare : String → String → Bool

namespace Crypto

/-- A token is verified to the payload it was signed with, and one that is valid at some
    time was valid before. -/
structure Lawful (crypto : Crypto) : Prop where
  access_payload : ∀ {now now' payload payload'},
    crypto.verifyAccess now' (crypto.signAccess now payload) = some payload' → payload' = payload
  refresh_payload : ∀ {now now' payload payload'},
    crypto.verifyRefresh now' (crypto.signRefresh now payload) = some payload' → payload' = payload
  access_earlier : ∀ {now now' token payload}, now ≤ now' →
    crypto.verifyAccess now' token = some payload → crypto.verifyAccess now token = some payload
  refresh_earlier : ∀ {now now' token payload}, now ≤ now' →
    crypto.verifyRefresh now' token = some payload → crypto.verifyRefresh now token = some payload

/-! ## A plain instance of the packages -/

def roleText : UserRole → String
  | .user  => "user"
  | .admin => "admin"

/-- A text as a field of a token: every character is marked, so the end can be told. -/
def field (text : String) : List Char :=
  (text.toList.flatMap fun c => ['-', c]) ++ ['.']

/-- The field a list of characters starts with, and the rest. -/
def takeField : List Char → Option (List Char × List Char)
  | '-' :: c :: rest => (takeField rest).map fun (text, rest) => (c :: text, rest)
  | '.' :: rest      => some ([], rest)
  | _                => none

/-- A token that spells out its payload. -/
def plainToken (kind : String) (payload : JwtPayload) : String :=
  String.ofList (field kind ++ field payload.sub ++ field (roleText payload.role) ++
    field payload.deviceId ++ field payload.sid)

def plainPayload (kind token : String) : Option JwtPayload := do
  let (kind', rest) ← takeField token.toList
  let (sub, rest) ← takeField rest
  let (role, rest) ← takeField rest
  let (deviceId, rest) ← takeField rest
  let (sid, _) ← takeField rest
  if String.ofList kind' = kind then
    return {
      sub := String.ofList sub
      role := if String.ofList role = "admin" then .admin else .user
      deviceId := String.ofList deviceId
      sid := String.ofList sid }
  else none

theorem takeField_field (text : String) (rest : List Char) :
    takeField (field text ++ rest) = some (text.toList, rest) := by
  unfold field
  induction text.toList with
  | nil => rfl
  | cons c cs ih => simp only [List.flatMap_cons, List.append_assoc, List.cons_append,
      List.nil_append, takeField] at ih ⊢; rw [ih]; rfl

theorem plainPayload_plainToken (kind : String) (payload : JwtPayload) :
    plainPayload kind (plainToken kind payload) = some payload := by
  have hrole : (if roleText payload.role = "admin" then UserRole.admin else .user) =
      payload.role := by
    cases payload.role <;> decide
  have hlast := takeField_field payload.sid []
  rw [List.append_nil] at hlast
  simp [plainPayload, plainToken, List.append_assoc, takeField_field, hlast, hrole]

/-- Tokens that do not expire and hashes that keep the text next to the salt. -/
def plain : Crypto where
  signAccess _ := plainToken "access"
  verifyAccess _ := plainPayload "access"
  signRefresh _ := plainToken "refresh"
  verifyRefresh _ := plainPayload "refresh"
  hash salt text := salt ++ "$" ++ text
  compare text hashed := hashed.toList.dropWhile (· ≠ '$') = '$' :: text.toList

theorem plain_lawful : plain.Lawful where
  access_payload h := by simpa [plain, plainPayload_plainToken, eq_comm] using h
  refresh_payload h := by simpa [plain, plainPayload_plainToken, eq_comm] using h
  access_earlier _ h := h
  refresh_earlier _ h := h

end Crypto

/-- What the mail transport does with a message. -/
inductive Transport where
  | notConfigured | accepts | fails
  deriving DecidableEq, Repr

/-- `EmailService`: without a transporter the call returns without sending. -/
def sendMail (mail : Mail) : Transport → Db Unit
  | .notConfigured => pure ()
  | .accepts       => Fallible.atomically fun s => ((), { s with outbox := s.outbox ++ [mail] })
  | .fails         => throw (.internal "sendMail")

namespace AuthService

open UsersService

structure RegisterDto where
  email : String
  password : String
  firstName : String
  lastName : String
  phone : String
  apartmentNumber : Int
  floor : Int
  deriving DecidableEq, Repr

structure LoginDto where
  email : String
  password : String
  deviceId : String
  deriving DecidableEq, Repr

structure UpdateMeDto where
  firstName : Option String
  lastName : Option String
  phone : Option String
  apartmentNumber : Option Int
  floor : Option Int
  deriving DecidableEq, Repr

structure AuthUserResponse where
  user : User
  accessToken : String
  refreshToken : String
  deriving DecidableEq, Repr

structure RefreshResponse where
  accessToken : String
  refreshToken : String
  deriving DecidableEq, Repr

/-- What one call draws from the clock and from the random sources. -/
structure Draw where
  now : Nat
  sid : String
  salt : String
  deriving DecidableEq, Repr

variable (crypto : Crypto)

def buildAccessToken (now : Nat) (user : User) (deviceId sid : String) : String :=
  crypto.signAccess now { sub := user.id, role := user.role, deviceId, sid }

def buildRefreshToken (now : Nat) (userId : String) (role : UserRole) (deviceId sid : String) :
    String :=
  crypto.signRefresh now { sub := userId, role, deviceId, sid }

def register (dto : RegisterDto) (id salt : String) (now : Nat) : Db User := do
  if (← findByEmail dto.email).isSome then
    throw (.badRequest "כתובת אימייל זו כבר רשומה במערכת")
  create
    { email := dto.email
      passwordHash := crypto.hash salt dto.password
      firstName := dto.firstName
      lastName := dto.lastName
      phone := dto.phone
      apartmentNumber := dto.apartmentNumber
      floor := dto.floor
      status := some .pending
      rejectionReason := none } id now

def login (dto : LoginDto) (draw : Draw) : Db AuthUserResponse := do
  let some user ← findByEmailWithPassword dto.email
    | throw (.unauthorized "אימייל או סיסמה שגויים")
  if !crypto.compare dto.password user.passwordHash then
    throw (.unauthorized "אימייל או סיסמה שגויים")
  if user.status = .pending then
    throw (.forbidden "המשתמש ממתין לאישור אדמין")
  if user.status = .rejected then
    throw (.forbiddenRejected "הבקשה לאישור החשבון נדחתה" user.rejectionReason)
  if user.status = .archived then
    throw (.forbidden "המשתמש נחסם")
  if user.status ≠ .approved then
    throw (.forbidden "החשבון לא מאושר")
  if user.role ≠ .admin ∧ truthy user.activeDeviceId ∧ user.activeDeviceId ≠ some dto.deviceId then
    throw (.conflict "המשתמש מחובר כבר ממכשיר אחר")
  let refreshToken := buildRefreshToken crypto draw.now user.id user.role dto.deviceId draw.sid
  let refreshTokenHash := crypto.hash draw.salt refreshToken
  if user.role ≠ .admin then
    clearAllSessions user.id
  createSession user.id dto.deviceId draw.sid refreshTokenHash draw.now
  setSession user.id dto.deviceId draw.sid refreshTokenHash draw.now
  return {
    user
    accessToken := buildAccessToken crypto draw.now user dto.deviceId draw.sid
    refreshToken }

def refresh (refreshToken : String) (draw : Draw) : Db RefreshResponse := do
  let some payload := crypto.verifyRefresh draw.now refreshToken
    | throw (.unauthorized "Refresh token לא תקין")
  let some session ← getSessionBySessionId payload.sid
    | throw (.unauthorized "Session לא נמצא")
  if session.userId ≠ payload.sub then
    throw (.unauthorized "Session לא תואם למשתמש")
  if session.deviceId ≠ payload.deviceId then
    throw (.unauthorized "Device לא תואם")
  if !crypto.compare refreshToken session.refreshTokenHash then
    throw (.unauthorized "Refresh token לא תקין")
  let newRefreshToken :=
    buildRefreshToken crypto draw.now payload.sub payload.role payload.deviceId draw.sid
  let newRefreshTokenHash := crypto.hash draw.salt newRefreshToken
  createSession payload.sub payload.deviceId draw.sid newRefreshTokenHash draw.now
  setSession payload.sub payload.deviceId draw.sid newRefreshTokenHash draw.now
  let some user ← findById payload.sub
    | throw (.unauthorized "משתמש לא נמצא")
  return {
    accessToken := buildAccessToken crypto draw.now user payload.deviceId draw.sid
    refreshToken := newRefreshToken }

def logout (userId deviceId : String) : Db Unit := do
  let some user ← findById userId
    | throw (.unauthorized "משתמש לא נמצא")
  if user.role ≠ .admin then
    let some sessionData ← getSessionData userId
      | throw (.conflict "המשתמש לא מחובר")
    if !truthy sessionData.activeDeviceId then
      throw (.conflict "המשתמש לא מחובר")
    if sessionData.activeDeviceId ≠ some deviceId then
      throw (.conflict "המשתמש מחובר ממכשיר אחר")
  deleteSession userId (some deviceId)
  let remainingSessions ← getAllSessions userId
  if remainingSessions.length = 0 ∨ user.role ≠ .admin then
    clearSession userId

def UpdateMeDto.updateData (dto : UpdateMeDto) (user : User) : User :=
  { user with
    firstName := dto.firstName.getD user.firstName
    lastName := dto.lastName.getD user.lastName
    phone := dto.phone.getD user.phone
    apartmentNumber := dto.apartmentNumber.getD user.apartmentNumber
    floor := dto.floor.getD user.floor }

def updateMe (userId : String) (dto : UpdateMeDto) : Db User := do
  if (← findById userId).isNone then
    throw (.unauthorized "משתמש לא נמצא")
  let some updatedUser ← updateUser userId dto.updateData
    | throw (.unauthorized "משתמש לא נמצא")
  return updatedUser

/-- `randomBytes(32)` is the parameter `token`; a failed e-mail is only logged. -/
def requestPasswordReset (email : String) (expiryMinutes now : Nat) (token salt homepageUrl : String)
    (transport : Transport) : Db Unit := do
  let some user ← findByEmail email
    | return
  let _ ← updateUser user.id fun user =>
    { user with
      resetPasswordTokenHash := some (crypto.hash salt token)
      resetPasswordExpiresAt := some (now + expiryMinutes * 60 * 1000) }
  try
    sendMail (.passwordReset email (homepageUrl ++ "/reset-password?token=" ++ token) expiryMinutes)
      transport
  catch _ => pure ()

/-- The first candidate whose stored hash the token matches. -/
def matchedUser (token : String) (candidates : List User) : Option User :=
  candidates.find? fun user =>
    match user.resetPasswordTokenHash with
    | some tokenHash => truthy (some tokenHash) && crypto.compare token tokenHash
    | none           => false

def resetPassword (token newPassword salt : String) (now : Nat) : Db Unit := do
  let candidates ← findWithValidResetToken now
  let some user := matchedUser crypto token candidates
    | throw (.badRequest "הקישור לא תקף או שפג תוקפו. נסה לבקש קישור חדש.")
  clearPasswordResetAndSetPassword user.id (crypto.hash salt newPassword)

end AuthService

end Backend
