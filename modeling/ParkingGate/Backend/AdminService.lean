-- SUMMARY: AdminService: the operations of an administrator on users, sessions and passwords, as programs over the store.
import ParkingGate.Backend.AuthService

namespace Backend.AdminService

open UsersService

/-- `undefined` fields are `none`; a `null` reason is read like an empty one. -/
structure UpdateUserDto where
  firstName : Option String
  lastName : Option String
  phone : Option String
  apartmentNumber : Option Int
  floor : Option Int
  status : Option UserStatus
  rejectionReason : Option String
  deriving DecidableEq, Repr

def UpdateUserDto.empty : UpdateUserDto where
  firstName := none
  lastName := none
  phone := none
  apartmentNumber := none
  floor := none
  status := none
  rejectionReason := none

structure ResetPasswordDto where
  newPassword : String
  confirmPassword : String
  deriving DecidableEq, Repr

/-- The profile fields of the update. -/
def UpdateUserDto.profile (dto : UpdateUserDto) (user : User) : User :=
  { user with
    firstName := dto.firstName.getD user.firstName
    lastName := dto.lastName.getD user.lastName
    phone := dto.phone.getD user.phone
    apartmentNumber := dto.apartmentNumber.getD user.apartmentNumber
    floor := dto.floor.getD user.floor }

/-- The timestamps that go with a change of the status. -/
def statusTimestamps (status previousStatus : UserStatus) (now : Nat) (user : User) : User :=
  if status = .approved ∧ previousStatus ≠ .approved then
    { user with approvedAt := some now, rejectedAt := none }
  else if status = .rejected ∧ previousStatus ≠ .rejected then
    { user with rejectedAt := some now, approvedAt := none }
  else user

/-- `rejected`, `archived` and `pending` log the user out. -/
def forcesLogout (status : UserStatus) : Bool :=
  status = .rejected ∨ status = .archived ∨ status = .pending

/-- The characters `String.prototype.trim` removes. -/
def isWhiteSpace (c : Char) : Bool :=
  c.toNat ∈ [0x9, 0xA, 0xB, 0xC, 0xD, 0x20, 0xA0, 0x1680, 0x2028, 0x2029, 0x202F, 0x205F, 0x3000,
    0xFEFF] ∨ 0x2000 ≤ c.toNat ∧ c.toNat ≤ 0x200A

/-- `!rejectionReason || rejectionReason.trim().length === 0` -/
def missingReason : Option String → Bool
  | some reason => reason.toList.all isWhiteSpace
  | none        => true

/-- The update is refused without a reason when it rejects the user, or changes the reason
    of a rejected one. -/
def UpdateUserDto.reasonRequired (dto : UpdateUserDto) (existingUser : User) : Bool :=
  match dto.status with
  | some status => status = .rejected
  | none        => dto.rejectionReason.isSome && existingUser.status = .rejected

/-- The fields the update sets, from the request and the user as it was read. -/
def UpdateUserDto.updateData (dto : UpdateUserDto) (existingUser : User) (now : Nat)
    (user : User) : User :=
  let user := dto.profile user
  match dto.status with
  | some status =>
    let user := statusTimestamps status existingUser.status now { user with status }
    let user := if forcesLogout status then { user with activeDeviceId := none } else user
    { user with rejectionReason := if status = .rejected then dto.rejectionReason else none }
  | none =>
    if dto.rejectionReason.isSome then
      { user with
        rejectionReason := if existingUser.status = .rejected then dto.rejectionReason else none }
    else user

/-- The approval e-mail of `updateUser`: a failure is logged and does not fail the
    approval. -/
def notifyApproval (userId : String) (updatedUser : User) (now : Nat) (transport : Transport) :
    Db User :=
  tryCatch
    (do
      sendMail (.approval updatedUser.email updatedUser.firstName updatedUser.lastName) transport
      let _ ← UsersService.updateUser userId fun user => { user with approvalEmailSentAt := some now }
      return (← findById userId).getD updatedUser)
    fun _ => return updatedUser

def updateUser (userId : String) (dto : UpdateUserDto) (now : Nat) (transport : Transport) :
    Db User := do
  let some existingUser ← findById userId
    | throw (.notFound "משתמש לא נמצא")
  if dto.status.any forcesLogout then
    clearSession userId
  -- The check of the reason comes after the session is cleared.
  if dto.reasonRequired existingUser && missingReason dto.rejectionReason then
    throw (.badRequest "סיבת דחייה נדרשת כאשר הסטטוס הוא \"נדחה\"")
  let some updatedUser ← UsersService.updateUser userId (dto.updateData existingUser now)
    | throw (.notFound "משתמש לא נמצא")
  if dto.status = some .approved ∧ existingUser.status ≠ .approved ∧
      updatedUser.approvalEmailSentAt.isNone then
    notifyApproval userId updatedUser now transport
  else
    return updatedUser

def updateUserRole (userId : String) (role : UserRole) : Db User := do
  if (← findById userId).isNone then
    throw (.notFound "משתמש לא נמצא")
  let some updatedUser ← UsersService.updateUser userId fun user => { user with role }
    | throw (.notFound "משתמש לא נמצא")
  return updatedUser

def resetPassword (crypto : Crypto) (userId : String) (dto : ResetPasswordDto) (salt : String) :
    Db User := do
  if dto.newPassword ≠ dto.confirmPassword then
    throw (.badRequest "סיסמה ואישור סיסמה אינם תואמים")
  if (← findById userId).isNone then
    throw (.notFound "משתמש לא נמצא")
  let passwordHash := crypto.hash salt dto.newPassword
  let some updatedUser ← UsersService.updateUser userId fun user => { user with passwordHash }
    | throw (.notFound "משתמש לא נמצא")
  clearAllSessions userId
  clearSession userId
  return updatedUser

def deleteUser (userId actingAdminId : String) : Db User := do
  if userId = actingAdminId then
    throw (.badRequest "לא ניתן למחוק את החשבון של עצמך")
  if (← findById userId).isNone then
    throw (.notFound "משתמש לא נמצא")
  clearAllSessions userId
  let some deleted ← deleteById userId
    | throw (.notFound "משתמש לא נמצא")
  return deleted

def resetUserDevice (userId : String) (deviceId : Option String) : Db User := do
  if (← findById userId).isNone then
    throw (.notFound "משתמש לא נמצא")
  if truthy deviceId then
    deleteSession userId deviceId
  else
    clearAllSessions userId
    clearSession userId
    clearActiveDevice userId
  let remainingSessions ← getAllSessions userId
  if remainingSessions.length = 0 then
    clearSession userId
    clearActiveDevice userId
  let some updatedUser ← findById userId
    | throw (.notFound "משתמש לא נמצא")
  return updatedUser

/-- The body of the loop of `approveAllPendingUsers`. -/
def approvePendingUser (now : Nat) (user : User) (transport : Transport) : Db Unit := do
  let _ ← UsersService.updateUser user.id fun user =>
    { user with status := .approved, approvedAt := some now, rejectedAt := none }
  tryCatch
    (do
      sendMail (.approval user.email user.firstName user.lastName) transport
      let _ ← UsersService.updateUser user.id fun user =>
        { user with approvalEmailSentAt := some now })
    fun _ => pure ()
  clearSession user.id
  clearActiveDevice user.id

/-- The loop: `transports` says what happens to the e-mail of each user in turn. -/
def approveEach (now : Nat) : List User → List Transport → Nat → Db Nat
  | [], _, approvedCount => return approvedCount
  | user :: users, transports, approvedCount => do
    approvePendingUser now user (transports.headD .notConfigured)
    approveEach now users transports.tail (approvedCount + 1)

def approveAllPendingUsers (now : Nat) (transports : List Transport) : Db Nat := do
  let pendingUsers ← findUsersByStatus .pending 10000
  approveEach now pendingUsers transports 0

def sendApprovalEmail (userId : String) (now : Nat) (transport : Transport) : Db Unit := do
  let some user ← findById userId
    | throw (.notFound "משתמש לא נמצא")
  if user.status ≠ .approved then
    throw (.badRequest "לא ניתן לשלוח מייל אישור למשתמש שאינו מאושר")
  sendMail (.approval user.email user.firstName user.lastName) transport
  let _ ← UsersService.updateUser userId fun user => { user with approvalEmailSentAt := some now }

end Backend.AdminService
