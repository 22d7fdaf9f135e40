-- SUMMARY: UsersService: the database operations on users and sessions, each one atomic action on the store unless the source makes two.
import ParkingGate.Backend.Store

namespace Backend.UsersService

open Collection

structure CreateUserParams where
  email : String
  passwordHash : String
  firstName : String
  lastName : String
  phone : String
  apartmentNumber : Int
  floor : Int
  status : Option UserStatus
  rejectionReason : Option String

/-- `new this.userModel(params)`: the fields the parameters do not give take the
    defaults of the schema. -/
def CreateUserParams.document (params : CreateUserParams) (id : String) (now : Nat) : User where
  id := id
  email := params.email
  passwordHash := params.passwordHash
  role := .user
  firstName := params.firstName
  lastName := params.lastName
  phone := params.phone
  apartmentNumber := params.apartmentNumber
  floor := params.floor
  status := params.status.getD .pending
  rejectionReason := params.rejectionReason
  approvedAt := none
  rejectedAt := none
  approvalEmailSentAt := none
  activeDeviceId := none
  activeSessionId := none
  refreshTokenHash := none
  resetPasswordTokenHash := none
  resetPasswordExpiresAt := none
  createdAt := now

/-! ## The users collection -/

/-- `userModel.findByIdAndUpdate(id, update, { new: true })` -/
def findByIdAndUpdate (userId : String) (update : User → User) : Db (Option User) :=
  Fallible.atomically fun s =>
    ((updateOne (·.id == userId) update s.users).find? (·.id == userId),
      { s with users := updateOne (·.id == userId) update s.users })

/-- The unique index on `email` refuses a second document with the same address. -/
def create (params : CreateUserParams) (id : String) (now : Nat) : Db User := do
  let stored ← Fallible.atomically fun s =>
    if s.users.any (·.email == params.email) then (false, s)
    else (true, { s with users := s.users ++ [params.document id now] })
  if stored then return params.document id now
  else throw (.internal "E11000 duplicate key error")

/-- The schema trims and lower-cases the addresses it stores and those of a query. The validators
    of `register`, `login` and `requestPasswordReset` have already done it to the address that the
    callers pass on, so that the addresses are compared as they are. -/
def findByEmail (email : String) : Db (Option User) :=
  Fallible.atomically fun s => (s.users.find? (·.email == email), s)

def findByEmailWithPassword (email : String) : Db (Option User) := findByEmail email

def findById (id : String) : Db (Option User) :=
  Fallible.atomically fun s => (s.users.find? (·.id == id), s)

/-- The test of the query `findWithValidResetToken` makes. -/
def hasValidResetToken (now : Nat) (user : User) : Bool :=
  user.resetPasswordTokenHash.isSome &&
    match user.resetPasswordExpiresAt with
    | some expiresAt => now < expiresAt
    | none           => false

def findWithValidResetToken (now : Nat) : Db (List User) :=
  Fallible.atomically fun s => (s.users.filter (hasValidResetToken now), s)

/-- `findUsersPaginated({ status }, 0, limit)`: the newest first. -/
def findUsersByStatus (status : UserStatus) (limit : Nat) : Db (List User) :=
  Fallible.atomically fun s =>
    (((s.users.filter (·.status == status)).mergeSort
      fun u v => v.createdAt ≤ u.createdAt).take limit, s)

def clearPasswordResetAndSetPassword (userId passwordHash : String) : Db Unit := do
  let _ ← findByIdAndUpdate userId fun user =>
    { user with passwordHash, resetPasswordTokenHash := none, resetPasswordExpiresAt := none }

def deleteById (id : String) : Db (Option User) :=
  Fallible.atomically fun s =>
    (s.users.find? (·.id == id), { s with users := s.users.eraseP (·.id == id) })

def clearActiveDevice (userId : String) : Db Unit := do
  let _ ← findByIdAndUpdate userId fun user => { user with activeDeviceId := none }

def updateUser (userId : String) (updateData : User → User) : Db (Option User) :=
  findByIdAndUpdate userId updateData

def clearSession (userId : String) : Db Unit := do
  let _ ← findByIdAndUpdate userId fun user =>
    { user with activeDeviceId := none, activeSessionId := none, refreshTokenHash := none }

structure SessionData where
  activeSessionId : Option String
  activeDeviceId : Option String
  refreshTokenHash : Option String

def getSessionData (userId : String) : Db (Option SessionData) :=
  Fallible.atomically fun s =>
    ((s.users.find? (·.id == userId)).map fun user =>
      { activeSessionId := user.activeSessionId, activeDeviceId := user.activeDeviceId,
        refreshTokenHash := user.refreshTokenHash }, s)

/-! ## The sessions collection -/

/-- An upsert by `{ userId, deviceId }` that sets every field. -/
def createSession (userId deviceId sessionId refreshTokenHash : String) (now : Nat) : Db Unit :=
  let doc : Session := { userId, deviceId, sessionId, refreshTokenHash, lastActiveAt := now }
  Fallible.atomically fun s => ((), { s with sessions := upsert (·.key == doc.key) doc s.sessions })

/-- The fields of the user document first, then the session document once more. -/
def setSession (userId deviceId sid refreshTokenHash : String) (now : Nat) : Db Unit := do
  let _ ← findByIdAndUpdate userId fun user =>
    { user with
      activeDeviceId := some deviceId
      activeSessionId := some sid
      refreshTokenHash := some refreshTokenHash }
  createSession userId deviceId sid refreshTokenHash now

def getAllSessions (userId : String) : Db (List Session) :=
  Fallible.atomically fun s => (s.sessionsOf userId, s)

def getSessionBySessionId (sessionId : String) : Db (Option Session) :=
  Fallible.atomically fun s => (s.sessions.find? (·.sessionId == sessionId), s)

/-- The filter of `deleteSession`: without a device id it matches all sessions of the user. -/
def deleteSessionFilter (userId : String) (deviceId : Option String) (doc : Session) : Bool :=
  doc.userId == userId && (!truthy deviceId || deviceId == some doc.deviceId)

def deleteSession (userId : String) (deviceId : Option String) : Db Unit :=
  Fallible.atomically fun s =>
    ((), { s with sessions := deleteMany (deleteSessionFilter userId deviceId) s.sessions })

def clearAllSessions (userId : String) : Db Unit :=
  Fallible.atomically fun s =>
    ((), { s with sessions := deleteMany (·.userId == userId) s.sessions })

def updateSessionLastActive (sessionId : String) (now : Nat) : Db Unit :=
  Fallible.atomically fun s =>
    ((), { s with
      sessions := updateOne (·.sessionId == sessionId)
        (fun doc => { doc with lastActiveAt := now }) s.sessions })

end Backend.UsersService
