-- SUMMARY: The state the backend keeps in its database: the user and session documents of the schemas, and the exceptions its services throw.
import ParkingGate.Base.Collection
import ParkingGate.Base.Prog

namespace Backend

/-! ## users/schemas -/

inductive UserRole where
  | user | admin
  deriving DecidableEq, Repr

/-- `USER_STATUS` -/
inductive UserStatus where
  | pending | approved | rejected | archived
  deriving DecidableEq, Repr

/-- A user document. A field that is unset or `null` is `none`. -/
structure User where
  id : String
  email : String
  passwordHash : String
  role : UserRole
  firstName : String
  lastName : String
  phone : String
  apartmentNumber : Int
  floor : Int
  status : UserStatus
  rejectionReason : Option String
  approvedAt : Option Nat
  rejectedAt : Option Nat
  approvalEmailSentAt : Option Nat
  activeDeviceId : Option String
  activeSessionId : Option String
  refreshTokenHash : Option String
  resetPasswordTokenHash : Option String
  resetPasswordExpiresAt : Option Nat
  createdAt : Nat
  deriving DecidableEq, Repr

structure Session where
  userId : String
  deviceId : String
  sessionId : String
  refreshTokenHash : String
  lastActiveAt : Nat
  deriving DecidableEq, Repr

/-- The pair `createSession` upserts by. -/
def Session.key (doc : Session) : String × String := (doc.userId, doc.deviceId)

/-- An e-mail the transport has accepted. -/
inductive Mail where
  | approval (email firstName lastName : String)
  | passwordReset (email resetLink : String) (expiresInMinutes : Nat)
  deriving DecidableEq, Repr

/-- The two collections, and the mail that has left the system. -/
structure Store where
  users : List User
  sessions : List Session
  outbox : List Mail
  deriving DecidableEq, Repr

def Store.empty : Store := { users := [], sessions := [], outbox := [] }

/-- The session documents of one user. -/
def Store.sessionsOf (s : Store) (userId : String) : List Session :=
  s.sessions.filter (·.userId == userId)

theorem Store.sessionsOf_eq_nil {s : Store} {userId : String} :
    s.sessionsOf userId = [] ↔ ∀ doc ∈ s.sessions, doc.userId ≠ userId := by
  simp [sessionsOf, List.filter_eq_nil_iff]

/-! ## Exceptions -/

/-- What a service throws: the exceptions of the framework with their message, the
    response body `login` builds for a rejected account, and an error that is not
    an `HttpException` (the server answers 500). -/
inductive HttpException where
  | badRequest (message : String)
  | unauthorized (message : String)
  | forbidden (message : String)
  | forbiddenRejected (message : String) (rejectionReason : Option String)
  | conflict (message : String)
  | notFound (message : String)
  | internal (message : String)
  deriving DecidableEq, Repr

/-- A service method: its database steps, each atomic, and what it returns or throws. -/
abbrev Db (α : Type) := Fallible HttpException Store α

/-- `if (s)` on an optional string: unset and empty are falsy. -/
def truthy : Option String → Bool
  | some s => s ≠ ""
  | none   => false

end Backend
