-- SUMMARY: The gate service (`gate.service.ts`): replay registration of request ids, the stages of `openByUser` and the audit log.
import ParkingGate.Backend.MqttGateDevice

/-!
# The gate service

`openByUser` registers the request id in the `GateRequest` collection, calls the gate device
and writes one `GateLog` record, whichever way it ends. Each `await` of it is a state of
`Open`, so that other requests, the TTL index and the device can come in between.

The collections are lists of records, oldest first. What the database does is a parameter
where it may fail; a duplicate key is found by the unique index on `requestId`.
-/

namespace Backend

/-- What `openByUser` is called with. -/
structure OpenParams where
  requestId : String
  userId : String
  email : String
  deviceId : String
  sessionId : Option String
  ip : Option String
  userAgent : Option String

/-- A record of `GateRequest`. -/
structure GateRequest where
  requestId : String
  userId : String
  createdAt : Nat

/-- An operation of the database failed, before or after it wrote the record. -/
structure DatabaseFault where
  message : String
  written : Bool

/-- What `openByUser` throws. -/
inductive OpenError where
  | conflict (message : String)
  | gate (error : GateError)
  | database (message : String)

inductive GateOpenedBy where
  | user | adminBackdoor

inductive GateLogStatus where
  | success | failed | blockedRateLimit | blockedReplay
  deriving DecidableEq

structure GateLogMcuMetadata where
  attempted : Bool
  timeout : Bool
  retries : Nat
  deriving DecidableEq

/-- A record of `GateLog`. -/
structure GateLog where
  requestId : String
  userId : Option String
  email : Option String
  deviceId : Option String
  sessionId : Option String
  ip : Option String
  userAgent : Option String
  openedBy : GateOpenedBy
  status : GateLogStatus
  failureReason : Option String
  durationMs : Nat
  mcu : GateLogMcuMetadata

/-- Where a call of `openByUser` stands. -/
inductive OpenState where
  /-- Waiting for the insertion of the `GateRequest` record. -/
  | registering
  /-- The record is in, and the call is about to continue. -/
  | admitted
  /-- Waiting for the call of `openGate` with this index. -/
  | opening (call : Nat)
  /-- Waiting in the `finally` block for the insertion of the `GateLog` record. -/
  | logging (log : GateLog) (result : Except OpenError Unit)
  /-- Resolved with `success: true`, or thrown. -/
  | returned (result : Except OpenError Unit)

/-- A call of `openByUser`. -/
structure Open where
  params : OpenParams
  startTime : Nat
  state : OpenState

/-! ## Replay registration -/

/-- The collection after the insertion, and whether `openByUser` goes on. -/
def checkAndRegisterRequestId (requests : List GateRequest) (requestId userId : String)
    (now : Nat) (fault : Option DatabaseFault) : List GateRequest × Except OpenError Unit :=
  let duplicate := requests.any fun record => record.requestId = requestId
  let stored := if duplicate then requests else requests ++ [⟨requestId, userId, now⟩]
  match fault with
  | some fault => (if fault.written then stored else requests, .error (.database fault.message))
  | none =>
    -- Duplicate key error.
    if duplicate then (stored, .error (.conflict "בקשה כפולה זוהתה"))
    else (stored, .ok ())

/-- The TTL index may delete a record once it is older than `ttlSeconds`. -/
def GateRequest.expired (record : GateRequest) (ttlSeconds now : Nat) : Bool :=
  record.createdAt + ttlSeconds * 1000 ≤ now

/-- An id is admitted only when the database works and no record has it. -/
theorem checkAndRegisterRequestId_ok {requests stored : List GateRequest}
    {requestId userId : String} {now : Nat} {fault : Option DatabaseFault}
    (h : checkAndRegisterRequestId requests requestId userId now fault = (stored, .ok ())) :
    fault = none ∧ (∀ record ∈ requests, record.requestId ≠ requestId) ∧
      stored = requests ++ [⟨requestId, userId, now⟩] := by
  unfold checkAndRegisterRequestId at h
  cases fault with
  | some fault => simp at h
  | none =>
    simp only at h
    split at h
    · simp at h
    · rename_i hnew
      simp only [Prod.mk.injEq, and_true] at h
      exact ⟨rfl, by simpa using hnew, h.symm⟩

/-! ## The stages of `openByUser` -/

namespace OpenError

/-- What the `catch` block makes of an error: status, reason and metadata of the record. -/
def outcome : OpenError → GateLogStatus × String × GateLogMcuMetadata
  | .conflict message => (.blockedReplay, message, ⟨false, false, 0⟩)
  | .gate (.gatewayTimeout message) => (.failed, message, ⟨true, true, 0⟩)
  | .gate (.badGateway message) => (.failed, message, ⟨true, false, 0⟩)
  | .database message => (.failed, message, ⟨true, false, 0⟩)

end OpenError

namespace Open

/-- `openByUser` up to its first `await`. -/
def start (params : OpenParams) (now : Nat) : Open := ⟨params, now, .registering⟩

/-- The `GateLog` record of the `finally` block. -/
def record (o : Open) (now : Nat) (status : GateLogStatus) (failureReason : Option String)
    (mcu : GateLogMcuMetadata) : GateLog where
  requestId := o.params.requestId
  userId := some o.params.userId
  email := some o.params.email
  deviceId := some o.params.deviceId
  sessionId := o.params.sessionId
  ip := o.params.ip
  userAgent := o.params.userAgent
  openedBy := .user
  status := status
  failureReason := failureReason
  durationMs := now - o.startTime
  mcu := mcu

/-- The `try` block threw. -/
def fail (o : Open) (now : Nat) (error : OpenError) : OpenState :=
  let (status, failureReason, mcu) := error.outcome
  .logging (o.record now status (some failureReason) mcu) (.error error)

/-- The registration is over. -/
def registered (o : Open) (now : Nat) : Except OpenError Unit → OpenState
  | .ok ()       => .admitted
  | .error error => o.fail now error

/-- The call of `openGate` is over. -/
def settled (o : Open) (now : Nat) (metadata : McuCallMetadata) :
    Except GateError Unit → OpenState
  | .ok () =>
    .logging (o.record now .success none ⟨true, metadata.timeout, metadata.retries⟩) (.ok ())
  | .error error => o.fail now (.gate error)

/-- The insertion of the `GateLog` record is over; an error of it replaces the result. -/
def logged (result : Except OpenError Unit) : Option DatabaseFault → OpenState
  | none       => .returned result
  | some fault => .returned (.error (.database fault.message))

end Open

/-- The call has returned success, or is about to and only writes its record. -/
def OpenState.Succeeds : OpenState → Prop
  | .logging _ result | .returned result => result = .ok ()
  | _ => False

namespace Open

variable {o : Open} {now : Nat}

theorem not_succeeds_fail (error : OpenError) : ¬ (o.fail now error).Succeeds := by
  simp [fail, OpenState.Succeeds]

theorem not_succeeds_registered (result : Except OpenError Unit) :
    ¬ (o.registered now result).Succeeds := by
  cases result with
  | ok => simp [registered, OpenState.Succeeds]
  | error error => exact not_succeeds_fail error

/-- A call succeeds only if its call of `openGate` did. -/
theorem succeeds_settled {metadata : McuCallMetadata} {result : Except GateError Unit}
    (h : (o.settled now metadata result).Succeeds) : result = .ok () := by
  cases result with
  | ok => rfl
  | error error => exact absurd h (not_succeeds_fail _)

theorem succeeds_logged {log : GateLog} {result : Except OpenError Unit}
    {fault : Option DatabaseFault} (h : (logged result fault).Succeeds) :
    (OpenState.logging log result).Succeeds := by
  cases fault with
  | none => exact h
  | some fault => simp [logged, OpenState.Succeeds] at h

end Open

end Backend
