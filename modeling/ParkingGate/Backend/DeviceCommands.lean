-- SUMMARY: The out-of-band commands for the gate controller (`device-commands.service.ts`): setting, consuming and reading pending commands.
import ParkingGate.Base.Collection
import ParkingGate.Base.Prog

/-!
# Pending device commands

Every `setPending` with a real action appends a document to the collection; only the action
`none` deletes documents. `consumePending` is the poll of the gate controller: it looks up
the newest document that is neither consumed nor expired and marks it in a second round
trip. Each database call is one action of a program, so that other calls can come between.
-/

namespace Backend

inductive DeviceCommandAction where
  | none | reboot | rebuildPpp
  deriving DecidableEq

/-- A document of `DevicePendingCommand`. -/
structure PendingCommand where
  /-- `_id` -/
  id : Nat
  deviceId : String
  action : DeviceCommandAction
  reason : Option String
  expiresAt : Option Nat
  consumedAt : Option Nat
  createdAt : Nat
  deriving DecidableEq

/-- The collection, oldest document first, and the next `_id`. -/
structure CommandStore where
  commands : List PendingCommand
  nextId : Nat

/-- `DocumentNotFoundError`: the document of a `save` was deleted meanwhile. -/
inductive CommandError where
  | documentNotFound
  deriving DecidableEq

/-- What `setPending` answers. -/
structure SetPendingResponse where
  id : Option Nat
  deviceId : String
  action : DeviceCommandAction
  reason : Option String
  expiresAt : Option Nat
  deriving DecidableEq

/-- What `consumePending` answers. The answer does not hold the `_id`, which tells here the
    document that it is made of. -/
structure PendingResponse where
  id : Option Nat
  deviceId : String
  action : DeviceCommandAction
  reason : Option String
  createdAt : Option Nat
  deriving DecidableEq

/-- What `getLatestPending` answers, with the `_id` as above. -/
structure LatestResponse where
  id : Option Nat
  deviceId : String
  action : DeviceCommandAction
  reason : Option String
  expiresAt : Option Nat
  createdAt : Option Nat
  deriving DecidableEq

namespace PendingCommand

/-- `$or: [{ expiresAt: { $exists: false } }, { expiresAt: { $gt: now } }]` -/
def unexpired (now : Nat) (doc : PendingCommand) : Bool :=
  match doc.expiresAt with
  | none           => true
  | some expiresAt => now < expiresAt

/-- The filter of `consumePending` and `getLatestPending`. -/
def pendingFor (deviceId : String) (now : Nat) (doc : PendingCommand) : Bool :=
  doc.deviceId == deviceId && doc.consumedAt.isNone && doc.unexpired now

def consume (now : Nat) (doc : PendingCommand) : PendingCommand := { doc with consumedAt := some now }

theorem pendingFor_iff {deviceId : String} {now : Nat} {doc : PendingCommand} :
    doc.pendingFor deviceId now = true ↔
      doc.deviceId = deviceId ∧ doc.consumedAt = none ∧ doc.unexpired now = true := by
  simp [pendingFor, and_assoc]

end PendingCommand

def pendingResponse (deviceId : String) : Option PendingCommand → PendingResponse
  | none     => ⟨none, deviceId, .none, none, none⟩
  | some doc => ⟨some doc.id, deviceId, doc.action, doc.reason, some doc.createdAt⟩

def latestResponse (deviceId : String) : Option PendingCommand → LatestResponse
  | none     => ⟨none, deviceId, .none, none, none, none⟩
  | some doc => ⟨some doc.id, deviceId, doc.action, doc.reason, doc.expiresAt, some doc.createdAt⟩

namespace CommandStore

def init : CommandStore := ⟨[], 0⟩

/-- `findOne` with the filter, `.sort({ createdAt: -1 })`. -/
def findPending (s : CommandStore) (deviceId : String) (now choice : Nat) : Option PendingCommand :=
  Collection.findGreatest (·.pendingFor deviceId now) (·.createdAt) choice s.commands

/-- `deleteMany({ deviceId })` -/
def deletePending (s : CommandStore) (deviceId : String) : CommandStore :=
  { s with commands := Collection.deleteMany (·.deviceId == deviceId) s.commands }

/-- The document that `create` inserts. -/
def newCommand (s : CommandStore) (deviceId : String) (action : DeviceCommandAction)
    (reason : Option String) (expiresAt : Option Nat) (now : Nat) : PendingCommand where
  id := s.nextId
  deviceId := deviceId
  action := action
  reason := reason
  expiresAt := expiresAt
  consumedAt := none
  createdAt := now

def create (s : CommandStore) (deviceId : String) (action : DeviceCommandAction)
    (reason : Option String) (expiresAt : Option Nat) (now : Nat) : CommandStore where
  commands := s.commands ++ [s.newCommand deviceId action reason expiresAt now]
  nextId := s.nextId + 1

/-- `doc.save()` after `doc.consumedAt = now`; no two documents share an `_id`. -/
def saveConsumed (s : CommandStore) (id now : Nat) : CommandStore :=
  { s with commands := s.commands.map fun doc => if doc.id = id then doc.consume now else doc }

def has (s : CommandStore) (id : Nat) : Bool := s.commands.any (·.id == id)

@[simp] theorem has_saveConsumed (s : CommandStore) (id id' now : Nat) :
    (s.saveConsumed id now).has id' = s.has id' := by
  unfold has saveConsumed
  rw [List.any_map]
  congr 1
  funext doc
  simp only [Function.comp]
  split <;> rfl

end CommandStore

open CommandStore

/-- The expiry of a new command; a `ttlSeconds` of zero counts as none. -/
def expiryOf (ttlSeconds : Option Nat) (now : Nat) : Option Nat :=
  match ttlSeconds with
  | some ttl => if 0 < ttl then some (now + ttl * 1000) else none
  | none     => none

/-- `setPending`. -/
def setPending (deviceId : String) (action : DeviceCommandAction) (reason : Option String)
    (ttlSeconds : Option Nat) (now : Nat) : Fallible CommandError CommandStore SetPendingResponse :=
  if action = .none then do
    Fallible.atomically fun s => ((), s.deletePending deviceId)
    return ⟨none, deviceId, .none, none, none⟩
  else do
    let expiresAt := expiryOf ttlSeconds now
    let id ← Fallible.atomically fun s =>
      (s.nextId, s.create deviceId action reason expiresAt now)
    return ⟨some id, deviceId, action, reason, expiresAt⟩

/-- `consumePending`. -/
def consumePending (deviceId : String) (now choice : Nat) :
    Fallible CommandError CommandStore PendingResponse := do
  let found ← Fallible.atomically fun s => (s.findPending deviceId now choice, s)
  match found with
  | none     => return pendingResponse deviceId none
  | some doc =>
    let saved ← Fallible.atomically fun s => (s.has doc.id, s.saveConsumed doc.id now)
    if !saved then throw .documentNotFound
    return pendingResponse deviceId (some doc)

/-- `getLatestPending`. -/
def getLatestPending (deviceId : String) (now choice : Nat) :
    Fallible CommandError CommandStore LatestResponse := do
  let found ← Fallible.atomically fun s => (s.findPending deviceId now choice, s)
  return latestResponse deviceId found

/-! ## Sequential runs -/

section Run

variable (s : CommandStore) (deviceId : String) (now choice : Nat)

theorem setPending_run (action : DeviceCommandAction) (reason : Option String)
    (ttlSeconds : Option Nat) :
    ((setPending deviceId action reason ttlSeconds now).prog.run s).2 =
      if action = .none then s.deletePending deviceId
      else s.create deviceId action reason (expiryOf ttlSeconds now) now := by
  unfold setPending
  split <;> rfl

theorem has_of_findPending {doc : PendingCommand} (h : s.findPending deviceId now choice = some doc) :
    s.has doc.id = true :=
  List.any_eq_true.mpr ⟨doc, (Collection.of_findGreatest h).1, beq_self_eq_true _⟩

/-- Run alone, `consumePending` delivers what it finds and marks it. -/
theorem consumePending_run :
    (consumePending deviceId now choice).prog.run s =
      (.ok (pendingResponse deviceId (s.findPending deviceId now choice)),
        match s.findPending deviceId now choice with
        | none     => s
        | some doc => s.saveConsumed doc.id now) := by
  unfold consumePending
  rw [Fallible.prog_atomically_bind, Prog.run_act]
  simp only
  cases hfound : s.findPending deviceId now choice with
  | none => rfl
  | some doc =>
    simp only
    rw [Fallible.prog_atomically_bind, Prog.run_act]
    simp only [has_of_findPending s deviceId now choice hfound]
    rfl

theorem getLatestPending_run :
    (getLatestPending deviceId now choice).prog.run s =
      (.ok (latestResponse deviceId (s.findPending deviceId now choice)), s) := rfl

end Run

end Backend
