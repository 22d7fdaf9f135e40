-- SUMMARY: The persistent diagnostic log (`DiagnosticLog.cpp`): a ring of entries, the NVS it is saved to, and runs of its operations with reboots.
import ParkingGate.Base.CString
import ParkingGate.Base.Trace
import ParkingGate.Firmware.Config

/-!
# The diagnostic log

`count` and `head` are the source's `count_` and `head_`, kept as plain numbers: whether
they stay in range is what has to be proved. An access outside `entries_` or outside the
buffer of `save` is undefined in the source, and the operation returns `none` here.

An operation that saves returns the writes it makes to NVS, so that a run can apply all
of them, or only the first few.
-/

namespace Firmware

open Config

inductive DiagnosticLevel where
  | info | warn | error

def DiagnosticLevel.toByte : DiagnosticLevel → UInt8
  | .info  => 0
  | .warn  => 1
  | .error => 2

structure DiagnosticEntry where
  ts : UInt32
  level : UInt8
  event : CString
  message : CString

namespace DiagnosticEntry

/-- An entry cleared by `memset`. -/
def zero : DiagnosticEntry := ⟨0, 0, CString.empty, CString.empty⟩

/-- The size of `event` and of `message`, with the terminator. -/
def eventLen : Nat := 20
def messageLen : Nat := 32

end DiagnosticEntry

/-! ## NVS -/

/-- The two keys of the namespace `pgr_diag`; a missing key reads like these defaults. -/
structure Nvs where
  cnt : Nat
  buf : List DiagnosticEntry

/-- One atomic write of `save`. -/
inductive NvsWrite where
  | putUChar (cnt : Nat)
  | putBytes (buf : List DiagnosticEntry)

namespace Nvs

def blank : Nvs := ⟨0, []⟩

def write (nvs : Nvs) : NvsWrite → Nvs
  | .putUChar cnt => { nvs with cnt := cnt }
  | .putBytes buf => { nvs with buf := buf }

def writeAll (nvs : Nvs) (writes : List NvsWrite) : Nvs := writes.foldl write nvs

/-- `getBytes(key, tmp, n * sizeof(DiagnosticEntry))`: a longer blob copies nothing, a
    shorter one fills only its own length. -/
def getBytes (nvs : Nvs) (tmp : Vector DiagnosticEntry diagnosticLogMaxEntries) (n : Nat) :
    Vector DiagnosticEntry diagnosticLogMaxEntries :=
  if nvs.buf.length > n then tmp
  else Vector.ofFn fun i => (nvs.buf[i.val]?).getD tmp[i]

end Nvs

/-! ## The log -/

structure DiagnosticLog where
  count : Nat
  entries : Vector DiagnosticEntry diagnosticLogMaxEntries
  /-- The next write position. -/
  head : Nat

namespace DiagnosticLog

def empty : DiagnosticLog where
  count := 0
  entries := Vector.replicate _ DiagnosticEntry.zero
  head := 0

/-- The entry that is the `i`-th oldest. -/
def slot (log : DiagnosticLog) (i : Nat) : DiagnosticEntry :=
  let pos := (log.head + diagnosticLogMaxEntries - log.count + i) % diagnosticLogMaxEntries
  log.entries.get ⟨pos, Nat.mod_lt _ (by decide)⟩

/-- `load()` in a fresh object. `opened` is the answer of `prefs.begin`, `tmp` the
    content of the uninitialised buffer that is read into. -/
def load (nvs : Nvs) (opened : Bool) (tmp : Vector DiagnosticEntry diagnosticLogMaxEntries) :
    DiagnosticLog :=
  if !opened then empty
  else
    let count := if nvs.cnt > diagnosticLogMaxEntries then diagnosticLogMaxEntries else nvs.cnt
    let tmp := nvs.getBytes tmp count
    { count := count
      entries := Vector.ofFn fun i => if i < count then tmp[i] else DiagnosticEntry.zero
      head := count }

/-- The writes of `save()`; `none` when it writes past its buffer `tmp`. -/
def save (log : DiagnosticLog) (opened : Bool) : Option (List NvsWrite) :=
  if !opened then some []
  else if log.count = 0 then some [.putUChar 0]
  else if log.count > diagnosticLogMaxEntries then none
  else some [.putUChar log.count, .putBytes ((List.range log.count).map log.slot)]

/-- The log after an operation, with the writes of its `save()`. -/
def saved (log : DiagnosticLog) (opened : Bool) : Option (DiagnosticLog × List NvsWrite) :=
  (log.save opened).map fun writes => (log, writes)

/-- `none` in place of a string is the null pointer. -/
def append (log : DiagnosticLog) (opened : Bool) (millis : UInt32) (level : DiagnosticLevel)
    (event message : Option CString) : Option (DiagnosticLog × List NvsWrite) :=
  match event with
  | none => some (log, [])
  | some event =>
    let e : DiagnosticEntry := {
      ts := millis
      level := level.toByte
      event := event.strncpy (DiagnosticEntry.eventLen - 1)
      message := (message.getD CString.empty).strncpy (DiagnosticEntry.messageLen - 1) }
    if h : log.head < diagnosticLogMaxEntries then
      saved {
        count := if log.count < diagnosticLogMaxEntries then log.count + 1 else log.count
        entries := log.entries.set log.head e
        head := (log.head + 1) % diagnosticLogMaxEntries } opened
    -- `entries_[head_] = e` writes past the array.
    else none

def getEntry (log : DiagnosticLog) (index eventLen messageLen : Nat) : Option DiagnosticEntry :=
  if index ≥ log.count then none
  else
    let e := log.slot index
    some { e with
      event := e.event.strncpy (eventLen - 1)
      message := e.message.strncpy (messageLen - 1) }

def clear (opened : Bool) : Option (DiagnosticLog × List NvsWrite) := saved empty opened

def removeFirst (log : DiagnosticLog) (opened : Bool) (n : Nat) :
    Option (DiagnosticLog × List NvsWrite) :=
  if n ≥ log.count then clear opened
  else saved { log with count := log.count - n } opened

/-- The indices are in range. -/
structure InRange (log : DiagnosticLog) : Prop where
  head : log.head < diagnosticLogMaxEntries
  count : log.count ≤ diagnosticLogMaxEntries

theorem empty_inRange : empty.InRange := ⟨by decide, by decide⟩

/-- Saving a log in range does not overrun the buffer and changes nothing in memory. -/
theorem saved_of_count_le {log : DiagnosticLog} (h : log.count ≤ diagnosticLogMaxEntries)
    (opened : Bool) : ∃ writes, saved log opened = some (log, writes) := by
  have hsave : ∃ writes, log.save opened = some writes := by
    unfold save
    split
    · exact ⟨_, rfl⟩
    split
    · exact ⟨_, rfl⟩
    rw [if_neg (by omega)]
    exact ⟨_, rfl⟩
  obtain ⟨writes, hw⟩ := hsave
  exact ⟨writes, by simp [saved, hw]⟩

/-- A loaded log has a count in range; its head is out of range when it is full. -/
theorem load_count_le (nvs : Nvs) (opened : Bool)
    (tmp : Vector DiagnosticEntry diagnosticLogMaxEntries) :
    (load nvs opened tmp).count ≤ diagnosticLogMaxEntries := by
  unfold load
  split
  · exact empty_inRange.count
  · simp only
    split <;> omega

theorem load_head_lt_iff (nvs : Nvs) (opened : Bool)
    (tmp : Vector DiagnosticEntry diagnosticLogMaxEntries) :
    (load nvs opened tmp).head < diagnosticLogMaxEntries ↔
      opened = false ∨ nvs.cnt < diagnosticLogMaxEntries := by
  cases opened with
  | false => simp [load, empty]
  | true =>
    simp only [load, Bool.not_true, Bool.false_eq_true, Bool.true_eq_false, if_false, false_or]
    split <;> omega

end DiagnosticLog

/-! ## Runs -/

/-- The log in memory and what is persisted. -/
structure DiagnosticStore where
  log : DiagnosticLog
  nvs : Nvs

/-- The operations of the log. `opened` is the answer of `prefs.begin`. -/
inductive DiagnosticOp where
  | append (opened : Bool) (millis : UInt32) (level : DiagnosticLevel)
      (event message : Option CString)
  | removeFirst (opened : Bool) (n : Nat)
  | clear (opened : Bool)
  | reboot (opened : Bool) (tmp : Vector DiagnosticEntry diagnosticLogMaxEntries)

namespace DiagnosticStore

/-- A new device: nothing was ever persisted. -/
def fresh : DiagnosticStore := ⟨DiagnosticLog.empty, Nvs.blank⟩

/-- Keep the log an operation leaves and apply its writes. -/
def commit (s : DiagnosticStore) (r : DiagnosticLog × List NvsWrite) : DiagnosticStore :=
  ⟨r.1, s.nvs.writeAll r.2⟩

/-- One operation; `none` is an access outside an array. -/
def step (s : DiagnosticStore) : DiagnosticOp → Option DiagnosticStore
  | .append opened millis level event message =>
    (s.log.append opened millis level event message).map s.commit
  | .removeFirst opened n => (s.log.removeFirst opened n).map s.commit
  | .clear opened         => (DiagnosticLog.clear opened).map s.commit
  | .reboot opened tmp    => some { s with log := DiagnosticLog.load s.nvs opened tmp }

end DiagnosticStore

end Firmware
