-- SUMMARY: The diagnostic log is a persistent bounded queue: its operations refine those of a list, in memory and in NVS.
import ParkingGate.Base.RingBuffer
import ParkingGate.Firmware.DiagnosticLog

/-!
# The diagnostic log as a queue

Within one boot, and as long as NVS works, the log behaves like a list of at most
`DIAGNOSTIC_LOG_MAX_ENTRIES` entries. The proof goes through the ring buffer the log is:
its contents are the reference list, and NVS holds the same list after every `save`.
-/

namespace Firmware

open Config

/-- An operation of the log within one boot, while every NVS call succeeds. -/
inductive QueueOp where
  | append (millis : UInt32) (level : DiagnosticLevel) (event message : Option CString)
  | removeFirst (n : Nat)
  | clear

namespace QueueOp

def toOp : QueueOp → DiagnosticOp
  | .append millis level event message => .append true millis level event message
  | .removeFirst n => .removeFirst true n
  | .clear         => .clear true

/-- The log an operation leaves, with the writes of its `save`. -/
def run (log : DiagnosticLog) : QueueOp → Option (DiagnosticLog × List NvsWrite)
  | .append millis level event message => log.append true millis level event message
  | .removeFirst n => log.removeFirst true n
  | .clear         => DiagnosticLog.clear true

theorem step_toOp (s : DiagnosticStore) (op : QueueOp) :
    s.step op.toOp = (op.run s.log).map s.commit := by
  cases op <;> rfl

end QueueOp

/-! ## The reference list -/

/-- What `append` records, with the texts cut to 19 and 31 bytes. -/
def DiagnosticEntry.recorded (millis : UInt32) (level : DiagnosticLevel) (event : CString)
    (message : Option CString) : DiagnosticEntry where
  ts := millis
  level := level.toByte
  event := event.strncpy 19
  message := (message.getD CString.empty).strncpy 31

namespace DiagnosticQueue

/-- Add an entry at the end; the oldest one goes when there are too many. -/
def push (q : List DiagnosticEntry) (e : DiagnosticEntry) : List DiagnosticEntry :=
  let q' := q ++ [e]
  if q'.length > diagnosticLogMaxEntries then q'.tail else q'

def apply (q : List DiagnosticEntry) : QueueOp → List DiagnosticEntry
  | .append _ _ none _ => q
  | .append millis level (some event) message => push q (.recorded millis level event message)
  | .removeFirst n => q.drop n
  | .clear         => []

def applyAll (ops : List QueueOp) : List DiagnosticEntry := ops.foldl apply []

end DiagnosticQueue

/-! ## What a log shows -/

/-- The texts fit their fields. -/
structure DiagnosticEntry.Fits (e : DiagnosticEntry) : Prop where
  event : e.event.bytes.length < eventLen
  message : e.message.bytes.length < messageLen

theorem DiagnosticEntry.recorded_fits (millis : UInt32) (level : DiagnosticLevel) (event : CString)
    (message : Option CString) : (recorded millis level event message).Fits :=
  ⟨Nat.lt_succ_of_le (event.length_strncpy_le 19),
    Nat.lt_succ_of_le ((message.getD CString.empty).length_strncpy_le 31)⟩

namespace DiagnosticQueue

theorem push_fits {q : List DiagnosticEntry} {e : DiagnosticEntry} (hq : ∀ x ∈ q, x.Fits)
    (he : e.Fits) : ∀ x ∈ push q e, x.Fits := by
  have hall : ∀ x ∈ q ++ [e], x.Fits := by
    intro x hx
    rcases List.mem_append.mp hx with hx | hx
    · exact hq x hx
    · exact List.mem_singleton.mp hx ▸ he
  intro x hx
  simp only [push] at hx
  split at hx
  · exact hall x (List.mem_of_mem_tail hx)
  · exact hall x hx

theorem apply_fits {q : List DiagnosticEntry} (hq : ∀ x ∈ q, x.Fits) (op : QueueOp) :
    ∀ x ∈ apply q op, x.Fits := by
  cases op with
  | append millis level event message =>
    cases event with
    | none => exact hq
    | some event => exact push_fits hq (DiagnosticEntry.recorded_fits millis level event message)
  | removeFirst n => exact fun x hx => hq x (List.mem_of_mem_drop hx)
  | clear => exact fun x hx => absurd hx List.not_mem_nil

end DiagnosticQueue

namespace DiagnosticLog

/-- The entries, oldest first; what `save` writes as the blob. -/
def contents (log : DiagnosticLog) : List DiagnosticEntry :=
  (List.range log.count).map log.slot

@[simp] theorem length_contents (log : DiagnosticLog) : log.contents.length = log.count := by
  simp [contents]

@[simp] theorem contents_empty : empty.contents = [] := rfl

theorem getElem?_contents {log : DiagnosticLog} {i : Nat} (h : i < log.count) :
    log.contents[i]? = some (log.slot i) := by
  simp [contents, h]

/-- Through `getEntry`, with buffers at least as long as the fields, the log shows the list. -/
def Shows (log : DiagnosticLog) (q : List DiagnosticEntry) : Prop :=
  log.count = q.length ∧ ∀ i eventLen messageLen,
    DiagnosticEntry.eventLen ≤ eventLen → DiagnosticEntry.messageLen ≤ messageLen →
    log.getEntry i eventLen messageLen = q[i]?

theorem shows_of_contents {log : DiagnosticLog} {q : List DiagnosticEntry}
    (hq : log.contents = q) (hfits : ∀ e ∈ q, e.Fits) : log.Shows q := by
  subst hq
  refine ⟨(length_contents log).symm, fun i eventLen messageLen hevent hmessage => ?_⟩
  unfold getEntry
  split
  · rename_i hi
    exact (List.getElem?_eq_none (by simpa using hi)).symm
  · rename_i hi
    have hget := getElem?_contents (Nat.lt_of_not_le hi)
    have hslot : (log.slot i).Fits := hfits _ (List.mem_of_getElem? hget)
    have hevent' : (log.slot i).event.strncpy (eventLen - 1) = (log.slot i).event := by
      apply CString.strncpy_of_length_le
      have := hslot.event
      omega
    have hmessage' : (log.slot i).message.strncpy (messageLen - 1) = (log.slot i).message := by
      apply CString.strncpy_of_length_le
      have := hslot.message
      omega
    simp only [hget, hevent', hmessage']

/-! ### The ring behind it -/

/-- The ring buffer that a log in range is. -/
def ring (log : DiagnosticLog) (h : log.InRange) :
    RingBuffer DiagnosticEntry diagnosticLogMaxEntries where
  slots := log.entries
  head := ⟨log.head, h.head⟩
  count := ⟨log.count, Nat.lt_succ_of_le h.count⟩

theorem contents_eq_ring (log : DiagnosticLog) (h : log.InRange) :
    log.contents = (log.ring h).contents := by
  apply List.ext_getElem?
  intro i
  by_cases hi : i < log.count
  · rw [getElem?_contents hi, RingBuffer.getElem?_contents (log.ring h) hi]
    simp [ring, slot, Vector.get, Nat.mod_lt]
  · rw [List.getElem?_eq_none, List.getElem?_eq_none]
    · simpa [ring] using hi
    · simpa using hi

/-! ### Saving and loading -/

/-- The writes of a save that goes through. -/
def writes (log : DiagnosticLog) : List NvsWrite :=
  if log.count = 0 then [.putUChar 0] else [.putUChar log.count, .putBytes log.contents]

theorem saved_true {log : DiagnosticLog} (h : log.count ≤ diagnosticLogMaxEntries) :
    saved log true = some (log, log.writes) := by
  have hcount : ¬ log.count > diagnosticLogMaxEntries := by omega
  have hsave : log.save true = some log.writes := by
    simp only [save, writes, hcount, Bool.not_true, Bool.false_eq_true, if_false]
    split <;> rfl
  simp only [saved, hsave, Option.map_some]

/-- A loaded log shows the buffer that the blob was read into. -/
theorem contents_load (nvs : Nvs) (tmp : Vector DiagnosticEntry diagnosticLogMaxEntries)
    (h : nvs.cnt ≤ diagnosticLogMaxEntries) :
    (load nvs true tmp).contents = (nvs.getBytes tmp nvs.cnt).toList.take nvs.cnt := by
  have hcount : (load nvs true tmp).count = nvs.cnt := if_neg (by omega)
  have hmin : (if nvs.cnt > diagnosticLogMaxEntries then diagnosticLogMaxEntries else nvs.cnt)
      = nvs.cnt := if_neg (by omega)
  apply List.ext_getElem
  · simp [hcount, h]
  · intro i hi _
    have hi : i < nvs.cnt := by simpa [hcount] using hi
    have hpos : i % diagnosticLogMaxEntries = i := Nat.mod_eq_of_lt (by omega)
    simp [contents, slot, load, hmin, Vector.get, hpos]
    exact if_pos hi

/-- The blob of a log in range comes back whatever the buffer held before. -/
theorem contents_load_of_length {nvs : Nvs} (h : nvs.cnt ≤ diagnosticLogMaxEntries)
    (hbuf : 0 < nvs.cnt → nvs.buf.length = nvs.cnt)
    (tmp : Vector DiagnosticEntry diagnosticLogMaxEntries) :
    (load nvs true tmp).contents = if nvs.cnt = 0 then [] else nvs.buf := by
  rw [contents_load nvs tmp h]
  split
  · rename_i hzero
    rw [hzero, List.take_zero]
  · rename_i hpos
    have hlen := hbuf (Nat.pos_of_ne_zero hpos)
    apply List.ext_getElem
    · simp [hlen, h]
    · intro i hi hi'
      have hget : nvs.buf[i]? = some nvs.buf[i] := List.getElem?_eq_getElem hi'
      simp [Nvs.getBytes, hlen, hget]

end DiagnosticLog

/-! ## One operation -/

namespace DiagnosticLog

theorem removeFirst_of_le {log : DiagnosticLog} {n : Nat} (h : log.count ≤ n) :
    log.removeFirst true n = some (empty, empty.writes) :=
  (if_pos h).trans (saved_true empty_inRange.count)

theorem removeFirst_of_lt {log : DiagnosticLog} (h : log.count ≤ diagnosticLogMaxEntries) {n : Nat}
    (hn : n < log.count) :
    log.removeFirst true n =
      some ({ log with count := log.count - n }, writes { log with count := log.count - n }) :=
  (if_neg (by omega)).trans (saved_true ((Nat.sub_le _ _).trans h))

theorem InRange.contents_drop {log : DiagnosticLog} (h : log.InRange) (n : Nat) :
    contents { log with count := log.count - n } = log.contents.drop n := by
  have h' : InRange { log with count := log.count - n } :=
    ⟨h.head, (Nat.sub_le _ _).trans h.count⟩
  have hring : ring { log with count := log.count - n } h' = (log.ring h).dropOldest n := rfl
  rw [contents_eq_ring _ h', hring, RingBuffer.contents_dropOldest, ← contents_eq_ring]

/-- An event goes to the end of a log in range, before the log is saved. -/
theorem InRange.append_eq {log : DiagnosticLog} (h : log.InRange) (millis : UInt32)
    (level : DiagnosticLevel) (event : CString) (message : Option CString) :
    ∃ log', (∀ opened, log.append opened millis level (some event) message = saved log' opened) ∧
      log'.InRange ∧
      log'.contents = DiagnosticQueue.push log.contents (.recorded millis level event message) := by
  let e := DiagnosticEntry.recorded millis level event message
  let log' : DiagnosticLog := {
    count := if log.count < diagnosticLogMaxEntries then log.count + 1 else log.count
    entries := log.entries.set log.head e h.head
    head := (log.head + 1) % diagnosticLogMaxEntries }
  have h' : log'.InRange := by
    refine ⟨Nat.mod_lt _ (by decide), ?_⟩
    have := h.count
    simp only [log']
    split <;> omega
  have hrun : ∀ opened, log.append opened millis level (some event) message = saved log' opened := by
    intro opened
    simp only [DiagnosticLog.append, h.head, dif_pos]
    rfl
  have hring : log'.ring h' = (log.ring h).push e := rfl
  refine ⟨log', hrun, h', ?_⟩
  rw [contents_eq_ring _ h', hring, RingBuffer.contents_push_eq, ← contents_eq_ring]
  rfl

theorem InRange.append_spec {log : DiagnosticLog} (h : log.InRange) (millis : UInt32)
    (level : DiagnosticLevel) (event : CString) (message : Option CString) :
    ∃ log', log.append true millis level (some event) message = some (log', log'.writes) ∧
      log'.InRange ∧
      log'.contents = DiagnosticQueue.push log.contents (.recorded millis level event message) := by
  obtain ⟨log', hrun, h', hcontents⟩ := h.append_eq millis level event message
  exact ⟨log', (hrun true).trans (saved_true h'.count), h', hcontents⟩

end DiagnosticLog

namespace QueueOp

open DiagnosticLog

/-- What an operation does to a log in range: it applies to the contents, and its save, if
    it makes one, writes the new contents. -/
theorem run_spec {log : DiagnosticLog} (h : log.InRange) (op : QueueOp) :
    ∃ log' ws, op.run log = some (log', ws) ∧ log'.InRange ∧
      log'.contents = DiagnosticQueue.apply log.contents op ∧
      (ws = log'.writes ∨ log' = log ∧ ws = []) := by
  cases op with
  | append millis level event message =>
    cases event with
    | none => exact ⟨log, [], rfl, h, rfl, .inr ⟨rfl, rfl⟩⟩
    | some event =>
      obtain ⟨log', hrun, h', hcontents⟩ := h.append_spec millis level event message
      exact ⟨log', _, hrun, h', hcontents, .inl rfl⟩
  | removeFirst n =>
    by_cases hn : log.count ≤ n
    · refine ⟨empty, _, removeFirst_of_le hn, empty_inRange, ?_, .inl rfl⟩
      exact (List.drop_eq_nil_of_le (by simpa using hn)).symm
    · have hn : n < log.count := Nat.lt_of_not_le hn
      exact ⟨_, _, removeFirst_of_lt h.count hn, ⟨h.head, (Nat.sub_le _ _).trans h.count⟩,
        h.contents_drop n, .inl rfl⟩
  | clear =>
    exact ⟨empty, _, saved_true empty_inRange.count, empty_inRange, contents_empty, .inl rfl⟩

end QueueOp

/-! ## Whole runs -/

namespace DiagnosticStore

open DiagnosticLog

/-- NVS holds the contents of the log. Nothing is said of the blob of an empty log. -/
structure Saved (s : DiagnosticStore) : Prop where
  cnt : s.nvs.cnt = s.log.count
  buf : 0 < s.log.count → s.nvs.buf = s.log.contents

/-- What is loaded from NVS is then the log that was saved. -/
theorem Saved.contents_load {s : DiagnosticStore} (h : s.Saved)
    (hcount : s.log.count ≤ diagnosticLogMaxEntries)
    (tmp : Vector DiagnosticEntry diagnosticLogMaxEntries) :
    (load s.nvs true tmp).contents = s.log.contents := by
  have hlen : 0 < s.nvs.cnt → s.nvs.buf.length = s.nvs.cnt := by
    intro hpos
    rw [h.cnt] at hpos ⊢
    rw [h.buf hpos, length_contents]
  rw [contents_load_of_length (h.cnt ▸ hcount) hlen tmp]
  split
  · rename_i hzero
    exact (List.length_eq_zero_iff.mp (by rw [length_contents, ← h.cnt, hzero])).symm
  · rename_i hpos
    exact h.buf (h.cnt ▸ Nat.pos_of_ne_zero hpos)

/-- A save brings NVS up to date, whatever it held before. -/
theorem saved_writes (log : DiagnosticLog) (nvs : Nvs) :
    Saved ⟨log, nvs.writeAll log.writes⟩ := by
  by_cases hzero : log.count = 0
  · refine ⟨?_, fun hpos => absurd hpos (by simp [hzero])⟩
    simp [writes, hzero, Nvs.writeAll, Nvs.write]
  · constructor
    · simp [writes, hzero, Nvs.writeAll, Nvs.write]
    · simp [writes, hzero, Nvs.writeAll, Nvs.write]

/-- The log and NVS hold the reference list `q`. -/
structure Holds (s : DiagnosticStore) (q : List DiagnosticEntry) : Prop where
  inRange : s.log.InRange
  contents : s.log.contents = q
  saved : s.Saved
  fits : ∀ e ∈ q, e.Fits

theorem Holds.step {s : DiagnosticStore} {q : List DiagnosticEntry} (h : s.Holds q)
    (op : QueueOp) :
    ∃ s', s.step op.toOp = some s' ∧ s'.Holds (DiagnosticQueue.apply q op) := by
  obtain ⟨log', ws, hrun, hrange, hcontents, hws⟩ := op.run_spec h.inRange
  rw [h.contents] at hcontents
  refine ⟨s.commit (log', ws), by rw [QueueOp.step_toOp, hrun, Option.map_some], hrange,
    hcontents, ?_, DiagnosticQueue.apply_fits h.fits op⟩
  rcases hws with rfl | ⟨rfl, rfl⟩
  · exact saved_writes log' s.nvs
  · exact h.saved

/-- The operations of one boot act on the log as on the reference list, in memory and in NVS. -/
theorem holds_run (stale : List DiagnosticEntry) (ops : List QueueOp) :
    ∃ s, Trace.exec step ⟨empty, ⟨0, stale⟩⟩ (ops.map QueueOp.toOp) = some s ∧
      s.Holds (DiagnosticQueue.applyAll ops) := by
  induction ops using List.reverseRecOn with
  | nil =>
    refine ⟨_, rfl, empty_inRange, contents_empty, ⟨rfl, fun hpos => ?_⟩, fun e he => ?_⟩
    · cases hpos
    · cases he
  | append_singleton ops op ih =>
    obtain ⟨s, hs, hq⟩ := ih
    obtain ⟨s', hs', hq'⟩ := hq.step op
    refine ⟨s', ?_, ?_⟩
    · rw [List.map_append]
      exact Trace.exec_snoc hs hs'
    · simpa [DiagnosticQueue.applyAll] using hq'

/-- The log is a persistent bounded queue: after any operations on an empty log, `getEntry`
    returns the entries of the reference list, and so it does on a log loaded from what was
    saved, whatever the blob of the empty log and the uninitialised buffer held. -/
theorem refines_queue (stale : List DiagnosticEntry) (ops : List QueueOp) :
    ∃ s, Trace.exec step ⟨empty, ⟨0, stale⟩⟩ (ops.map QueueOp.toOp) = some s ∧
      s.log.Shows (DiagnosticQueue.applyAll ops) ∧
      ∀ tmp, (load s.nvs true tmp).Shows (DiagnosticQueue.applyAll ops) := by
  obtain ⟨s, hs, hq⟩ := holds_run stale ops
  refine ⟨s, hs, shows_of_contents hq.contents hq.fits, fun tmp => ?_⟩
  have hload := hq.saved.contents_load hq.inRange.count tmp
  exact shows_of_contents (hload.trans hq.contents) hq.fits

end DiagnosticStore

end Firmware
