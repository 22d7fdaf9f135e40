-- SUMMARY: The indices of the diagnostic log stay in range in exactly the runs that never reboot from a full persisted log.
import ParkingGate.Firmware.DiagnosticLog

/-!
# Index safety of the diagnostic log

`append`, `removeFirst` and `clear` keep the indices in range and never access an array
outside its bounds. `load` sets the head to the count without wrapping it, so the head is
one past the end after a reboot from a full log. The last theorem turns this into the
exact condition on a run.
-/

namespace Firmware

open Config

namespace DiagnosticLog

/-- On a log in range an operation accesses the arrays within bounds and leaves a log in
    range. -/
private theorem saved_inRange {log : DiagnosticLog} (h : log.InRange) (opened : Bool) :
    ∃ r, saved log opened = some r ∧ r.1.InRange := by
  obtain ⟨writes, hw⟩ := saved_of_count_le h.count opened
  exact ⟨_, hw, h⟩

theorem InRange.append {log : DiagnosticLog} (h : log.InRange) (opened : Bool) (millis : UInt32)
    (level : DiagnosticLevel) (event message : Option CString) :
    ∃ r, log.append opened millis level event message = some r ∧ r.1.InRange := by
  cases event with
  | none => exact ⟨_, rfl, h⟩
  | some event =>
    simp only [DiagnosticLog.append, h.head, dif_pos]
    refine saved_inRange ⟨Nat.mod_lt _ (by decide), ?_⟩ opened
    have := h.count
    simp only
    split <;> omega

theorem clear_inRange (opened : Bool) : ∃ r, clear opened = some r ∧ r.1.InRange :=
  saved_inRange empty_inRange opened

theorem InRange.removeFirst {log : DiagnosticLog} (h : log.InRange) (opened : Bool) (n : Nat) :
    ∃ r, log.removeFirst opened n = some r ∧ r.1.InRange := by
  unfold DiagnosticLog.removeFirst
  split
  · exact clear_inRange opened
  · have hlog : InRange { log with count := log.count - n } :=
      ⟨h.head, (Nat.sub_le _ _).trans h.count⟩
    exact saved_inRange hlog opened

end DiagnosticLog

namespace DiagnosticStore

/-- The indices are in range, and no operation accesses an array outside its bounds. -/
structure IndicesInRange (s : DiagnosticStore) : Prop where
  head : s.log.head < diagnosticLogMaxEntries
  count : s.log.count ≤ diagnosticLogMaxEntries
  inBounds : ∀ op, (s.step op).isSome

/-- A reboot loads a full log. -/
def RebootsFull (s : DiagnosticStore) (op : DiagnosticOp) : Prop :=
  diagnosticLogMaxEntries ≤ s.nvs.cnt ∧ ∃ tmp, op = .reboot true tmp

/-- What one operation does to a log in range: it is within bounds, and it leaves the
    log in range unless it is a reboot from a full one. -/
theorem step_of_inRange {s : DiagnosticStore} (h : s.log.InRange) (op : DiagnosticOp) :
    ∃ s', s.step op = some s' ∧ (s'.log.InRange ↔ ¬ s.RebootsFull op) := by
  have lift : ∀ {r : Option (DiagnosticLog × List NvsWrite)},
      (∃ x, r = some x ∧ x.1.InRange) → (∀ opened tmp, op ≠ .reboot opened tmp) →
      ∃ s', r.map s.commit = some s' ∧ (s'.log.InRange ↔ ¬ s.RebootsFull op) := by
    rintro _ ⟨x, rfl, hx⟩ hop
    exact ⟨s.commit x, rfl, iff_of_true hx fun hfull => hop true hfull.2.choose hfull.2.choose_spec⟩
  cases op with
  | append opened millis level event message =>
    exact lift (h.append opened millis level event message) (by simp)
  | removeFirst opened n => exact lift (h.removeFirst opened n) (by simp)
  | clear opened => exact lift (DiagnosticLog.clear_inRange opened) (by simp)
  | reboot opened tmp =>
    refine ⟨_, rfl, ?_⟩
    have hhead := DiagnosticLog.load_head_lt_iff s.nvs opened tmp
    have hcount := DiagnosticLog.load_count_le s.nvs opened tmp
    constructor
    · rintro hr ⟨hfull, tmp', heq⟩
      cases heq
      rcases hhead.mp hr.head with hopened | hlt
      · cases hopened
      · omega
    · intro hfull
      refine ⟨hhead.mpr ?_, hcount⟩
      cases opened with
      | false => exact .inl rfl
      | true =>
        refine .inr (Nat.lt_of_not_le fun hle => hfull ⟨hle, tmp, rfl⟩)

theorem indicesInRange_iff {s : DiagnosticStore} : s.IndicesInRange ↔ s.log.InRange := by
  constructor
  · exact fun h => ⟨h.head, h.count⟩
  · refine fun h => ⟨h.head, h.count, fun op => ?_⟩
    obtain ⟨s', hs', -⟩ := step_of_inRange h op
    simp [hs']

/-- The indices stay in range exactly as long as no reboot loads a full log. -/
theorem indices_inRange_iff (ops : List DiagnosticOp) :
    Trace.AllStates step IndicesInRange fresh ops ↔
      Trace.AllSteps step (fun s op => ¬ s.RebootsFull op) fresh ops := by
  have hstep : ∀ s op s', IndicesInRange s → step s op = some s' →
      (s'.log.InRange ↔ ¬ s.RebootsFull op) := by
    intro s op s' h hs
    obtain ⟨s'', hs'', hiff⟩ := step_of_inRange (indicesInRange_iff.mp h) op
    obtain rfl := Option.some.inj (hs.symm.trans hs'')
    exact hiff
  refine Trace.allStates_iff_allSteps (J := IndicesInRange) (fun _ h => h) ?_ ?_
    (indicesInRange_iff.mpr DiagnosticLog.empty_inRange)
  · exact fun s op s' h hC hs => indicesInRange_iff.mpr ((hstep s op s' h hs).mpr hC)
  · exact fun s op s' h hC hs hI => hC ((hstep s op s' h hs).mp (indicesInRange_iff.mp hI))

/-- Thirty-two recorded events and a reboot. -/
def fillAndReboot : List DiagnosticOp :=
  List.replicate 32 (.append true 1000 .warn (some (CString.ofAscii "init_retry")) none) ++
    [.reboot true (Vector.replicate _ DiagnosticEntry.zero)]

/-- The head is one past the end, and the next event is written outside the array. -/
theorem head_out_of_range_after_reboot :
    ¬ Trace.AllStates step IndicesInRange fresh fillAndReboot := by
  intro h
  have hrun : (Trace.exec step fresh fillAndReboot).map (·.log.head) = some 32 := by
    decide +kernel
  obtain ⟨s, hs, hhead⟩ := Option.map_eq_some_iff.mp hrun
  have hlt := (h.last hs).head
  rw [hhead] at hlt
  exact absurd hlt (by decide)

end DiagnosticStore

end Firmware
