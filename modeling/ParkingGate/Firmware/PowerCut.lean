-- SUMMARY: A power cut in the middle of a save: which operations leave the log before or after them in NVS, and which can leave neither.
import ParkingGate.Firmware.DiagnosticQueue

/-!
# Power cuts during a save

`save` writes the count and the blob under two keys. Between the two writes NVS holds the
new count and the old blob, and a blob of another length than the count makes `load` read
entries out of its uninitialised buffer. So exactly the operations that keep the count, or
that leave the log empty, survive a cut.
-/

namespace Firmware

open Config DiagnosticLog

namespace DiagnosticStore

/-- NVS holds the contents of the log, and these fit it. -/
structure Persisted (s : DiagnosticStore) : Prop extends Saved s where
  count : s.log.count ≤ diagnosticLogMaxEntries

/-- Wherever the power is cut between the writes of an operation, and whatever the buffer
    of the next `load` holds, the log loaded at the next boot has the entries from before
    the operation or those from after it. -/
def SurvivesPowerCut (s : DiagnosticStore) (op : QueueOp) : Prop :=
  ∃ log' ws, op.run s.log = some (log', ws) ∧ ∀ k tmp,
    (load (s.nvs.writeAll (ws.take k)) true tmp).contents = s.log.contents ∨
      (load (s.nvs.writeAll (ws.take k)) true tmp).contents = log'.contents

/-- An event is recorded by a full log whose head is in range, or by an empty one over a
    blob that happens to hold this very entry; a removal takes nothing or everything. -/
def CutSafe (s : DiagnosticStore) : QueueOp → Prop
  | .append _ _ none _ => True
  | .append millis level (some event) message =>
    s.log.head < diagnosticLogMaxEntries ∧
      (s.log.count = diagnosticLogMaxEntries ∨
        s.log.count = 0 ∧ s.nvs.buf = [.recorded millis level event message])
  | .removeFirst n => n = 0 ∨ s.log.count ≤ n
  | .clear => True

/-! ## The image between the two writes -/

/-- NVS after the first write of a save, with the old blob. -/
def cutImage (s : DiagnosticStore) (log' : DiagnosticLog) : Nvs :=
  { s.nvs with cnt := log'.count }

theorem writeAll_take_one (s : DiagnosticStore) (log' : DiagnosticLog) :
    s.nvs.writeAll (log'.writes.take 1) = s.cutImage log' := by
  unfold writes cutImage
  split
  · rename_i hzero
    rw [hzero]
    rfl
  · rfl

/-- A cut leaves NVS as it was, between the writes, or as the save leaves it. -/
theorem writeAll_take (s : DiagnosticStore) (log' : DiagnosticLog) (k : Nat) :
    s.nvs.writeAll (log'.writes.take k) = s.nvs ∨
      s.nvs.writeAll (log'.writes.take k) = s.cutImage log' ∨
      s.nvs.writeAll (log'.writes.take k) = s.nvs.writeAll log'.writes := by
  match k with
  | 0     => exact .inl rfl
  | 1     => exact .inr (.inl (writeAll_take_one s log'))
  | k + 2 =>
    refine .inr (.inr (congrArg s.nvs.writeAll (List.take_of_length_le ?_)))
    unfold writes
    split <;> simp

/-- Only the image between the two writes decides whether an operation survives a cut. -/
theorem survives_iff_cutImage {s : DiagnosticStore} (h : s.Persisted) {op : QueueOp}
    {log' : DiagnosticLog} (hrun : op.run s.log = some (log', log'.writes))
    (hcount : log'.count ≤ diagnosticLogMaxEntries) :
    s.SurvivesPowerCut op ↔ ∀ tmp,
      (load (s.cutImage log') true tmp).contents = s.log.contents ∨
        (load (s.cutImage log') true tmp).contents = log'.contents := by
  constructor
  · rintro ⟨log'', ws, hrun', hcut⟩ tmp
    obtain ⟨rfl, rfl⟩ := Prod.mk.inj (Option.some.inj (hrun.symm.trans hrun'))
    rw [← writeAll_take_one]
    exact hcut 1 tmp
  · intro hcut
    refine ⟨log', log'.writes, hrun, fun k tmp => ?_⟩
    have hsaved := saved_writes log' s.nvs
    rcases writeAll_take s log' k with himage | himage | himage
    · rw [himage]
      exact .inl (h.contents_load h.count tmp)
    · rw [himage]
      exact hcut tmp
    · rw [himage]
      exact .inr (hsaved.contents_load hcount tmp)

/-- When the count does not change, the old blob is still whole. -/
theorem survives_of_count_eq {s : DiagnosticStore} (h : s.Persisted) {op : QueueOp}
    {log' : DiagnosticLog} (hrun : op.run s.log = some (log', log'.writes))
    (hcount : log'.count = s.log.count) : s.SurvivesPowerCut op := by
  apply (survives_iff_cutImage h hrun (hcount ▸ h.count)).mpr
  have himage : s.cutImage log' = s.nvs := by
    simp only [cutImage, hcount, ← h.cnt]
  intro tmp
  rw [himage]
  exact .inl (h.contents_load h.count tmp)

/-- When no entry is left, the blob is not read. -/
theorem survives_of_count_zero {s : DiagnosticStore} (h : s.Persisted) {op : QueueOp}
    {log' : DiagnosticLog} (hrun : op.run s.log = some (log', log'.writes))
    (hcount : log'.count = 0) : s.SurvivesPowerCut op := by
  apply (survives_iff_cutImage h hrun (by omega)).mpr
  intro tmp
  right
  have hcnt : (s.cutImage log').cnt = 0 := hcount
  rw [contents_load _ tmp (by omega), hcnt, List.take_zero]
  exact (List.length_eq_zero_iff.mp ((length_contents log').trans hcount)).symm

/-- A blob of another length than the one asked for leaves the end of the buffer as it was. -/
private theorem getBytes_last {nvs : Nvs} {n : Nat} (hpos : 0 < n)
    (hn : n ≤ diagnosticLogMaxEntries) (hbuf : nvs.buf.length ≠ n) (x : DiagnosticEntry) :
    (nvs.getBytes (Vector.replicate _ x) n).toList[n - 1]? = some x := by
  have hlast : n - 1 < diagnosticLogMaxEntries := by omega
  unfold Nvs.getBytes
  split
  · simp [hlast]
  · have hshort : nvs.buf[n - 1]? = none := List.getElem?_eq_none (by omega)
    simp [hlast, hshort]

/-- When the blob has another length than the new count, an entry of the buffer is loaded
    that may differ from every entry of the log. -/
theorem not_survives_of_length_ne {s : DiagnosticStore} (h : s.Persisted) {op : QueueOp}
    {log' : DiagnosticLog} (hrun : op.run s.log = some (log', log'.writes))
    (hle : log'.count ≤ diagnosticLogMaxEntries) (hpos : 0 < log'.count)
    (hcount : log'.count ≠ s.log.count) (hbuf : s.nvs.buf.length ≠ log'.count) :
    ¬ s.SurvivesPowerCut op := by
  intro hsurvives
  have hcut := (survives_iff_cutImage h hrun hle).mp hsurvives
  -- An entry other than the newest one of the log after the operation.
  have hlast : log'.count - 1 < log'.contents.length := by simp; omega
  let newest := log'.contents[log'.count - 1]
  let garbage : DiagnosticEntry := { newest with ts := newest.ts + 1 }
  have hcnt : (s.cutImage log').cnt = log'.count := rfl
  have hloaded := contents_load (s.cutImage log') (Vector.replicate _ garbage) (hcnt ▸ hle)
  have hget : (load (s.cutImage log') true (Vector.replicate _ garbage)).contents[log'.count - 1]? =
      some garbage := by
    rw [hloaded, hcnt, List.getElem?_take_of_lt (by omega)]
    exact getBytes_last hpos hle hbuf garbage
  rcases hcut (Vector.replicate _ garbage) with hbefore | hafter
  · have hlen := congrArg List.length hbefore
    rw [hloaded] at hlen
    simp [hcnt] at hlen
    omega
  · rw [hafter, List.getElem?_eq_getElem hlast] at hget
    have hts : newest.ts = newest.ts + 1 := congrArg DiagnosticEntry.ts (Option.some.inj hget)
    simp at hts

/-- The blob left over from an earlier log is read as the first entry. -/
private theorem first_survives_iff {s : DiagnosticStore} (h : s.Persisted) {op : QueueOp}
    {log' : DiagnosticLog} {e : DiagnosticEntry} (hrun : op.run s.log = some (log', log'.writes))
    (hzero : s.log.count = 0) (hcount : log'.count = 1) (hone : log'.contents = [e]) :
    s.SurvivesPowerCut op ↔ s.nvs.buf = [e] := by
  have hle : log'.count ≤ diagnosticLogMaxEntries := by
    rw [hcount]
    decide
  have hnil : s.log.contents = [] :=
    List.length_eq_zero_iff.mp ((length_contents s.log).trans hzero)
  have hload : s.nvs.buf.length = 1 → ∀ tmp,
      (load (s.cutImage log') true tmp).contents = s.nvs.buf := by
    intro hbuf tmp
    have hcnt : (s.cutImage log').cnt = 1 := hcount
    rw [contents_load_of_length (hcnt ▸ by decide) (fun _ => hcnt ▸ hbuf) tmp]
    exact if_neg (by omega)
  constructor
  · intro hsurvives
    have hbuf : s.nvs.buf.length = 1 := by
      by_contra hne
      exact not_survives_of_length_ne h hrun hle (by omega) (by omega) (hcount ▸ hne) hsurvives
    have hcut := (survives_iff_cutImage h hrun hle).mp hsurvives
      (Vector.replicate _ DiagnosticEntry.zero)
    rw [hload hbuf, hnil, hone] at hcut
    refine hcut.resolve_left fun hbufnil => ?_
    simp [hbufnil] at hbuf
  · intro hbuf
    apply (survives_iff_cutImage h hrun hle).mpr
    intro tmp
    rw [hload (by rw [hbuf]; rfl), hbuf, hone]
    exact .inr rfl

/-! ## The operations -/

private theorem append_survives_iff {s : DiagnosticStore} (h : s.Persisted) (millis : UInt32)
    (level : DiagnosticLevel) (event : CString) (message : Option CString) :
    s.SurvivesPowerCut (.append millis level (some event) message) ↔
      s.CutSafe (.append millis level (some event) message) := by
  let e := DiagnosticEntry.recorded millis level event message
  by_cases hhead : s.log.head < diagnosticLogMaxEntries
  · have hrange : s.log.InRange := ⟨hhead, h.count⟩
    obtain ⟨log', happend, h', hcontents⟩ := hrange.append_spec millis level event message
    have hrun : QueueOp.run s.log (.append millis level (some event) message) =
        some (log', log'.writes) := happend
    have hlen : log'.count = (DiagnosticQueue.push s.log.contents e).length := by
      rw [← length_contents, hcontents]
    rcases Nat.eq_or_lt_of_le h.count with hfull | hlt
    · -- The new entry replaces the oldest one, and the count stays.
      have hcount : log'.count = s.log.count := by
        rw [hlen]
        simp [DiagnosticQueue.push, hfull]
      exact iff_of_true (survives_of_count_eq h hrun hcount) ⟨hhead, .inl hfull⟩
    · have hpush : DiagnosticQueue.push s.log.contents e = s.log.contents ++ [e] := by
        apply if_neg
        simp
        omega
      have hcount : log'.count = s.log.count + 1 := by simp [hlen, hpush]
      rcases Nat.eq_zero_or_pos s.log.count with hzero | hpos
      · have hone : log'.contents = [e] := by
          rw [hcontents, hpush, List.length_eq_zero_iff.mp ((length_contents s.log).trans hzero),
            List.nil_append]
        have hfirst := first_survives_iff h hrun hzero (by omega) hone
        refine hfirst.trans ⟨fun hbuf => ⟨hhead, .inr ⟨hzero, hbuf⟩⟩, ?_⟩
        rintro ⟨-, hfull | ⟨-, hbuf⟩⟩
        · omega
        · exact hbuf
      · -- The old blob is one entry short.
        have hbuf : s.nvs.buf.length = s.log.count := by rw [h.buf hpos, length_contents]
        refine iff_of_false ?_ ?_
        · exact not_survives_of_length_ne h hrun h'.count (by omega) (by omega) (by omega)
        · rintro ⟨-, hfull | ⟨hzero, -⟩⟩ <;> omega
  · refine iff_of_false ?_ fun hsafe => hhead hsafe.1
    rintro ⟨log', ws, hrun, -⟩
    simp [QueueOp.run, append, hhead] at hrun

private theorem removeFirst_survives_iff {s : DiagnosticStore} (h : s.Persisted) (n : Nat) :
    s.SurvivesPowerCut (.removeFirst n) ↔ s.CutSafe (.removeFirst n) := by
  by_cases hn : s.log.count ≤ n
  · exact iff_of_true (survives_of_count_zero h (removeFirst_of_le hn) rfl) (.inr hn)
  · have hn : n < s.log.count := Nat.lt_of_not_le hn
    have hrun := removeFirst_of_lt h.count hn
    rcases Nat.eq_zero_or_pos n with rfl | hpos
    · exact iff_of_true (survives_of_count_eq h hrun rfl) (.inl rfl)
    · -- The old blob is too long, and nothing of it is copied.
      have hbuf : s.nvs.buf.length = s.log.count := by
        rw [h.buf (by omega), length_contents]
      have hle : s.log.count - n ≤ diagnosticLogMaxEntries := (Nat.sub_le _ _).trans h.count
      refine iff_of_false ?_ ?_
      · exact not_survives_of_length_ne h hrun hle (Nat.sub_pos_of_lt hn) (by simp only; omega)
          (by simp only; omega)
      · rintro (hzero | hle) <;> omega

/-- An operation on a persisted log survives a power cut exactly under `CutSafe`. -/
theorem survivesPowerCut_iff {s : DiagnosticStore} (h : s.Persisted) (op : QueueOp) :
    s.SurvivesPowerCut op ↔ s.CutSafe op := by
  cases op with
  | append millis level event message =>
    cases event with
    | none =>
      have hrun : QueueOp.run s.log (.append millis level none message) = some (s.log, []) := rfl
      refine iff_of_true ⟨s.log, [], hrun, fun k tmp => .inl ?_⟩ trivial
      rw [List.take_nil]
      exact h.contents_load h.count tmp
    | some event => exact append_survives_iff h millis level event message
  | removeFirst n => exact removeFirst_survives_iff h n
  | clear =>
    have hrun : QueueOp.run s.log .clear = some (empty, empty.writes) :=
      saved_true empty_inRange.count
    exact iff_of_true (survives_of_count_zero h hrun rfl) trivial

theorem fresh_persisted : fresh.Persisted :=
  ⟨⟨rfl, fun hpos => absurd hpos (Nat.lt_irrefl 0)⟩, Nat.zero_le _⟩

end DiagnosticStore

/-! ## Which logs are persisted -/

/-- The answer of `prefs.begin` during the operation. -/
def DiagnosticOp.opened : DiagnosticOp → Bool
  | .append opened .. | .removeFirst opened _ | .clear opened | .reboot opened _ => opened

namespace DiagnosticStore

theorem persisted_step {s s' : DiagnosticStore} {op : DiagnosticOp} (h : s.Persisted)
    (hop : op.opened = true) (hs : s.step op = some s') : s'.Persisted := by
  have hcommit : ∀ log' : DiagnosticLog, log'.count ≤ diagnosticLogMaxEntries →
      (s.commit (log', log'.writes)).Persisted :=
    fun log' hcount => ⟨saved_writes log' s.nvs, hcount⟩
  cases op with
  | append opened millis level event message =>
    obtain rfl : opened = true := hop
    cases event with
    | none =>
      obtain rfl : s = s' := Option.some.inj hs
      exact h
    | some event =>
      have hhead : s.log.head < diagnosticLogMaxEntries := by
        refine Classical.byContradiction fun hhead => ?_
        simp [step, append, hhead] at hs
      have hrange : s.log.InRange := ⟨hhead, h.count⟩
      obtain ⟨log', hrun, h', -⟩ := hrange.append_spec millis level event message
      simp only [step, hrun, Option.map_some, Option.some.injEq] at hs
      exact hs ▸ hcommit log' h'.count
  | removeFirst opened n =>
    obtain rfl : opened = true := hop
    by_cases hn : s.log.count ≤ n
    · simp only [step, removeFirst_of_le hn, Option.map_some, Option.some.injEq] at hs
      exact hs ▸ hcommit empty empty_inRange.count
    · simp only [step, removeFirst_of_lt h.count (Nat.lt_of_not_le hn), Option.map_some,
        Option.some.injEq] at hs
      exact hs ▸ hcommit _ ((Nat.sub_le _ _).trans h.count)
  | clear opened =>
    obtain rfl : opened = true := hop
    simp only [step, DiagnosticLog.clear, saved_true empty_inRange.count, Option.map_some,
      Option.some.injEq] at hs
    exact hs ▸ hcommit empty empty_inRange.count
  | reboot opened tmp =>
    obtain rfl : opened = true := hop
    obtain rfl := Option.some.inj hs
    have hload := h.contents_load h.count tmp
    have hcount : (load s.nvs true tmp).count = s.log.count := by
      rw [← length_contents, hload, length_contents]
    refine ⟨⟨h.cnt.trans hcount.symm, fun hpos => ?_⟩, hcount.symm ▸ h.count⟩
    exact (h.buf (hcount ▸ hpos)).trans hload.symm

/-- In every run without a power cut in which NVS works, with any number of reboots, NVS
    holds the log: `survivesPowerCut_iff` speaks about every operation of such a run. -/
theorem persisted_run (ops : List DiagnosticOp)
    (h : Trace.AllSteps step (fun _ op => op.opened = true) fresh ops) :
    Trace.AllStates step Persisted fresh ops :=
  Trace.allStates_of_allSteps (fun _ _ _ hs hop hstep => persisted_step hs hop hstep) fresh_persisted h

/-- So many events, recorded by a new device. -/
def recordings (n : Nat) : List DiagnosticOp :=
  List.replicate n (.append true 1000 .warn (some (CString.ofAscii "init_retry")) none)

theorem recordings_persisted {n : Nat} {s : DiagnosticStore}
    (h : Trace.exec step fresh (recordings n) = some s) : s.Persisted := by
  refine Trace.exec_invariant_of_mem (fun s op hop s' hs hstep => ?_) fresh_persisted h
  apply persisted_step hs _ hstep
  rw [List.eq_of_mem_replicate hop]
  rfl

/-- With three entries neither another event nor a partial removal survives a cut; with all
    thirty-two an event does. -/
theorem survivesPowerCut_recordings :
    (∃ s, Trace.exec step fresh (recordings 3) = some s ∧
      ¬ s.SurvivesPowerCut (.append 2000 .info (some (CString.ofAscii "connection_restored")) none) ∧
      ¬ s.SurvivesPowerCut (.removeFirst 2) ∧ s.SurvivesPowerCut (.removeFirst 3)) ∧
    ∃ s, Trace.exec step fresh (recordings 32) = some s ∧
      s.SurvivesPowerCut (.append 2000 .info (some (CString.ofAscii "connection_restored")) none) ∧
      ¬ s.SurvivesPowerCut (.removeFirst 10) := by
  have hthree : (Trace.exec step fresh (recordings 3)).map (fun s => (s.log.count, s.log.head)) =
      some (3, 3) := by decide +kernel
  have hfull : (Trace.exec step fresh (recordings 32)).map (fun s => (s.log.count, s.log.head)) =
      some (32, 0) := by decide +kernel
  constructor
  · obtain ⟨s, hs, hlog⟩ := Option.map_eq_some_iff.mp hthree
    obtain ⟨hcount, hhead⟩ := Prod.mk.inj hlog
    have hiff := survivesPowerCut_iff (recordings_persisted hs)
    refine ⟨s, hs, fun hsurvives => ?_, fun hsurvives => ?_, (hiff _).mpr (.inr hcount.le)⟩
    · rcases ((hiff _).mp hsurvives).2 with h | ⟨h, -⟩
      · exact absurd (hcount.symm.trans h) (by decide)
      · exact absurd (hcount.symm.trans h) (by decide)
    · rcases (hiff _).mp hsurvives with h | h
      · cases h
      · exact absurd (hcount.symm.trans_le h) (by decide)
  · obtain ⟨s, hs, hlog⟩ := Option.map_eq_some_iff.mp hfull
    obtain ⟨hcount, hhead⟩ := Prod.mk.inj hlog
    have hiff := survivesPowerCut_iff (recordings_persisted hs)
    refine ⟨s, hs, (hiff _).mpr ⟨by rw [hhead]; decide, .inl hcount⟩, fun hsurvives => ?_⟩
    rcases (hiff _).mp hsurvives with h | h
    · cases h
    · exact absurd (hcount.symm.trans_le h) (by decide)

/-- One recorded event; the next one is cut between its two writes, and the log that is
    loaded has an entry that was never appended. -/
theorem power_cut_loads_garbage : ∃ s,
    Trace.exec step fresh [.append true 1000 .warn (some (CString.ofAscii "init_retry")) none] =
      some s ∧
    ¬ s.SurvivesPowerCut (.append 2000 .warn (some (CString.ofAscii "mqtt_stuck")) none) := by
  let op : QueueOp := .append 2000 .warn (some (CString.ofAscii "mqtt_stuck")) none
  let garbage : DiagnosticEntry := { DiagnosticEntry.zero with ts := 7 }
  have hts : ((Trace.exec step fresh
      [.append true 1000 .warn (some (CString.ofAscii "init_retry")) none]).bind fun s =>
        (op.run s.log).map fun r =>
          ((load (s.nvs.writeAll (r.2.take 1)) true (Vector.replicate _ garbage)).contents.map (·.ts),
            s.log.contents.map (·.ts), r.1.contents.map (·.ts))) =
      some ([1000, 7], [1000], [1000, 2000]) := by
    decide +kernel
  obtain ⟨s, hs, hrun⟩ := Option.bind_eq_some_iff.mp hts
  refine ⟨s, hs, ?_⟩
  rintro ⟨log', ws, hrun', hcut⟩
  rw [show op.run s.log = some (log', ws) from hrun'] at hrun
  obtain ⟨hloaded, hrest⟩ := Prod.mk.inj (Option.some.inj hrun)
  obtain ⟨hbefore, hafter⟩ := Prod.mk.inj hrest
  rcases hcut 1 (Vector.replicate _ garbage) with h | h
  · rw [h, hbefore] at hloaded
    exact absurd hloaded (by decide)
  · rw [h, hafter] at hloaded
    exact absurd hloaded (by decide)

end DiagnosticStore

end Firmware
