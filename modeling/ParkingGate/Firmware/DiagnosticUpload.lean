-- SUMMARY: The upload of the diagnostic log after a connect (`main.ino`): the loop ends, and what was published and what is left make up the log.
import ParkingGate.Base.Batches
import ParkingGate.Firmware.DiagnosticQueue

/-!
# The upload of the diagnostic log

After a connect the firmware publishes the log in batches, oldest entries first, and
removes a batch once its publish has succeeded. The answers of the modem and of NVS are
given to the loop from outside, one for each round.

The loop is a sending in batches of the contents of the log, for every content: also for
a full log that was just loaded, whose next write position is out of range.
-/

namespace Firmware

open Config

/-! ## The log under removals -/

/-- An entry as `getEntry` copies it into buffers of the sizes of the fields. -/
def DiagnosticEntry.copied (e : DiagnosticEntry) : DiagnosticEntry :=
  { e with
    event   := e.event.strncpy (eventLen - 1)
    message := e.message.strncpy (messageLen - 1) }

theorem DiagnosticEntry.Fits.copied_eq {e : DiagnosticEntry} (h : e.Fits) : e.copied = e := by
  have hevent := CString.strncpy_of_length_le (Nat.le_sub_one_of_lt h.event)
  have hmessage := CString.strncpy_of_length_le (Nat.le_sub_one_of_lt h.message)
  simp only [copied, hevent, hmessage]

namespace DiagnosticLog

def hasEntries (log : DiagnosticLog) : Bool := log.count > 0

theorem contents_eq_nil_iff {log : DiagnosticLog} : log.contents = [] ↔ log.hasEntries = false := by
  rw [← List.length_eq_zero_iff, length_contents]
  simp [hasEntries]

/-- A head past the end stands for the first position. -/
theorem contents_wrap {log : DiagnosticLog} (h : log.count ≤ diagnosticLogMaxEntries) :
    contents { log with head := log.head % diagnosticLogMaxEntries } = log.contents := by
  refine List.map_congr_left fun i _ => ?_
  have hpos : (log.head % 32 + 32 - log.count + i) % 32 = (log.head + 32 - log.count + i) % 32 := by
    have hcount : log.count ≤ 32 := h
    omega
  simp only [slot, diagnosticLogMaxEntries, hpos]

/-- Forgetting the oldest entries drops them, wherever the head is. -/
theorem contents_drop {log : DiagnosticLog} (h : log.count ≤ diagnosticLogMaxEntries) (n : Nat) :
    contents { log with count := log.count - n } = log.contents.drop n := by
  have hwrapped : InRange { log with head := log.head % diagnosticLogMaxEntries } :=
    ⟨Nat.mod_lt _ (by decide), h⟩
  have hcount : log.count - n ≤ diagnosticLogMaxEntries := (Nat.sub_le _ _).trans h
  calc contents { log with count := log.count - n }
      = contents { log with
          count := log.count - n
          head  := log.head % diagnosticLogMaxEntries } := (contents_wrap hcount).symm
    _ = (contents { log with head := log.head % diagnosticLogMaxEntries }).drop n :=
        hwrapped.contents_drop n
    _ = log.contents.drop n := by rw [contents_wrap h]

theorem append_count_le {log log' : DiagnosticLog} {opened : Bool} {millis : UInt32}
    {level : DiagnosticLevel} {event message : Option CString} {writes : List NvsWrite}
    (h : log.count ≤ diagnosticLogMaxEntries)
    (happend : log.append opened millis level event message = some (log', writes)) :
    log'.count ≤ diagnosticLogMaxEntries := by
  unfold append at happend
  split at happend
  · cases happend
    exact h
  dsimp only at happend
  split at happend
  · obtain ⟨_, -, hlog⟩ := Option.map_eq_some_iff.mp happend
    cases hlog
    dsimp only
    split <;> omega
  · cases happend

/-- A removal drops the oldest entries, before the log is saved. -/
theorem removeFirst_eq {log : DiagnosticLog} (h : log.count ≤ diagnosticLogMaxEntries) (n : Nat) :
    ∃ log', (∀ opened, log.removeFirst opened n = saved log' opened) ∧
      log'.count ≤ diagnosticLogMaxEntries ∧ log'.contents = log.contents.drop n := by
  rcases Nat.lt_or_ge n log.count with hn | hn
  · refine ⟨{ log with count := log.count - n }, fun _ => if_neg (by omega), (Nat.sub_le _ _).trans h, ?_⟩
    exact contents_drop h n
  · refine ⟨empty, fun _ => if_pos hn, empty_inRange.count, ?_⟩
    exact (List.drop_eq_nil_of_le (by simpa using hn)).symm

theorem removeFirst_spec {log : DiagnosticLog} (h : log.count ≤ diagnosticLogMaxEntries)
    (opened : Bool) (n : Nat) :
    ∃ log' writes, log.removeFirst opened n = some (log', writes) ∧
      log'.count ≤ diagnosticLogMaxEntries ∧ log'.contents = log.contents.drop n := by
  obtain ⟨log', hremove, hcount, hcontents⟩ := removeFirst_eq h n
  obtain ⟨writes, hsaved⟩ := saved_of_count_le hcount opened
  exact ⟨log', writes, (hremove opened).trans hsaved, hcount, hcontents⟩

end DiagnosticLog

/-! ## The loop -/

namespace DiagnosticUpload

open DiagnosticLog Batches

def batchSize : Nat := 10

/-- The `for` loop that fills a batch, with `left` rounds to go from index `i` on. -/
def fillBatch (log : DiagnosticLog) : Nat → Nat → List DiagnosticEntry
  | _, 0 => []
  | i, left + 1 =>
    match log.getEntry i DiagnosticEntry.eventLen DiagnosticEntry.messageLen with
    | none   => []
    | some e => e :: fillBatch log (i + 1) left

/-- What happens outside in one round: the result of `publish`, and the answer of
    `prefs.begin` when the log is saved. -/
structure Answer where
  published : Bool
  opened : Bool

/-- The batches in the order they were tried, and the log at the end. -/
structure Upload where
  attempts : List (Attempt DiagnosticEntry)
  store : DiagnosticStore

/-- The `while` loop in its round `k`; `none` when the fuel runs out, or on an access
    outside an array. -/
def uploadLoop (env : Nat → Answer) : Nat → Nat → DiagnosticStore → Option Upload
  | 0, _, _ => none
  | fuel + 1, k, s =>
    if s.log.hasEntries then
      let batch := fillBatch s.log 0 batchSize
      if batch.length = 0 then some ⟨[], s⟩
      else if (env k).published then
        (s.step (.removeFirst (env k).opened batch.length)).bind fun s' =>
          (uploadLoop env fuel (k + 1) s').map fun u => { u with
            attempts := ⟨batch, true⟩ :: u.attempts }
      else some ⟨[⟨batch, false⟩], s⟩
    else some ⟨[], s⟩

namespace Upload

/-- The batches that were built. -/
def batches (u : Upload) : List (List DiagnosticEntry) := u.attempts.map (·.batch)

/-- The batches whose publish succeeded. -/
def published (u : Upload) : List (List DiagnosticEntry) := sent u.attempts

end Upload

/-- The entries of a log as the upload copies them, oldest first. -/
def shown (log : DiagnosticLog) : List DiagnosticEntry := log.contents.map DiagnosticEntry.copied

/-! ## One round -/

theorem fillBatch_eq (log : DiagnosticLog) (i left : Nat) :
    fillBatch log i left = ((log.contents.drop i).take left).map DiagnosticEntry.copied := by
  induction left generalizing i with
  | zero => simp [fillBatch]
  | succ left ih =>
    unfold fillBatch
    by_cases hi : i < log.count
    · have hget : log.getEntry i DiagnosticEntry.eventLen DiagnosticEntry.messageLen =
          some (log.slot i).copied := if_neg (by omega)
      have hslot : log.contents.drop i = log.slot i :: log.contents.drop (i + 1) := by
        rw [List.drop_eq_getElem_cons (by simpa using hi)]
        simp [contents]
      rw [hget, hslot, ih]
      rfl
    · have hget : log.getEntry i DiagnosticEntry.eventLen DiagnosticEntry.messageLen = none :=
        if_pos (by omega)
      have hnil : log.contents.drop i = [] := List.drop_eq_nil_of_le (by simpa using hi)
      rw [hget, hnil]
      rfl

/-- The batch of a round: the front of the log. -/
def front (log : DiagnosticLog) : List DiagnosticEntry :=
  (log.contents.take batchSize).map DiagnosticEntry.copied

theorem fillBatch_front (log : DiagnosticLog) : fillBatch log 0 batchSize = front log :=
  fillBatch_eq log 0 batchSize

@[simp] theorem length_front (log : DiagnosticLog) :
    (front log).length = min batchSize log.count := by
  simp [front]

theorem length_front_ne_zero {log : DiagnosticLog} (h : log.hasEntries) :
    (front log).length ≠ 0 := by
  have hpos : 0 < log.count := by simpa [hasEntries] using h
  rw [length_front, batchSize]
  omega

theorem uploadLoop_of_empty (env : Nat → Answer) (fuel k : Nat) {s : DiagnosticStore}
    (h : s.log.hasEntries = false) : uploadLoop env (fuel + 1) k s = some ⟨[], s⟩ := by
  simp [uploadLoop, h]

theorem uploadLoop_of_failed {env : Nat → Answer} (fuel : Nat) {k : Nat} {s : DiagnosticStore}
    (h : s.log.hasEntries) (hpub : (env k).published = false) :
    uploadLoop env (fuel + 1) k s = some ⟨[⟨front s.log, false⟩], s⟩ := by
  simp only [uploadLoop, fillBatch_front, h, length_front_ne_zero h, hpub, if_true, if_false,
    Bool.false_eq_true]

/-- A batch that was published leaves the log, and the loop goes on. -/
theorem uploadLoop_of_published {env : Nat → Answer} (fuel : Nat) {k : Nat} {s : DiagnosticStore}
    (hs : s.log.count ≤ diagnosticLogMaxEntries) (h : s.log.hasEntries)
    (hpub : (env k).published) :
    ∃ s' : DiagnosticStore, s'.log.count ≤ diagnosticLogMaxEntries ∧
      s'.log.contents = s.log.contents.drop batchSize ∧
      uploadLoop env (fuel + 1) k s =
        (uploadLoop env fuel (k + 1) s').map fun u => { u with
          attempts := ⟨front s.log, true⟩ :: u.attempts } := by
  obtain ⟨log', writes, hremove, hlog', hdrop⟩ :=
    removeFirst_spec hs (env k).opened (front s.log).length
  have hstep : s.step (.removeFirst (env k).opened (front s.log).length) =
      some (s.commit (log', writes)) := by
    simp only [DiagnosticStore.step, hremove, Option.map_some]
  refine ⟨s.commit (log', writes), hlog', ?_, ?_⟩
  · -- The last batch may be shorter: dropping it still drops `batchSize` entries.
    have hlen : (front s.log).length = min batchSize s.log.contents.length := by simp
    exact hdrop.trans (by rw [hlen, ← List.drop_eq_drop_min])
  · simp only [uploadLoop, fillBatch_front, h, length_front_ne_zero h, hpub, if_true, if_false,
      hstep, Option.bind_some]

/-! ## The whole loop -/

/-- The upload of a log is a sending of its contents in batches. -/
theorem uploadLoop_sends (env : Nat → Answer) {fuel : Nat} (k : Nat) {s : DiagnosticStore}
    (hs : s.log.count ≤ diagnosticLogMaxEntries) (hfuel : s.log.count < fuel) :
    ∃ u as, uploadLoop env fuel k s = some u ∧ u.attempts = as.map (Attempt.map .copied) ∧
      Sends batchSize s.log.contents as u.store.log.contents := by
  induction fuel generalizing k s with
  | zero => exact absurd hfuel (Nat.not_lt_zero _)
  | succ fuel ih =>
    cases hentries : s.log.hasEntries with
    | false =>
      have hnil := contents_eq_nil_iff.mpr hentries
      refine ⟨_, [], uploadLoop_of_empty env fuel k hentries, rfl, ?_⟩
      simpa only [hnil] using .done
    | true =>
      have hne : s.log.contents ≠ [] := fun h => by simp [contents_eq_nil_iff, hentries] at h
      cases hpub : (env k).published with
      | false => exact ⟨_, [_], uploadLoop_of_failed fuel hentries hpub, rfl, .failed hne⟩
      | true =>
        obtain ⟨s', hs', hdrop, hloop⟩ := uploadLoop_of_published fuel hs hentries hpub
        have hcount : s'.log.count < fuel := by
          have hpos : 0 < s.log.count := by simpa [hasEntries] using hentries
          rw [← length_contents s'.log, hdrop, List.length_drop, length_contents, batchSize]
          omega
        obtain ⟨u, as, hu, hattempts, hsends⟩ := ih (k + 1) hs' hcount
        refine ⟨{ u with attempts := ⟨front s.log, true⟩ :: u.attempts },
          ⟨s.log.contents.take batchSize, true⟩ :: as, ?_, ?_, .sent hne (hdrop ▸ hsends)⟩
        · rw [hloop, hu]
          rfl
        · exact congrArg (_ :: ·) hattempts

/-- What a round can do: end the upload, or publish a batch and go on, whatever the fuel. -/
theorem uploadLoop_cases {env : Nat → Answer} {fuel k : Nat} {s : DiagnosticStore} {u : Upload}
    (h : uploadLoop env (fuel + 1) k s = some u) :
    ((u.attempts = [] ∨ (env k).published = false ∧ ∃ batch, u.attempts = [⟨batch, false⟩]) ∧
      ∀ fuel, uploadLoop env (fuel + 1) k s = some u) ∨
    ∃ batch s' u', (env k).published ∧ uploadLoop env fuel (k + 1) s' = some u' ∧
      u.attempts = ⟨batch, true⟩ :: u'.attempts ∧ u.store = u'.store ∧
      ∀ fuel, uploadLoop env (fuel + 1) k s = (uploadLoop env fuel (k + 1) s').map fun u => { u with
        attempts := ⟨batch, true⟩ :: u.attempts } := by
  simp only [uploadLoop] at h ⊢
  by_cases hentries : s.log.hasEntries
  · simp only [hentries, if_true] at h ⊢
    by_cases hlen : (fillBatch s.log 0 batchSize).length = 0
    · rw [if_pos hlen] at h
      cases h
      exact .inl ⟨.inl rfl, fun _ => if_pos hlen⟩
    simp only [hlen, if_false] at h ⊢
    cases hpub : (env k).published with
    | false =>
      rw [hpub] at h
      cases h
      exact .inl ⟨.inr ⟨rfl, _, rfl⟩, fun _ => rfl⟩
    | true =>
      rw [hpub] at h
      obtain ⟨s', hs', hmap⟩ := Option.bind_eq_some_iff.mp h
      obtain ⟨u', hu', rfl⟩ := Option.map_eq_some_iff.mp hmap
      refine .inr ⟨_, s', u', rfl, hu', rfl, rfl, fun fuel => ?_⟩
      simp only [if_true, hs', Option.bind_some]
  · rw [if_neg hentries] at h
    cases h
    exact .inl ⟨.inl rfl, fun _ => if_neg hentries⟩

/-- More fuel changes nothing. -/
theorem uploadLoop_of_le {env : Nat → Answer} {fuel fuel' k : Nat} {s : DiagnosticStore}
    {u : Upload} (h : uploadLoop env fuel k s = some u) (hle : fuel ≤ fuel') :
    uploadLoop env fuel' k s = some u := by
  induction fuel generalizing fuel' k s u with
  | zero => cases h
  | succ fuel ih =>
    obtain ⟨fuel', rfl⟩ : ∃ n, fuel' = n + 1 := ⟨fuel' - 1, by omega⟩
    obtain ⟨-, hends⟩ | ⟨batch, s', u', -, hu', hattempts, hstore, hloop⟩ := uploadLoop_cases h
    · exact hends fuel'
    · rw [hloop, ih hu' (Nat.le_of_succ_le_succ hle), Option.map_some, ← hattempts, ← hstore]

/-- Each batch counts as published by the answer of its own round. -/
theorem uploadLoop_sent {env : Nat → Answer} {fuel k : Nat} {s : DiagnosticStore} {u : Upload}
    (h : uploadLoop env fuel k s = some u) {i : Nat} {a : Attempt DiagnosticEntry}
    (ha : u.attempts[i]? = some a) : a.sent = (env (k + i)).published := by
  induction fuel generalizing k s u i with
  | zero => cases h
  | succ fuel ih =>
    obtain ⟨hnil | ⟨hpub, batch, hone⟩, -⟩ | ⟨batch, s', u', hpub, hu', hattempts, -⟩ :=
      uploadLoop_cases h
    · rw [hnil] at ha
      cases ha
    · rw [hone] at ha
      cases i with
      | zero =>
        cases ha
        exact hpub.symm
      | succ i => cases ha
    · rw [hattempts] at ha
      cases i with
      | zero =>
        cases ha
        exact hpub.symm
      | succ i => rw [ih hu' ha, Nat.add_right_comm, Nat.add_assoc]

/-! ## The log of a running device -/

/-- A device that has just started, with whatever NVS holds. -/
def boot (nvs : Nvs) (opened : Bool) (tmp : Vector DiagnosticEntry diagnosticLogMaxEntries) :
    DiagnosticStore := ⟨load nvs opened tmp, nvs⟩

theorem step_count_le {s s' : DiagnosticStore} {op : DiagnosticOp}
    (h : s.log.count ≤ diagnosticLogMaxEntries) (hs : s.step op = some s') :
    s'.log.count ≤ diagnosticLogMaxEntries := by
  cases op with
  | append opened millis level event message =>
    obtain ⟨⟨log', writes⟩, happend, rfl⟩ := Option.map_eq_some_iff.mp hs
    exact append_count_le h happend
  | removeFirst opened n =>
    obtain ⟨log', writes, hremove, hlog', -⟩ := removeFirst_spec h opened n
    simp only [DiagnosticStore.step, hremove, Option.map_some, Option.some.injEq] at hs
    exact hs ▸ hlog'
  | clear opened =>
    obtain ⟨writes, hclear⟩ := saved_of_count_le empty_inRange.count opened
    simp only [DiagnosticStore.step, clear, hclear, Option.map_some, Option.some.injEq] at hs
    exact hs ▸ empty_inRange.count
  | reboot opened tmp =>
    cases hs
    exact load_count_le s.nvs opened tmp

/-- The upload neither loses nor repeats entries. In whatever state the log of a running
    device is and however the publishes go, the loop ends, its batches are consecutive
    pieces of the log from the oldest entry on, and exactly the entries of the batches that
    were published have left the log. -/
theorem upload_exact (nvs : Nvs) (opened : Bool)
    (tmp : Vector DiagnosticEntry diagnosticLogMaxEntries) (ops : List DiagnosticOp)
    {s : DiagnosticStore} (hs : Trace.exec DiagnosticStore.step (boot nvs opened tmp) ops = some s)
    (env : Nat → Answer) :
    ∃ u : Upload, (∀ fuel, s.log.count < fuel → uploadLoop env fuel 0 s = some u) ∧
      (∀ i a, u.attempts[i]? = some a → a.sent = (env i).published) ∧
      u.batches.flatten <+: shown s.log ∧
      (∀ b ∈ u.batches, 0 < b.length ∧ b.length ≤ 10) ∧
      shown s.log = u.published.flatten ++ shown u.store.log ∧
      u.store.log.contents = s.log.contents.drop u.published.flatten.length ∧
      (u.batches = u.published ∧ u.store.log.hasEntries = false ∨
        u.batches = u.published ++ [(shown u.store.log).take 10]) := by
  have hcount : s.log.count ≤ diagnosticLogMaxEntries :=
    Trace.exec_invariant (fun _ _ _ h hstep => step_count_le h hstep)
      (load_count_le nvs opened tmp) hs
  obtain ⟨u, as, hu, hattempts, hsends⟩ := uploadLoop_sends env 0 hcount (Nat.lt_succ_self _)
  have hshown : Sends 10 (shown s.log) u.attempts (shown u.store.log) :=
    hattempts ▸ hsends.map DiagnosticEntry.copied
  have hpublished : u.published.flatten.length = (sent as).flatten.length := by
    rw [Upload.published, hattempts, sent_map, ← List.map_flatten, List.length_map]
  refine ⟨u, fun fuel hfuel => ?_, fun i a ha => ?_, hshown.batches_prefix,
    fun b hb => hshown.length_batch (by decide) hb, hshown.sent_append_rest.symm, ?_, ?_⟩
  · exact uploadLoop_of_le hu hfuel
  · rw [uploadLoop_sent hu ha, Nat.zero_add]
  · rw [hpublished]
    exact hsends.rest_eq_drop
  · apply hshown.stops.imp
    · rintro ⟨hbatches, hnil⟩
      exact ⟨hbatches, contents_eq_nil_iff.mp (List.map_eq_nil_iff.mp hnil)⟩
    · exact And.left

/-- The log and the upload after a connect: the event is recorded, and what the log then holds is
    uploaded. -/
def afterConnect (opened : Bool) (millis : UInt32) (env : Nat → Answer) (fuel : Nat)
    (s : DiagnosticStore) : Option Upload :=
  (s.step (.append opened millis .info (some (CString.ofAscii "connection_restored")) none)).bind
    fun s => if s.log.hasEntries then uploadLoop env fuel 0 s else some ⟨[], s⟩

/-- After a connect, the entries published and those left are those of the log with the new one. -/
theorem afterConnect_exact {s : DiagnosticStore} (h : s.log.InRange) (millis : UInt32)
    (env : Nat → Answer) :
    ∃ u : Upload, (∀ fuel, diagnosticLogMaxEntries < fuel →
        afterConnect true millis env fuel s = some u) ∧
      (DiagnosticQueue.push s.log.contents (.recorded millis .info
        (CString.ofAscii "connection_restored") none)).map .copied =
          u.published.flatten ++ shown u.store.log := by
  obtain ⟨log', happend, hrange, hpush⟩ :=
    h.append_spec millis .info (CString.ofAscii "connection_restored") none
  obtain ⟨u, as, hu, hattempts, hsends⟩ :=
    uploadLoop_sends env 0 (s := s.commit (log', log'.writes)) hrange.count (Nat.lt_succ_self _)
  have hshown := hsends.map DiagnosticEntry.copied
  rw [← hattempts] at hshown
  refine ⟨u, fun fuel hfuel => ?_, ?_⟩
  · have hloop := uploadLoop_of_le hu (Nat.succ_le_of_lt (hrange.count.trans_lt hfuel))
    simp only [afterConnect, DiagnosticStore.step, happend, Option.map_some, Option.bind_some]
    split
    · exact hloop
    · rename_i hempty
      obtain ⟨fuel, rfl⟩ : ∃ n, fuel = n + 1 := ⟨fuel - 1, by omega⟩
      exact (uploadLoop_of_empty env fuel 0 (Bool.eq_false_iff.mpr hempty)).symm.trans hloop
  · rw [← hpush]
    exact hshown.sent_append_rest.symm

/-- For a log that starts empty, the entries published and those left are the entries that its
    reference list has. -/
theorem upload_queue (stale : List DiagnosticEntry) (ops : List QueueOp) (env : Nat → Answer) :
    ∃ s u, Trace.exec DiagnosticStore.step ⟨empty, ⟨0, stale⟩⟩ (ops.map QueueOp.toOp) = some s ∧
      uploadLoop env (s.log.count + 1) 0 s = some u ∧
      DiagnosticQueue.applyAll ops = u.published.flatten ++ u.store.log.contents := by
  obtain ⟨s, hs, hq⟩ := DiagnosticStore.holds_run stale ops
  obtain ⟨u, as, hu, hattempts, hsends⟩ :=
    uploadLoop_sends env 0 hq.inRange.count (Nat.lt_succ_self _)
  have hqueue := hsends.sent_append_rest.trans hq.contents
  -- The entries fit their fields, so the copies that were published are the entries themselves.
  have hcopied : (sent as).flatten.map DiagnosticEntry.copied = (sent as).flatten := by
    refine (List.map_congr_left fun e he => ?_).trans (List.map_id _)
    exact (hq.fits e (hqueue ▸ List.mem_append_left _ he)).copied_eq
  refine ⟨s, u, hs, hu, ?_⟩
  rw [Upload.published, hattempts, sent_map, ← List.map_flatten, hcopied, hqueue]

/-- Twelve events are recorded; the first batch is published, the second one is not. -/
theorem upload_exact_twelve :
    ∃ s, Trace.exec DiagnosticStore.step (boot Nvs.blank true (Vector.replicate _ .zero))
        (List.replicate 12 (.append true 1000 .warn (some (CString.ofAscii "init_retry")) none)) =
          some s ∧
      ∃ u, uploadLoop (fun k => ⟨k = 0, true⟩) 13 0 s = some u ∧
        shown s.log = u.published.flatten ++ shown u.store.log := by
  have hrun : (Trace.exec DiagnosticStore.step (boot Nvs.blank true (Vector.replicate _ .zero))
      (List.replicate 12 (.append true 1000 .warn (some (CString.ofAscii "init_retry")) none))).map
        (·.log.count) = some 12 := by decide +kernel
  obtain ⟨s, hs, hcount⟩ := Option.map_eq_some_iff.mp hrun
  obtain ⟨u, hu, -, -, -, hshown, -⟩ :=
    upload_exact Nvs.blank true _ _ hs (fun k => ⟨k = 0, true⟩)
  exact ⟨s, hs, u, hu 13 (by omega), hshown⟩

end DiagnosticUpload

end Firmware
