-- SUMMARY: The diagnostic log through failing saves and loads: every batch fits into its document, and while NVS works no event is lost early.
import ParkingGate.Base.Ledger
import ParkingGate.Firmware.DiagnosticRun

/-!
# What becomes of the recorded events

As long as every event is saved when it is recorded, memory and NVS each hold the latest
events, memory perhaps fewer of them after a load that failed and NVS perhaps more after a
removal that was not saved. So a batch is a stretch of what was recorded, and fits into its
document. That nothing is published twice, and that nothing is lost which 32 other events have
not come after, holds while no access to NVS fails.

A run stops where an event is written outside the array of the log.
-/

namespace Firmware

open Config DiagnosticUpload

/-! ## The log and NVS -/

namespace Nvs

/-- The blob is as long as the count says, and fits the log. -/
structure Whole (nvs : Nvs) : Prop where
  cnt : nvs.cnt ≤ diagnosticLogMaxEntries
  buf : 0 < nvs.cnt → nvs.buf.length = nvs.cnt

/-- What a load finds. -/
def held (nvs : Nvs) : List DiagnosticEntry := if nvs.cnt = 0 then [] else nvs.buf

end Nvs

namespace DiagnosticStore

open DiagnosticLog

theorem Saved.whole {s : DiagnosticStore} (h : s.Saved) (hcount : s.log.count ≤ diagnosticLogMaxEntries) :
    s.nvs.Whole := by
  refine ⟨h.cnt ▸ hcount, fun hpos => ?_⟩
  rw [h.cnt] at hpos ⊢
  rw [h.buf hpos, length_contents]

theorem Saved.held {s : DiagnosticStore} (h : s.Saved) : s.nvs.held = s.log.contents := by
  unfold Nvs.held
  rw [h.cnt]
  split
  · rename_i hzero
    exact (List.length_eq_zero_iff.mp ((length_contents s.log).trans hzero)).symm
  · rename_i hpos
    exact h.buf (Nat.pos_of_ne_zero hpos)

/-- Memory and NVS each hold the end of a list. -/
structure HoldsEnd (s : DiagnosticStore) (all : List DiagnosticEntry) : Prop where
  count : s.log.count ≤ diagnosticLogMaxEntries
  whole : s.nvs.Whole
  log : s.log.contents <:+ all
  nvs : s.nvs.held <:+ all

/-- A log is saved, or NVS stays as it was. -/
theorem HoldsEnd.save {s : DiagnosticStore} {all : List DiagnosticEntry} (hwhole : s.nvs.Whole)
    {opened : Bool} (hnvs : opened = false → s.nvs.held <:+ all) {log' : DiagnosticLog}
    (hcount : log'.count ≤ diagnosticLogMaxEntries) (hlog : log'.contents <:+ all)
    {r : DiagnosticLog × List NvsWrite} (h : saved log' opened = some r) : (s.commit r).HoldsEnd all := by
  cases opened with
  | false =>
    obtain rfl := Option.some.inj h
    exact ⟨hcount, hwhole, hlog, hnvs rfl⟩
  | true =>
    obtain rfl := Option.some.inj ((saved_true hcount).symm.trans h)
    have hsaved := saved_writes log' s.nvs
    exact ⟨hcount, hsaved.whole hcount, hlog, hsaved.held ▸ hlog⟩

theorem HoldsEnd.removeFirst {s s' : DiagnosticStore} {all : List DiagnosticEntry} (h : s.HoldsEnd all)
    {opened : Bool} {n : Nat} (hstep : s.step (.removeFirst opened n) = some s') : s'.HoldsEnd all := by
  obtain ⟨r, hremove, rfl⟩ := Option.map_eq_some_iff.mp hstep
  obtain ⟨log', heq, hcount, hcontents⟩ := removeFirst_eq h.count n
  have hlog : log'.contents <:+ all := hcontents ▸ (List.drop_suffix n _).trans h.log
  exact .save h.whole (fun _ => h.nvs) hcount hlog ((heq opened).symm.trans hremove)

/-- A load that fails leaves memory empty, and NVS as it is. -/
theorem HoldsEnd.load {s : DiagnosticStore} {all : List DiagnosticEntry} (h : s.HoldsEnd all)
    (opened : Bool) (tmp : Vector DiagnosticEntry diagnosticLogMaxEntries) :
    HoldsEnd ⟨DiagnosticLog.load s.nvs opened tmp, s.nvs⟩ all := by
  refine ⟨load_count_le _ _ _, h.whole, ?_, h.nvs⟩
  cases opened with
  | false => exact List.nil_suffix
  | true =>
    have hload : (DiagnosticLog.load s.nvs true tmp).contents = s.nvs.held :=
      contents_load_of_length h.whole.cnt h.whole.buf tmp
    exact hload ▸ h.nvs

/-- A removal that is saved brings NVS up to date. -/
theorem removeFirst_saved {s s' : DiagnosticStore} (h : s.log.count ≤ diagnosticLogMaxEntries) {n : Nat}
    (hstep : s.step (.removeFirst true n) = some s') : s'.Saved := by
  obtain ⟨r, hremove, rfl⟩ := Option.map_eq_some_iff.mp hstep
  obtain ⟨log', heq, hcount, -⟩ := removeFirst_eq h n
  obtain rfl := Option.some.inj (((heq true).trans (saved_true hcount)).symm.trans hremove)
  exact saved_writes log' s.nvs

end DiagnosticStore

/-- What every removal keeps, the upload keeps. -/
theorem DiagnosticUpload.uploadLoop_invariant {P : DiagnosticStore → Prop} {env : Nat → Answer}
    (hremove : ∀ k n s s', P s → s.step (.removeFirst (env k).opened n) = some s' → P s')
    {fuel k : Nat} {s : DiagnosticStore} {u : Upload} (hs : P s)
    (h : uploadLoop env fuel k s = some u) : P u.store := by
  induction fuel generalizing k s u with
  | zero => cases h
  | succ fuel ih =>
    simp only [uploadLoop] at h
    split at h
    · split at h
      · obtain rfl := Option.some.inj h
        exact hs
      split at h
      · obtain ⟨s', hstep, hrest⟩ := Option.bind_eq_some_iff.mp h
        obtain ⟨u', hu', rfl⟩ := Option.map_eq_some_iff.mp hrest
        have hlater : P u'.store := ih (hremove k _ s s' hs hstep) hu'
        exact hlater
      · obtain rfl := Option.some.inj h
        exact hs
    · obtain rfl := Option.some.inj h
      exact hs

namespace LoggingDevice

open MainLoop

/-! ## Where a run stops -/

/-- An event is recorded while the next write position is past the array. -/
def AppendsOutside (lib : ArduinoJson) (d : LoggingDevice) : Event → Prop
  | .iterate ans _ =>
    recordedEvents ans (atSwitch lib ans d.world).1 (atSwitch lib ans d.world).2 ≠ [] ∧
      diagnosticLogMaxEntries ≤ d.store.log.head
  | .powerCut .. => False

/-- What one event does to a log in range. -/
theorem record_spec {d : LoggingDevice} (h : d.store.log.InRange) (log : LogAnswers)
    (e : DiagnosticEvent) :
    ∃ log' r, DiagnosticLog.saved log' (log.appendOpened d.recorded.length) = some r ∧ log'.InRange ∧
      log'.contents =
        DiagnosticQueue.push d.store.log.contents (e.entry (log.millis d.recorded.length)) ∧
      d.record log e = some { d with
        store := d.store.commit r
        recorded := d.recorded ++ [(log.millis d.recorded.length, e)] } := by
  obtain ⟨log', happend, h', hcontents⟩ :=
    h.append_eq (log.millis d.recorded.length) e.level (CString.ofAscii e.event) e.message
  obtain ⟨writes, hsaved⟩ :=
    DiagnosticLog.saved_of_count_le h'.count (log.appendOpened d.recorded.length)
  refine ⟨log', (log', writes), hsaved, h', hcontents, ?_⟩
  rw [record, DiagnosticStore.step, happend, hsaved]
  rfl

theorem recordAll_inRange {d : LoggingDevice} (h : d.store.log.InRange) (log : LogAnswers)
    (es : List DiagnosticEvent) : ∃ d', Trace.exec (LoggingDevice.record log) d es = some d' := by
  induction es generalizing d with
  | nil => exact ⟨d, rfl⟩
  | cons e es ih =>
    obtain ⟨log', r, hsaved, h', -, hrecord⟩ := record_spec h log e
    obtain ⟨writes, hwrites⟩ := DiagnosticLog.saved_of_count_le h'.count
      (log.appendOpened d.recorded.length)
    obtain rfl := Option.some.inj (hwrites.symm.trans hsaved)
    rw [Trace.exec_cons, hrecord, Option.bind_some]
    apply ih
    exact h'

theorem head_lt_of_append {log : DiagnosticLog} {opened : Bool} {millis : UInt32} {level : DiagnosticLevel}
    {event : CString} {message : Option CString} {r : DiagnosticLog × List NvsWrite}
    (h : log.append opened millis level (some event) message = some r) :
    log.head < diagnosticLogMaxEntries := by
  by_contra hno
  simp only [DiagnosticLog.append, hno, dif_neg, not_false_eq_true, reduceCtorEq] at h

theorem record_head_lt {d d' : LoggingDevice} {log : LogAnswers} {e : DiagnosticEvent}
    (hrecord : d.record log e = some d') : d.store.log.head < diagnosticLogMaxEntries := by
  obtain ⟨store, hstep, -⟩ := Option.map_eq_some_iff.mp hrecord
  obtain ⟨r, happend, -⟩ := Option.map_eq_some_iff.mp hstep
  exact head_lt_of_append happend

/-- What an event that is recorded does to the log. -/
theorem record_cases {d d' : LoggingDevice} (h : d.store.log.count ≤ diagnosticLogMaxEntries)
    {log : LogAnswers} {e : DiagnosticEvent} (hrecord : d.record log e = some d') :
    ∃ log' r, DiagnosticLog.saved log' (log.appendOpened d.recorded.length) = some r ∧ log'.InRange ∧
      log'.contents =
        DiagnosticQueue.push d.store.log.contents (e.entry (log.millis d.recorded.length)) ∧
      d' = { d with
        store := d.store.commit r
        recorded := d.recorded ++ [(log.millis d.recorded.length, e)] } := by
  obtain ⟨log', r, hsaved, hrange, hpush, hd'⟩ := record_spec ⟨record_head_lt hrecord, h⟩ log e
  exact ⟨log', r, hsaved, hrange, hpush, Option.some.inj (hrecord.symm.trans hd')⟩

theorem upload_isSome {d : LoggingDevice} (h : d.store.log.count ≤ diagnosticLogMaxEntries)
    (ans : Answers) (log : LogAnswers) (w : LoopWorld) : ∃ d', d.upload ans log w = some d' := by
  unfold LoggingDevice.upload
  split
  · obtain ⟨u, as, hu, -⟩ := uploadLoop_sends (roundAnswer ans log w) 0 h (Nat.lt_succ_of_le h)
    rw [hu]
    exact ⟨_, rfl⟩
  · exact ⟨d, rfl⟩

theorem record_count_le {d d' : LoggingDevice} {log : LogAnswers} {e : DiagnosticEvent}
    (h : d.store.log.count ≤ diagnosticLogMaxEntries) (hrecord : LoggingDevice.record log d e = some d') :
    d'.store.log.count ≤ diagnosticLogMaxEntries := by
  obtain ⟨store, hstep, rfl⟩ := Option.map_eq_some_iff.mp hrecord
  exact step_count_le h hstep

theorem recordAll_count_le {d d' : LoggingDevice} {log : LogAnswers} {es : List DiagnosticEvent}
    (h : d.store.log.count ≤ diagnosticLogMaxEntries)
    (hrun : Trace.exec (LoggingDevice.record log) d es = some d') :
    d'.store.log.count ≤ diagnosticLogMaxEntries :=
  Trace.exec_invariant (J := fun d => d.store.log.count ≤ diagnosticLogMaxEntries)
    (fun _ _ _ h₁ hrecord => record_count_le h₁ hrecord) h hrun

/-- A run stops where an event is recorded outside the array, and nowhere else. -/
theorem step_eq_none_iff {lib : ArduinoJson} {d : LoggingDevice}
    (h : d.store.log.count ≤ diagnosticLogMaxEntries) (e : Event) :
    d.step lib e = none ↔ d.AppendsOutside lib e := by
  cases e with
  | powerCut => exact iff_of_false (fun hnone => by cases hnone) not_false
  | iterate ans log =>
    have hrest : ∀ d₁, Trace.exec (LoggingDevice.record log) d
        (recordedEvents ans (atSwitch lib ans d.world).1 (atSwitch lib ans d.world).2) = some d₁ →
        d.step lib (.iterate ans log) ≠ none := by
      intro d₁ hrecord
      have hcount : d₁.store.log.count ≤ diagnosticLogMaxEntries := recordAll_count_le h hrecord
      obtain ⟨d₂, hupload⟩ := upload_isSome hcount ans log (connected ans (atSwitch lib ans d.world).2)
      show (Trace.exec (LoggingDevice.record log) d _).bind _ ≠ none
      rw [hrecord, Option.bind_some]
      dsimp only
      rw [hupload]
      split <;> exact Option.some_ne_none _
    constructor
    · intro hnone
      refine ⟨fun hnil => ?_, Nat.le_of_not_lt fun hlt => ?_⟩
      · exact hrest d (by rw [hnil]; rfl) hnone
      · obtain ⟨d₁, hrecord⟩ := recordAll_inRange (d := d) ⟨hlt, h⟩ log
          (recordedEvents ans (atSwitch lib ans d.world).1 (atSwitch lib ans d.world).2)
        exact hrest d₁ hrecord hnone
    · rintro ⟨hevents, hhead⟩
      obtain ⟨e, es, hcons⟩ := List.exists_cons_of_ne_nil hevents
      have hnone : d.record log e = none := by
        apply Option.eq_none_iff_forall_not_mem.mpr
        intro d' hrecord
        exact absurd hhead (Nat.not_le_of_lt (record_head_lt hrecord))
      show (Trace.exec (LoggingDevice.record log) d _).bind _ = none
      rw [hcons, Trace.exec_cons, hnone]
      rfl

/-! ## What an iteration records -/

/-- The events of one iteration are in their pairs. -/
theorem recordedEvents_paired (ans : Answers) (now : UInt32) (w : LoopWorld) :
    DiagnosticEvent.Paired (recordedEvents ans now w) := by
  have hsingle : ∀ e : DiagnosticEvent, e.isStuck = false → DiagnosticEvent.Paired [e] := by
    intro e he
    exact ⟨fun hstuck => absurd (he.symm.trans hstuck) Bool.false_ne_true, trivial⟩
  unfold recordedEvents modemResetEvents
  split
  · split
    · trivial
    split
    · split
      · exact hsingle _ rfl
      · exact hsingle _ rfl
    · trivial
  · dsimp only
    split
    · exact hsingle _ rfl
    · trivial
  · trivial
  · split
    · exact ⟨fun _ => rfl, hsingle _ rfl⟩
    split
    · exact hsingle _ rfl
    split
    · exact hsingle _ rfl
    · trivial
  · dsimp only
    split
    · split
      · exact hsingle _ rfl
      · exact hsingle _ rfl
    split
    · trivial
    · exact hsingle _ rfl

/-! ## What holds of every device -/

/-- The batches that were published, in one list. -/
def confirmed (d : LoggingDevice) : List DiagnosticEntry :=
  ((d.messages.filter (·.published)).map (·.batch)).flatten

/-- A batch of consecutive entries that were recorded. -/
structure Genuine (recorded : List (UInt32 × DiagnosticEvent)) (batch : List DiagnosticEntry) : Prop where
  pos : 0 < batch.length
  le : batch.length ≤ batchSize
  recorded : batch <:+: DiagnosticEvent.entries recorded

theorem Genuine.append {recorded : List (UInt32 × DiagnosticEvent)} {batch : List DiagnosticEntry}
    (h : Genuine recorded batch) (es : List (UInt32 × DiagnosticEvent)) :
    Genuine (recorded ++ es) batch where
  pos := h.pos
  le := h.le
  recorded := by
    rw [DiagnosticEvent.entries, List.map_append]
    exact h.recorded.trans (List.prefix_append _ _).isInfix

/-- A batch out of the log. -/
theorem genuine_take {recorded : List (UInt32 × DiagnosticEvent)} {q : List DiagnosticEntry}
    (hq : q <:+ DiagnosticEvent.entries recorded) {k : Nat}
    (hpos : 0 < ((q.drop k).take batchSize).length) :
    Genuine recorded ((q.drop k).take batchSize) where
  pos := hpos
  le := List.length_take_le _ _
  recorded := ((List.take_prefix _ _).isInfix.trans (List.drop_suffix _ _).isInfix).trans hq.isInfix

/-- A batch is made of consecutive events. -/
theorem Genuine.events {recorded : List (UInt32 × DiagnosticEvent)} {batch : List DiagnosticEntry}
    (h : Genuine recorded batch) :
    ∃ k, batch = DiagnosticEvent.entries ((recorded.drop k).take batch.length) := by
  obtain ⟨before, after, hall⟩ := h.recorded
  refine ⟨before.length, ?_⟩
  rw [DiagnosticEvent.entries, List.map_take, List.map_drop]
  show batch = ((DiagnosticEvent.entries recorded).drop before.length).take batch.length
  rw [← hall, List.append_assoc, List.drop_left, List.take_left]

/-- Consecutive events, of which every `mqtt_stuck` has its `ppp_rebuild`, fit into a document. -/
theorem Genuine.payloadBytes_le {recorded : List (UInt32 × DiagnosticEvent)} {batch : List DiagnosticEntry}
    (h : Genuine recorded batch) (hpaired : DiagnosticEvent.Paired (recorded.map (·.2))) :
    DiagnosticPayload.payloadBytes batch ≤ 1024 := by
  obtain ⟨k, hk⟩ := h.events
  have htail : DiagnosticEvent.Paired ((recorded.drop k).map (·.2)) := by
    rw [List.map_drop]
    exact hpaired.drop k
  rw [hk]
  exact DiagnosticEvent.payloadBytes_le htail h.le

/-- What an access to the log keeps, unless it fails to save an event. -/
structure Kept (d : LoggingDevice) : Prop where
  store : d.store.HoldsEnd (DiagnosticEvent.entries d.recorded)
  genuine : ∀ m ∈ d.messages, Genuine d.recorded m.batch

/-- Between two iterations, the events are also in their pairs. -/
structure Inv (d : LoggingDevice) : Prop extends Kept d where
  paired : DiagnosticEvent.Paired (d.recorded.map (·.2))

/-- What an access to the log keeps that does not fail. -/
structure Accounted (d : LoggingDevice) : Prop where
  saved : d.store.Saved
  ledger : Ledger diagnosticLogMaxEntries (DiagnosticEvent.entries d.recorded) d.confirmed
    d.store.log.contents

/-- Every event is saved when it is recorded. -/
def Event.SavesEvents : Event → Prop
  | .iterate _ log => ∀ k, log.appendOpened k
  | .powerCut ..   => True

/-- No access to NVS fails. -/
def Event.Opens : Event → Prop
  | .iterate _ log         => (∀ k, log.appendOpened k) ∧ (∀ k, log.removeOpened k) ∧ log.loadOpened
  | .powerCut _ _ opened _ => opened

theorem Event.Opens.savesEvents {e : Event} (h : e.Opens) : e.SavesEvents := by
  cases e with
  | iterate ans log => exact h.1
  | powerCut => trivial

/-! ### One event -/

theorem entries_concat (recorded : List (UInt32 × DiagnosticEvent)) (ts : UInt32) (e : DiagnosticEvent) :
    DiagnosticEvent.entries (recorded ++ [(ts, e)]) = DiagnosticEvent.entries recorded ++ [e.entry ts] :=
  List.map_append

theorem push_suffix {q all : List DiagnosticEntry} (h : q <:+ all) (e : DiagnosticEntry) :
    DiagnosticQueue.push q e <:+ all ++ [e] := by
  have happend : q ++ [e] <:+ all ++ [e] := by
    obtain ⟨front, rfl⟩ := h
    exact ⟨front, (List.append_assoc front q [e]).symm⟩
  unfold DiagnosticQueue.push
  dsimp only
  split
  · exact (List.tail_suffix _).trans happend
  · exact happend

theorem Kept.record {d d' : LoggingDevice} (h : d.Kept) {log : LogAnswers}
    (hopened : ∀ k, log.appendOpened k) {e : DiagnosticEvent} (hrecord : d.record log e = some d') :
    d'.Kept := by
  obtain ⟨log', r, hsaved, hrange, hpush, rfl⟩ := record_cases h.store.count hrecord
  refine ⟨?_, fun m hm => (h.genuine m hm).append _⟩
  show (d.store.commit r).HoldsEnd (DiagnosticEvent.entries (d.recorded ++ [_]))
  rw [entries_concat]
  apply DiagnosticStore.HoldsEnd.save h.store.whole _ hrange.count
    (hpush ▸ push_suffix h.store.log _) hsaved
  intro hfailed
  exact absurd ((hopened _).symm.trans hfailed) Bool.noConfusion

/-- An event goes to the end of the log, and NVS holds it then. -/
theorem Accounted.record {d d' : LoggingDevice} (hcount : d.store.log.count ≤ diagnosticLogMaxEntries)
    (h : d.Accounted) {log : LogAnswers} (hopened : ∀ k, log.appendOpened k) {e : DiagnosticEvent}
    (hrecord : d.record log e = some d') : d'.Accounted := by
  obtain ⟨log', r, hsaved, hrange, hpush, rfl⟩ := record_cases hcount hrecord
  rw [hopened] at hsaved
  obtain rfl := Option.some.inj ((DiagnosticLog.saved_true hrange.count).symm.trans hsaved)
  refine ⟨DiagnosticStore.saved_writes log' d.store.nvs, ?_⟩
  have hpushed := h.ledger.push (e.entry (log.millis d.recorded.length))
  show Ledger _ (DiagnosticEvent.entries (d.recorded ++ [_])) _ log'.contents
  rw [entries_concat, hpush]
  unfold DiagnosticQueue.push
  dsimp only
  split
  · rename_i hfull
    exact hpushed.drop hfull
  · exact hpushed

theorem recordAll_recorded {d d' : LoggingDevice} {log : LogAnswers} {es : List DiagnosticEvent}
    (hrun : Trace.exec (LoggingDevice.record log) d es = some d') :
    d'.recorded.map (·.2) = d.recorded.map (·.2) ++ es := by
  induction es generalizing d with
  | nil =>
    obtain rfl := Option.some.inj hrun
    exact (List.append_nil _).symm
  | cons e es ih =>
    obtain ⟨d₁, hrecord, hrest⟩ := Trace.exec_cons_some hrun
    obtain ⟨store, -, rfl⟩ := Option.map_eq_some_iff.mp hrecord
    rw [ih hrest, List.map_append, List.append_assoc]
    rfl

theorem Kept.recordAll {d d' : LoggingDevice} (h : d.Kept) {log : LogAnswers}
    (hopened : ∀ k, log.appendOpened k) {es : List DiagnosticEvent}
    (hrun : Trace.exec (LoggingDevice.record log) d es = some d') : d'.Kept :=
  Trace.exec_invariant (fun _ _ _ h₁ hrecord => h₁.record hopened hrecord) h hrun

theorem Accounted.recordAll {d d' : LoggingDevice} (hcount : d.store.log.count ≤ diagnosticLogMaxEntries)
    (h : d.Accounted) {log : LogAnswers} (hopened : ∀ k, log.appendOpened k) {es : List DiagnosticEvent}
    (hrun : Trace.exec (LoggingDevice.record log) d es = some d') : d'.Accounted := by
  induction es generalizing d with
  | nil =>
    obtain rfl := Option.some.inj hrun
    exact h
  | cons e es ih =>
    obtain ⟨d₁, hrecord, hrest⟩ := Trace.exec_cons_some hrun
    exact ih (record_count_le hcount hrecord) (h.record hcount hopened hrecord) hrest

/-! ### The upload -/

theorem entries_fits (es : List (UInt32 × DiagnosticEvent)) :
    ∀ x ∈ DiagnosticEvent.entries es, x.Fits := by
  intro x hx
  obtain ⟨e, -, rfl⟩ := List.mem_map.mp hx
  exact DiagnosticEntry.recorded_fits _ _ _ _

/-- What the upload does to the log, whose entries it copies as they are. -/
theorem Kept.uploadLoop {d : LoggingDevice} (h : d.Kept) (env : Nat → Answer) :
    ∃ u, DiagnosticUpload.uploadLoop env (diagnosticLogMaxEntries + 1) 0 d.store = some u ∧
      Batches.Sends batchSize d.store.log.contents u.attempts u.store.log.contents := by
  obtain ⟨u, as, hu, hattempts, hsends⟩ :=
    uploadLoop_sends env 0 h.store.count (Nat.lt_succ_of_le h.store.count)
  have hcopied : ∀ l : List DiagnosticEntry, l <:+: d.store.log.contents → l.map .copied = l := by
    intro l hl
    refine (List.map_congr_left fun x hx => ?_).trans (List.map_id l)
    exact (entries_fits _ x (h.store.log.subset (hl.subset hx))).copied_eq
  refine ⟨u, hu, ?_⟩
  have hmap : as.map (Batches.Attempt.map .copied) = as := by
    refine (List.map_congr_left fun a ha => ?_).trans (List.map_id as)
    obtain ⟨k, hk⟩ := hsends.batch_eq (List.mem_map_of_mem ha)
    have hpart : a.batch <:+: d.store.log.contents := by
      rw [hk]
      exact (List.take_prefix _ _).isInfix.trans (List.drop_suffix _ _).isInfix
    exact congrArg (Batches.Attempt.mk · a.sent) (hcopied a.batch hpart)
  rw [hattempts, hmap]
  exact hsends

/-- There is nothing to upload, or the loop sends batches. -/
theorem Kept.upload_cases {d d' : LoggingDevice} (h : d.Kept) {ans : Answers} {log : LogAnswers}
    {w : LoopWorld} (hupload : d.upload ans log w = some d') :
    d' = d ∨ ∃ u bootSessionId,
      DiagnosticUpload.uploadLoop (roundAnswer ans log w) (diagnosticLogMaxEntries + 1) 0 d.store = some u ∧
      Batches.Sends batchSize d.store.log.contents u.attempts u.store.log.contents ∧
      d' = { d with
        store := u.store
        bootSessionId := bootSessionId
        messages := d.messages ++ u.attempts.map fun a => ⟨bootSessionId, a.batch, a.sent⟩ } := by
  unfold LoggingDevice.upload at hupload
  split at hupload
  · obtain ⟨u, hu, hd'⟩ := Option.map_eq_some_iff.mp hupload
    obtain ⟨u', hu', hsends⟩ := h.uploadLoop (roundAnswer ans log w)
    obtain rfl := Option.some.inj (hu.symm.trans hu')
    exact .inr ⟨u, _, hu, hsends, hd'.symm⟩
  · exact .inl (Option.some.inj hupload).symm

theorem Kept.upload {d d' : LoggingDevice} (h : d.Kept) {ans : Answers} {log : LogAnswers} {w : LoopWorld}
    (hupload : d.upload ans log w = some d') : d'.Kept := by
  rcases h.upload_cases hupload with rfl | ⟨u, bootSessionId, hu, hsends, rfl⟩
  · exact h
  refine ⟨?_, fun m hm => ?_⟩
  · exact uploadLoop_invariant (P := (DiagnosticStore.HoldsEnd · _))
      (fun _ _ _ _ hs hstep => hs.removeFirst hstep) h.store hu
  · rcases List.mem_append.mp hm with hold | hnew
    · exact h.genuine m hold
    · obtain ⟨a, ha, rfl⟩ := List.mem_map.mp hnew
      have hbatch := List.mem_map_of_mem (f := (·.batch)) ha
      obtain ⟨k, hk⟩ := hsends.batch_eq hbatch
      have hpos := (hsends.length_batch (by decide) hbatch).1
      rw [hk] at hpos
      exact hk ▸ genuine_take h.store.log hpos

/-- What was published with success goes from the log to the confirmed entries. -/
theorem Accounted.upload {d d' : LoggingDevice} (hkept : d.Kept) (h : d.Accounted) {ans : Answers}
    {log : LogAnswers} (hopened : ∀ k, log.removeOpened k) {w : LoopWorld}
    (hupload : d.upload ans log w = some d') : d'.Accounted := by
  rcases hkept.upload_cases hupload with rfl | ⟨u, bootSessionId, hu, hsends, rfl⟩
  · exact h
  have hsaved : u.store.log.count ≤ diagnosticLogMaxEntries ∧ u.store.Saved := by
    refine uploadLoop_invariant
      (P := fun s => s.log.count ≤ diagnosticLogMaxEntries ∧ s.Saved) (fun k n s s' hs hstep => ?_)
      ⟨hkept.store.count, h.saved⟩ hu
    refine ⟨step_count_le hs.1 hstep, ?_⟩
    have hround : (roundAnswer ans log w k).opened = true := hopened k
    rw [hround] at hstep
    exact DiagnosticStore.removeFirst_saved hs.1 hstep
  refine ⟨hsaved.2, ?_⟩
  have htaken := h.ledger.take (Batches.sent u.attempts).flatten.length
  have htake : d.store.log.contents.take (Batches.sent u.attempts).flatten.length =
      (Batches.sent u.attempts).flatten := by
    rw [← hsends.sent_append_rest, List.take_left]
  rw [htake, ← hsends.rest_eq_drop] at htaken
  simpa only [confirmed, List.filter_append, List.map_append, List.flatten_append, List.filter_map,
    List.map_map, Function.comp_def, Batches.sent] using htaken

/-! ### A start -/

theorem Kept.reload {d : LoggingDevice} (h : d.Kept) (opened : Bool)
    (tmp : Vector DiagnosticEntry diagnosticLogMaxEntries) : (d.reload opened tmp).Kept :=
  ⟨h.store.load opened tmp, h.genuine⟩

/-- A start finds in NVS what was saved. -/
theorem Accounted.reload {d : LoggingDevice} (hcount : d.store.log.count ≤ diagnosticLogMaxEntries)
    (h : d.Accounted) (tmp : Vector DiagnosticEntry diagnosticLogMaxEntries) :
    (d.reload true tmp).Accounted := by
  have hcontents := h.saved.contents_load hcount tmp
  have hcount : (DiagnosticLog.load d.store.nvs true tmp).count = d.store.log.count := by
    rw [← DiagnosticLog.length_contents, hcontents, DiagnosticLog.length_contents]
  refine ⟨⟨?_, fun hpos => ?_⟩, ?_⟩
  · exact h.saved.cnt.trans hcount.symm
  · exact (h.saved.buf (Nat.lt_of_lt_of_eq hpos hcount)).trans hcontents.symm
  · show Ledger _ _ _ (DiagnosticLog.load d.store.nvs true tmp).contents
    rw [hcontents]
    exact h.ledger

theorem Kept.advance {d : LoggingDevice} (h : d.Kept) (lib : ArduinoJson) (ans : Answers)
    (log : LogAnswers) : (d.advance lib ans log).Kept := by
  have hworld : Kept { d with world := d.world.iterate lib ans } := ⟨h.store, h.genuine⟩
  unfold LoggingDevice.advance
  dsimp only
  split
  · exact hworld.reload log.loadOpened log.tmp
  · exact hworld

theorem Accounted.advance {d : LoggingDevice} (hcount : d.store.log.count ≤ diagnosticLogMaxEntries)
    (h : d.Accounted) (lib : ArduinoJson) (ans : Answers) {log : LogAnswers} (hopened : log.loadOpened) :
    (d.advance lib ans log).Accounted := by
  let d' := { d with world := d.world.iterate lib ans }
  have hworld : d'.Accounted := ⟨h.saved, h.ledger⟩
  unfold LoggingDevice.advance
  dsimp only
  split
  · rw [hopened]
    exact hworld.reload (d := d') hcount log.tmp
  · exact hworld

theorem advance_recorded (lib : ArduinoJson) (ans : Answers) (log : LogAnswers) (d : LoggingDevice) :
    (d.advance lib ans log).recorded = d.recorded := by
  unfold LoggingDevice.advance
  dsimp only
  split <;> rfl

theorem Kept.upload_recorded {d d' : LoggingDevice} (h : d.Kept) {ans : Answers} {log : LogAnswers}
    {w : LoopWorld} (hupload : d.upload ans log w = some d') : d'.recorded = d.recorded := by
  rcases h.upload_cases hupload with rfl | ⟨u, bootSessionId, -, -, rfl⟩ <;> rfl

/-! ### Whole runs -/

theorem Inv.iterate {lib : ArduinoJson} {ans : Answers} {log : LogAnswers} {d d' : LoggingDevice}
    (h : d.Inv) (hopened : ∀ k, log.appendOpened k) (hstep : d.iterate lib ans log = some d') : d'.Inv := by
  obtain ⟨d₁, d₂, ans', hrecord, hupload, rfl⟩ := iterate_cases hstep
  have h₁ := h.toKept.recordAll hopened hrecord
  have hpaired : DiagnosticEvent.Paired (d₁.recorded.map (·.2)) := by
    rw [recordAll_recorded hrecord]
    exact h.paired.append (recordedEvents_paired _ _ _)
  rcases hupload with rfl | ⟨w, hupload⟩
  · refine ⟨h₁.advance lib ans' log, ?_⟩
    rw [advance_recorded]
    exact hpaired
  · refine ⟨(h₁.upload hupload).advance lib ans' log, ?_⟩
    rw [advance_recorded, h₁.upload_recorded hupload]
    exact hpaired

theorem Inv.step {lib : ArduinoJson} {d d' : LoggingDevice} {e : Event} (h : d.Inv) (he : e.SavesEvents)
    (hstep : d.step lib e = some d') : d'.Inv := by
  cases e with
  | iterate ans log => exact h.iterate he hstep
  | powerCut millis session opened tmp =>
    obtain rfl := Option.some.inj hstep
    have hreload := h.toKept.reload opened tmp
    exact ⟨⟨hreload.store, hreload.genuine⟩, h.paired⟩

theorem Accounted.step {lib : ArduinoJson} {d d' : LoggingDevice} {e : Event} (hkept : d.Kept)
    (h : d.Accounted) (he : e.Opens) (hstep : d.step lib e = some d') : d'.Accounted := by
  cases e with
  | iterate ans log =>
    obtain ⟨happend, hremove, hload⟩ := he
    obtain ⟨d₁, d₂, ans', hrecord, hupload, rfl⟩ := iterate_cases hstep
    have hkept₁ := hkept.recordAll happend hrecord
    have h₁ := h.recordAll hkept.store.count happend hrecord
    rcases hupload with rfl | ⟨w, hupload⟩
    · exact h₁.advance hkept₁.store.count lib ans' hload
    · exact (h₁.upload hkept₁ hremove hupload).advance (hkept₁.upload hupload).store.count lib ans' hload
  | powerCut millis session opened tmp =>
    obtain rfl := Option.some.inj hstep
    have hopened : opened = true := he
    have hreload := h.reload hkept.store.count tmp
    rw [hopened]
    exact ⟨hreload.saved, hreload.ledger⟩

theorem start_inv (millis : UInt32) (session : MqttSession) : (start millis session).Inv where
  store := ⟨Nat.zero_le _, ⟨Nat.zero_le _, fun hpos => absurd hpos (Nat.lt_irrefl 0)⟩, List.nil_suffix,
    List.nil_suffix⟩
  genuine := fun _ hm => absurd hm List.not_mem_nil
  paired := trivial

theorem start_accounted (millis : UInt32) (session : MqttSession) : (start millis session).Accounted where
  saved := ⟨rfl, fun hpos => absurd hpos (Nat.lt_irrefl 0)⟩
  ledger := Ledger.empty

section Run

variable {lib : ArduinoJson} {millis : UInt32} {session : MqttSession} {events : List Event}
  {d : LoggingDevice}

theorem run_inv (hsaves : ∀ e ∈ events, e.SavesEvents)
    (hrun : Trace.exec (step lib) (start millis session) events = some d) : d.Inv :=
  Trace.exec_invariant_of_mem (fun _ e he _ h hstep => h.step (hsaves e he) hstep)
    (start_inv millis session) hrun

theorem run_accounted (hopens : ∀ e ∈ events, e.Opens)
    (hrun : Trace.exec (step lib) (start millis session) events = some d) : d.Accounted := by
  have hboth : d.Inv ∧ d.Accounted := by
    refine Trace.exec_invariant_of_mem (J := fun d => d.Inv ∧ d.Accounted) (fun s e he s' h hstep => ?_)
      ⟨start_inv millis session, start_accounted millis session⟩ hrun
    exact ⟨h.1.step (hopens e he).savesEvents hstep, h.2.step h.1.toKept (hopens e he) hstep⟩
  exact hboth.2

/-- Through restarts, power cuts, loads that fail, removals that are not saved and publishes that
    fail, the document of 1024 bytes holds every batch that the device publishes. The run goes on as
    long as no event is written outside the array. -/
theorem batches_carried {memory : JsonMemory} {contents : memory.Pool → JsonMemory.Contents}
    (hmemory : memory.Lawful contents) (hsaves : ∀ e ∈ events, e.SavesEvents)
    (hrun : Trace.exec (step lib) (start millis session) events = some d) :
    (∀ m ∈ d.messages,
      DiagnosticPayload.Carries (DiagnosticPayload.buildDocument memory m.sessionId m.batch) m.batch) ∧
    ∀ e, d.step lib e = none ↔ d.AppendsOutside lib e := by
  have hinv := run_inv hsaves hrun
  refine ⟨fun m hm => ?_, step_eq_none_iff hinv.store.count⟩
  exact (DiagnosticPayload.carries_iff_bytes_le hmemory m.sessionId m.batch).mpr
    ((hinv.genuine m hm).payloadBytes_le hinv.paired)

/-- While NVS works, what was published with success and what the log holds are events that were
    recorded, in their order and none twice, and the latest 32 of all events are among them. -/
theorem latest_kept (hopens : ∀ e ∈ events, e.Opens)
    (hrun : Trace.exec (step lib) (start millis session) events = some d) :
    (d.confirmed ++ d.store.log.contents).Sublist (DiagnosticEvent.entries d.recorded) ∧
      (DiagnosticEvent.entries d.recorded).drop (d.recorded.length - 32) <:+
        d.confirmed ++ d.store.log.contents := by
  have hledger := (run_accounted hopens hrun).ledger
  refine ⟨hledger.sublist, ?_⟩
  have hrecent := hledger.recent
  rwa [DiagnosticEvent.entries, List.length_map] at hrecent

end Run

/-! ## A run -/

def blank : Vector DiagnosticEntry diagnosticLogMaxEntries := Vector.replicate _ DiagnosticEntry.zero

/-- The modem answers late, and once it does, everything succeeds but perhaps the saves after an
    upload. -/
def lateStart (removed : Bool) : List Event :=
  let log : UInt32 → LogAnswers :=
    fun t => ⟨fun _ => t, fun _ => true, t + 77, fun _ => removed, true, blank⟩
  .iterate { LoopWorld.willing 31000 with modemInit := false } (log 31000) ::
    [32000, 32010, 33100, 33110, 33120, 33130, 33140, 34200, 35200, 36200, 36300].map fun t =>
      .iterate (LoopWorld.willing t) (log t)

/-- The power is cut in between. -/
def lateStarts (removed : Bool) : List Event :=
  lateStart removed ++ .powerCut 0 .down true blank :: lateStart true

theorem lateStarts_messages (removed : Bool) :
    (Trace.exec (step (.ofDocuments [])) (start 0 .down) (lateStarts removed)).map
      (fun d => (d.recorded.map (·.2), d.messages.map fun m => (m.batch.length, m.published))) =
        some ([.initRetry ⟨0, by decide⟩, .connectionRestored, .initRetry ⟨0, by decide⟩,
          .connectionRestored],
          [(2, true), (if removed then 2 else 4, true)]) := by
  cases removed <;> decide +kernel

theorem lateStarts_opens (removed : Bool) :
    ∀ e ∈ lateStarts removed, e.SavesEvents ∧ (removed → e.Opens) := by
  have hone : ∀ removed, ∀ e ∈ lateStart removed, e.SavesEvents ∧ (removed → e.Opens) := by
    intro removed e he
    rcases List.mem_cons.mp he with rfl | he
    · exact ⟨fun _ => rfl, fun hremoved => ⟨fun _ => rfl, fun _ => hremoved, rfl⟩⟩
    · obtain ⟨t, -, rfl⟩ := List.mem_map.mp he
      exact ⟨fun _ => rfl, fun hremoved => ⟨fun _ => rfl, fun _ => hremoved, rfl⟩⟩
  intro e he
  rcases List.mem_append.mp he with he | he
  · exact hone removed e he
  rcases List.mem_cons.mp he with rfl | he
  · exact ⟨trivial, fun _ => rfl⟩
  · exact ⟨(hone true e he).1, fun _ => (hone true e he).2 rfl⟩

/-- A removal is not saved, so the next start loads the batch again, and it is published again in
    front of the new events. -/
theorem batches_carried_lateStarts :
    ∃ d, Trace.exec (step (.ofDocuments [])) (start 0 .down) (lateStarts false) = some d ∧
      d.messages.map (fun m => (m.batch.length, m.published)) = [(2, true), (4, true)] ∧
      (∀ m ∈ d.messages, DiagnosticPayload.Carries
        (DiagnosticPayload.buildDocument JsonMemory.reference m.sessionId m.batch) m.batch) ∧
      ∀ e, d.step (.ofDocuments []) e = none ↔ d.AppendsOutside (.ofDocuments []) e := by
  obtain ⟨d, hrun, hd⟩ := Option.map_eq_some_iff.mp (lateStarts_messages false)
  refine ⟨d, hrun, congrArg Prod.snd hd, ?_⟩
  exact batches_carried JsonMemory.reference_lawful (fun e he => (lateStarts_opens false e he).1) hrun

/-- With every removal saved, each event is published once. -/
theorem latest_kept_lateStarts :
    ∃ d, Trace.exec (step (.ofDocuments [])) (start 0 .down) (lateStarts true) = some d ∧
      d.recorded.length = 4 ∧ d.messages.map (fun m => (m.batch.length, m.published)) =
        [(2, true), (2, true)] ∧
      (d.confirmed ++ d.store.log.contents).Sublist (DiagnosticEvent.entries d.recorded) ∧
      (DiagnosticEvent.entries d.recorded).drop (d.recorded.length - 32) <:+
        d.confirmed ++ d.store.log.contents := by
  obtain ⟨d, hrun, hd⟩ := Option.map_eq_some_iff.mp (lateStarts_messages true)
  have hlen := congrArg (fun r => r.1.length) hd
  rw [List.length_map] at hlen
  refine ⟨d, hrun, hlen, congrArg Prod.snd hd, ?_⟩
  exact latest_kept (fun e he => (lateStarts_opens true e he).2 rfl) hrun

end LoggingDevice

end Firmware
