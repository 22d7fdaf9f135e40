-- SUMMARY: Device, broker and backend together: what is stored of the diagnostic log, however often and in whatever order its messages arrive.
import ParkingGate.System.DiagnosticText

/-!
# The diagnostic log end to end

A message that was handed to `publish` may be handled by the backend once, several times, late
or never, whatever `publish` returned, and each insert into the database may fail. What is
stored is exact in every case. While NVS works, an event can only get lost before 32 others have
come after it if the message of a successful `publish` never gets into the database.
-/

namespace ParkingGate

namespace DiagnosticDelivery

open Backend Firmware

/-- What the two sides take from outside. -/
structure Setting where
  lib : ArduinoJson
  memory : JsonMemory
  /-- `serializeJson` into a `String`. -/
  serializeJson : Json → CString
  numbers : NumberReading

structure World where
  device : LoggingDevice
  logs : List DeviceDiagnosticLog
  /-- The numbers of the messages that were handled with a successful insert. -/
  inserted : List Nat

inductive Event where
  | device (e : LoggingDevice.Event)
  /-- The backend handles the message of that number; the database takes the document or not. -/
  | handle (i : Nat) (now : Nat) (inserted : Bool)

/-- The device saves every event that it records. -/
def Event.SavesEvents : Event → Prop
  | .device e  => e.SavesEvents
  | .handle .. => True

/-- No access of the device to NVS fails. -/
def Event.Opens : Event → Prop
  | .device e  => e.Opens
  | .handle .. => True

theorem Event.Opens.savesEvents {e : Event} (h : e.Opens) : e.SavesEvents := by
  cases e with
  | device e => exact LoggingDevice.Event.Opens.savesEvents h
  | handle => trivial

def start (millis : UInt32) (session : MqttSession) : World where
  device := LoggingDevice.start millis session
  logs := []
  inserted := []

/-- The payload of a message. -/
def payload (env : Setting) (m : DiagnosticMessage) : CString :=
  env.serializeJson (DiagnosticPayload.buildDocument env.memory m.sessionId m.batch)

def store (logs : List DeviceDiagnosticLog) : Option DiagnosticsOutcome → List DeviceDiagnosticLog
  | some (.stored log) => logs ++ [log]
  | some .invalid | some .noEntries | some .failed | none => logs

def step (env : Setting) (w : World) : Event → Option World
  | .device e => (w.device.step env.lib e).map fun device => { w with device := device }
  | .handle i now inserted =>
    (w.device.messages[i]?).map fun m =>
      { w with
        logs := store w.logs (handleMessage env.numbers now inserted (payload env m))
        inserted := if inserted then w.inserted ++ [i] else w.inserted }

/-! ## What is stored -/

/-- A document holds the message of that number: events that the device has recorded one after the
    other, with their times, levels and texts, under the session they were sent in. -/
def Stored (d : LoggingDevice) (i : Nat) (log : DeviceDiagnosticLog) : Prop :=
  ∃ m es now, d.messages[i]? = some m ∧ es <:+: d.recorded ∧ m.batch = DiagnosticEvent.entries es ∧
    log = storedBatch m.sessionId now es

theorem Stored.grows {d d' : LoggingDevice} {i : Nat} {log : DeviceDiagnosticLog} (h : Stored d i log)
    (hgrows : LoggingDevice.Grows d d') : Stored d' i log := by
  obtain ⟨m, es, now, hm, hes, hbatch, hlog⟩ := h
  refine ⟨m, es, now, ?_, hes.trans hgrows.recorded.isInfix, hbatch, hlog⟩
  obtain ⟨more, hmore⟩ := hgrows.messages
  rw [← hmore]
  exact List.getElem?_append_left (List.getElem?_eq_some_iff.mp hm).1 ▸ hm

structure Inv (w : World) : Prop where
  device : w.device.Inv
  stored : List.Forall₂ (Stored w.device) w.inserted w.logs

section Run

variable {env : Setting} {contents : env.memory.Pool → JsonMemory.Contents}
  (hmemory : env.memory.Lawful contents) (hprints : PrintsObjects env.serializeJson)

include hmemory hprints in
/-- A message of the device is stored when it is handled, if the database takes it. -/
theorem handle_stored {d : LoggingDevice} (hd : d.Inv) {i : Nat} {m : DiagnosticMessage}
    (hm : d.messages[i]? = some m) (now : Nat) (inserted : Bool) :
    ∃ log, handleMessage env.numbers now inserted (payload env m) =
        some (if inserted then .stored log else .failed) ∧ Stored d i log := by
  have hgenuine := hd.genuine m (List.mem_of_getElem? hm)
  have hbytes := hgenuine.payloadBytes_le hd.paired
  obtain ⟨k, hbatch⟩ := hgenuine.events
  let es := (d.recorded.drop k).take m.batch.length
  have hlen : es.length = m.batch.length := by
    have hmap := congrArg List.length hbatch
    rw [DiagnosticEvent.entries, List.length_map] at hmap
    exact hmap.symm
  have hes : es <:+: d.recorded :=
    (List.take_prefix _ _).isInfix.trans (List.drop_suffix _ _).isInfix
  have hne : es ≠ [] := List.ne_nil_of_length_pos (hlen ▸ hgenuine.pos)
  have hstored := handleMessage_batch env.numbers m.sessionId es hmemory hprints now inserted hne
    (hlen ▸ hgenuine.le) (hbatch ▸ hbytes)
  have hbatch : m.batch = DiagnosticEvent.entries es := hbatch
  refine ⟨storedBatch m.sessionId now es, ?_, m, es, now, hm, hes, hbatch, rfl⟩
  rw [payload, hbatch]
  exact hstored

include hmemory hprints in
theorem Inv.step {w w' : World} {e : Event} (h : Inv w) (he : e.SavesEvents)
    (hstep : step env w e = some w') : Inv w' := by
  cases e with
  | device e =>
    obtain ⟨d, hd, rfl⟩ := Option.map_eq_some_iff.mp hstep
    have hgrows := LoggingDevice.step_grows hd
    exact ⟨h.device.step he hd, h.stored.imp fun _ _ hlog => hlog.grows hgrows⟩
  | handle i now inserted =>
    obtain ⟨m, hm, rfl⟩ := Option.map_eq_some_iff.mp hstep
    obtain ⟨log, hhandle, hlog⟩ := handle_stored hmemory hprints h.device hm now inserted
    refine ⟨h.device, ?_⟩
    dsimp only
    rw [hhandle]
    cases inserted with
    | false => exact h.stored
    | true => exact List.rel_append h.stored (.cons hlog .nil)

variable {millis : UInt32} {session : MqttSession} {events : List Event} {w : World}

include hmemory hprints in
theorem run_inv (hsaves : ∀ e ∈ events, e.SavesEvents)
    (hrun : Trace.exec (DiagnosticDelivery.step env) (start millis session) events = some w) : Inv w :=
  Trace.exec_invariant_of_mem (fun _ e he _ h hstep => Inv.step hmemory hprints h (hsaves e he) hstep)
    ⟨LoggingDevice.start_inv millis session, .nil⟩ hrun

theorem run_accounted (hopens : ∀ e ∈ events, e.Opens)
    (hrun : Trace.exec (DiagnosticDelivery.step env) (start millis session) events = some w) :
    w.device.Accounted := by
  have hboth : w.device.Inv ∧ w.device.Accounted := by
    refine Trace.exec_invariant_of_mem (J := fun w => w.device.Inv ∧ w.device.Accounted)
      (fun s e he s' h hstep => ?_)
      ⟨LoggingDevice.start_inv millis session, LoggingDevice.start_accounted millis session⟩ hrun
    cases e with
    | device e =>
      obtain ⟨d, hd, rfl⟩ := Option.map_eq_some_iff.mp hstep
      have he : e.Opens := hopens _ he
      exact ⟨h.1.step he.savesEvents hd, h.2.step h.1.toKept he hd⟩
    | handle i now inserted =>
      obtain ⟨m, -, rfl⟩ := Option.map_eq_some_iff.mp hstep
      exact h
  exact hboth.2

include hmemory hprints in
/-- Whatever happens to the device and however its messages arrive: every message that is handled with
    a successful insert is stored as one document, which shows a stretch of the recorded events as they
    were recorded. -/
theorem stored_exactly (hsaves : ∀ e ∈ events, e.SavesEvents)
    (hrun : Trace.exec (DiagnosticDelivery.step env) (start millis session) events = some w) :
    List.Forall₂ (Stored w.device) w.inserted w.logs :=
  (run_inv hmemory hprints hsaves hrun).stored

/-! ## What can be lost -/

theorem exists_of_forall₂ {α β : Type} {R : α → β → Prop} {l : List α} {l' : List β}
    (h : List.Forall₂ R l l')
    {a : α} (ha : a ∈ l) : ∃ b ∈ l', R a b := by
  induction h with
  | nil => cases ha
  | @cons c b l l' hR _ ih =>
    rcases List.mem_cons.mp ha with rfl | ha
    · exact ⟨b, List.mem_cons_self, hR⟩
    · obtain ⟨b', hb', hR'⟩ := ih ha
      exact ⟨b', List.mem_cons_of_mem _ hb', hR'⟩

/-- Two plain texts with the same bytes are the same. -/
theorem ofAscii_injective {s t : String} (hs : s.toList.all JsonText.plain = true)
    (ht : t.toList.all JsonText.plain = true) (h : CString.ofAscii s = CString.ofAscii t) : s = t := by
  have hchars : asciiChars (CString.ofAscii s) = asciiChars (CString.ofAscii t) := congrArg asciiChars h
  have hs' : asciiChars (CString.ofAscii s) = s.toList := asciiChars_ofBytes (all_printable_of_plain hs)
  have ht' : asciiChars (CString.ofAscii t) = t.toList := asciiChars_ofBytes (all_printable_of_plain ht)
  rw [hs', ht'] at hchars
  exact String.toList_inj.mp hchars

/-- Two events with the same entry in the log are stored alike. -/
theorem storedEvent_congr {e e' : UInt32 × DiagnosticEvent} (h : e.2.entry e.1 = e'.2.entry e'.1) :
    storedEvent e = storedEvent e' := by
  have hts : e.1 = e'.1 := congrArg DiagnosticEntry.ts h
  have hlevel : e.2.level.toByte = e'.2.level.toByte := congrArg DiagnosticEntry.level h
  have hlevelName : e.2.levelName = e'.2.levelName := by
    unfold DiagnosticEvent.levelName
    cases hl : e.2.level <;> cases hl' : e'.2.level <;> first | rfl | (rw [hl, hl'] at hlevel; cases hlevel)
  have hevent : e.2.event = e'.2.event := by
    apply ofAscii_injective (DiagnosticEvent.plain_event _) (DiagnosticEvent.plain_event _)
    rw [← DiagnosticEvent.entry_event e.1, ← DiagnosticEvent.entry_event e'.1, h]
  have htext : e.2.text = e'.2.text := by
    have hnone : e.2.text.isNone = e'.2.text.isNone := by
      have hempty : (e.2.entry e.1).message.isEmpty = (e'.2.entry e'.1).message.isEmpty := by rw [h]
      rwa [DiagnosticEvent.entry_isEmpty, DiagnosticEvent.entry_isEmpty, DiagnosticEvent.message_eq,
        DiagnosticEvent.message_eq, Option.isNone_map, Option.isNone_map] at hempty
    have hmessage := congrArg DiagnosticEntry.message h
    rw [DiagnosticEvent.entry_message, DiagnosticEvent.entry_message, DiagnosticEvent.message_eq,
      DiagnosticEvent.message_eq] at hmessage
    cases ht : e.2.text with
    | none =>
      rw [ht] at hnone
      exact (Option.isNone_iff_eq_none.mp hnone.symm).symm
    | some t =>
      cases ht' : e'.2.text with
      | none =>
        rw [ht, ht'] at hnone
        cases hnone
      | some t' =>
        rw [ht, ht'] at hmessage
        exact congrArg some (ofAscii_injective (DiagnosticEvent.plain_text ht)
          (DiagnosticEvent.plain_text ht')
          hmessage)
  rw [storedEvent, storedEvent, hts, hlevelName, hevent, htext]

include hmemory hprints in
/-- While NVS works, and if every message whose publish succeeded is inserted at least once, each of
    the latest 32 events of the device is still in its log or is stored. -/
theorem latest_stored (hopens : ∀ e ∈ events, e.Opens)
    (hrun : Trace.exec (DiagnosticDelivery.step env) (start millis session) events = some w)
    (harrive : ∀ i m, w.device.messages[i]? = some m → m.published = true → i ∈ w.inserted)
    {e : UInt32 × DiagnosticEvent} (he : e ∈ w.device.recorded.drop (w.device.recorded.length - 32)) :
    e.2.entry e.1 ∈ w.device.store.log.contents ∨ ∃ log ∈ w.logs, storedEvent e ∈ log.entries := by
  have hstored := (run_inv hmemory hprints (fun e he => (hopens e he).savesEvents) hrun).stored
  have hrecent := (run_accounted hopens hrun).ledger.recent
  rw [DiagnosticEvent.entries, List.length_map, ← List.map_drop] at hrecent
  rcases List.mem_append.mp (hrecent.subset (List.mem_map_of_mem he)) with hconfirmed | hlog
  · obtain ⟨batch, hbatch, hentry⟩ := List.mem_flatten.mp hconfirmed
    obtain ⟨m, hm, rfl⟩ := List.mem_map.mp hbatch
    obtain ⟨hm, hpublished⟩ := List.mem_filter.mp hm
    obtain ⟨i, hi⟩ := List.mem_iff_getElem?.mp hm
    obtain ⟨log, hlog, m', es, now, hm', -, hes, rfl⟩ :=
      exists_of_forall₂ hstored (harrive i m hi hpublished)
    obtain rfl := Option.some.inj (hi.symm.trans hm')
    rw [hes] at hentry
    obtain ⟨e', he', heq⟩ := List.mem_map.mp hentry
    exact .inr ⟨_, hlog, storedEvent_congr heq ▸ List.mem_map_of_mem he'⟩
  · exact .inl hlog

end Run

/-! ## A run -/

/-- A run of the device alone. -/
theorem device_run (env : Setting) (w : World) (es : List LoggingDevice.Event) :
    Trace.exec (step env) w (es.map .device) =
      (Trace.exec (LoggingDevice.step env.lib) w.device es).map fun device =>
        { w with device := device } := by
  induction es generalizing w with
  | nil => rfl
  | cons e es ih =>
    rw [List.map_cons, Trace.exec_cons, Trace.exec_cons, step]
    cases w.device.step env.lib e with
    | none => rfl
    | some d => exact ih { w with device := d }

def sampleSetting : Setting := ⟨.ofDocuments [], JsonMemory.reference, referenceText, .exact⟩

/-- Two batches are published. The first insert of the first one fails, and it arrives again after
    the second one. -/
def sampleEvents (removed : Bool) : List Event :=
  (LoggingDevice.lateStarts removed).map .device ++
    [.handle 0 5000 false, .handle 1 6000 true, .handle 0 7000 true]

theorem sampleEvents_opens (removed : Bool) :
    ∀ e ∈ sampleEvents removed, e.SavesEvents ∧ (removed → e.Opens) := by
  intro e he
  rcases List.mem_append.mp he with he | he
  · obtain ⟨e', he', rfl⟩ := List.mem_map.mp he
    exact LoggingDevice.lateStarts_opens removed e' he'
  · simp only [List.mem_cons, List.not_mem_nil, or_false] at he
    rcases he with rfl | rfl | rfl
    · exact ⟨trivial, fun _ => trivial⟩
    · exact ⟨trivial, fun _ => trivial⟩
    · exact ⟨trivial, fun _ => trivial⟩

theorem sampleEvents_run (removed : Bool) :
    ∃ w, Trace.exec (step sampleSetting) (start 0 .down) (sampleEvents removed) = some w ∧
      w.inserted = [1, 0] ∧ w.device.recorded.length = 4 ∧
      w.device.messages.map (·.batch.length) = [2, if removed then 2 else 4] := by
  obtain ⟨d, hrun, hd⟩ := Option.map_eq_some_iff.mp (LoggingDevice.lateStarts_messages removed)
  have hrecorded := congrArg (fun r => r.1.length) hd
  have hmessages := congrArg (fun r => r.2.map (·.1)) hd
  rw [List.length_map] at hrecorded
  rw [List.map_map] at hmessages
  have hlen : d.messages.length = 2 := by
    have := congrArg List.length hmessages
    rwa [List.length_map] at this
  have hdevice : Trace.exec (step sampleSetting) (start 0 .down)
      ((LoggingDevice.lateStarts removed).map .device) = some { start 0 .down with device := d } :=
    (device_run _ _ _).trans (congrArg (Option.map _) hrun)
  obtain ⟨first, second, hpair⟩ := List.length_eq_two.mp hlen
  rw [sampleEvents, Trace.exec_append, hdevice, Option.bind_some]
  simp only [Trace.exec_cons, step, hpair, List.getElem?_cons_zero, List.getElem?_cons_succ,
    Option.map_some,
    Option.bind_some]
  exact ⟨_, rfl, rfl, hrecorded, hmessages⟩

theorem stored_exactly_sampleEvents :
    ∃ w, Trace.exec (step sampleSetting) (start 0 .down) (sampleEvents false) = some w ∧
      w.inserted = [1, 0] ∧ w.device.messages.map (·.batch.length) = [2, 4] ∧
      List.Forall₂ (Stored w.device) w.inserted w.logs := by
  obtain ⟨w, hrun, hinserted, -, hmessages⟩ := sampleEvents_run false
  refine ⟨w, hrun, hinserted, hmessages, ?_⟩
  exact stored_exactly JsonMemory.reference_lawful referenceText_prints
    (fun e he => (sampleEvents_opens false e he).1) hrun

theorem latest_stored_sampleEvents :
    ∃ w, Trace.exec (step sampleSetting) (start 0 .down) (sampleEvents true) = some w ∧
      w.device.recorded.length = 4 ∧ ∀ e ∈ w.device.recorded,
        e.2.entry e.1 ∈ w.device.store.log.contents ∨ ∃ log ∈ w.logs, storedEvent e ∈ log.entries := by
  obtain ⟨w, hrun, hinserted, hrecorded, hmessages⟩ := sampleEvents_run true
  have hlen : w.device.messages.length = 2 := by
    have := congrArg List.length hmessages
    rwa [List.length_map] at this
  refine ⟨w, hrun, hrecorded, fun e he => ?_⟩
  refine latest_stored JsonMemory.reference_lawful referenceText_prints
    (fun e he => (sampleEvents_opens true e he).2 rfl) hrun (fun i m hm _ => ?_) ?_
  · have hi := (List.getElem?_eq_some_iff.mp hm).1
    rw [hinserted, List.mem_pair]
    omega
  · rw [hrecorded]
    exact he

end DiagnosticDelivery

end ParkingGate
