-- SUMMARY: The device with its diagnostic log: what the main loop records and uploads in an iteration, and runs with restarts and power cuts.
import ParkingGate.Firmware.DiagnosticEvents
import ParkingGate.Firmware.DiagnosticUpload
import ParkingGate.Firmware.Listening
import ParkingGate.Firmware.OobPoll

/-!
# The device with its log

`MainLoop` leaves the diagnostic log out but for the number of its batches. Here the log is
put back: the events that each case of the switch records, the upload after a connect, and
the reload from NVS at every start. NVS may refuse to open, in any save and in any load; the
power is cut between two iterations.

What was recorded and what was published is kept beside the state, to be reasoned about.
-/

namespace Firmware

open Config DiagnosticUpload MqttManager

/-! ## What an iteration records -/

namespace MainLoop

/-- The clock and the world that the switch begins with. -/
def atSwitch (lib : ArduinoJson) (ans : Answers) (w : LoopWorld) : UInt32 × LoopWorld :=
  let read := (millis ans).run { w with reads := 0, answered := 0 }
  (read.1, ((processMessages lib ans).run read.2).2)

/-- An expired window of STATE_PPP_CONNECTING: the streak is read after `stop`. -/
def modemResetEvents (w : LoopWorld) (it : PppIteration) : List DiagnosticEvent :=
  let polled := (w.main.startPpp it).poll it
  let ppp := polled.2.ppp.stop
  if !polled.1 && (it.now - polled.2.stateEntryTime > pppTimeoutMs && ppp.shouldHardReset) then
    [.modemReset ppp.pppFailStreak]
  else []

/-- The calls of `diagnosticLog.append` in the case of the switch, in order. -/
def recordedEvents (ans : Answers) (now : UInt32) (w : LoopWorld) : List DiagnosticEvent :=
  match w.main.deviceState with
  | .modemInit =>
    if ans.modemInit then []
    else if now - w.main.stateEntryTime > atInitTimeoutMs then
      if h : w.modemInitRetries < modemInitMaxRetries then [.initRetry ⟨w.modemInitRetries, h⟩]
      else [.backoff]
    else []
  | .pppConnecting => modemResetEvents w ⟨now, ans.pppStart, ans.pppWait⟩
  | .pppUp => []
  | .mqttConnecting =>
    if now - w.main.stateEntryTime > mqttConnectingMaxMs then
      [.mqttStuck (now - w.main.stateEntryTime), .pppRebuildStuck]
    else if w.mqtt.shouldRebuildPpp then [.pppRebuild w.mqtt.mqttFailStreak]
    else if ((connect ans).run w).1 then [.connectionRestored]
    else []
  | .mqttConnected =>
    let polled := (pollOob ans now).run w
    if polled.1 then [if ans.httpsGet = 205 then .oobReboot else .oobPppRebuild]
    else
      let reported := (publishStatus ans).run polled.2
      if ((isConnected ans).run reported.2).1 then [] else [.connectionLost]

/-- The world in which the upload begins: connected, with the command callback set. -/
def connected (ans : Answers) (w : LoopWorld) : LoopWorld :=
  ((modifyMqtt fun m => { m with commandCallback := true }).run ((connect ans).run w).2).2

/-- The world after so many calls of `publish`. -/
def published (ans : Answers) (w : LoopWorld) : Nat → LoopWorld
  | 0     => w
  | k + 1 => ((publish ans).run (published ans w k)).2

end MainLoop

/-! ## The device -/

/-- A batch that was handed to `publish`, and what `publish` returned. -/
structure DiagnosticMessage where
  sessionId : UInt32
  batch : List DiagnosticEntry
  published : Bool

structure LoggingDevice where
  world : LoopWorld
  store : DiagnosticStore
  bootSessionId : UInt32
  /-- Every event since the log was new, with its time. -/
  recorded : List (UInt32 × DiagnosticEvent)
  /-- Every batch since then. -/
  messages : List DiagnosticMessage

/-- What the environment decides for the log in one iteration. -/
structure LogAnswers where
  /-- The clock in `append`, for the event of that number. -/
  millis : Nat → UInt32
  /-- The answer of `prefs.begin` when that event is saved. -/
  appendOpened : Nat → Bool
  /-- `millis() + random(0xFFFF)`. -/
  sessionId : UInt32
  /-- The answer of `prefs.begin` when the batch of that round of the upload is removed. -/
  removeOpened : Nat → Bool
  /-- The answer of `prefs.begin` in `load`, and its uninitialised buffer, should the iteration
      restart the device. -/
  loadOpened : Bool
  tmp : Vector DiagnosticEntry diagnosticLogMaxEntries

namespace LoggingDevice

open MainLoop

/-- `diagnosticLog.append` -/
def record (log : LogAnswers) (d : LoggingDevice) (e : DiagnosticEvent) : Option LoggingDevice :=
  let ts := log.millis d.recorded.length
  let opened := log.appendOpened d.recorded.length
  (d.store.step (.append opened ts e.level (some (CString.ofAscii e.event)) e.message)).map fun store =>
    { d with store := store, recorded := d.recorded ++ [(ts, e)] }

/-- What happens outside in one round of the upload that begins in the world `w`. -/
def roundAnswer (ans : Answers) (log : LogAnswers) (w : LoopWorld) (k : Nat) : Answer where
  published := ((publish ans).run (published ans w k)).1
  opened := log.removeOpened k

/-- The upload in STATE_MQTT_CONNECTING, which begins in the world `w`. -/
def upload (ans : Answers) (log : LogAnswers) (w : LoopWorld) (d : LoggingDevice) : Option LoggingDevice :=
  if d.store.log.hasEntries then
    let bootSessionId := if d.bootSessionId = 0 then log.sessionId else d.bootSessionId
    (uploadLoop (roundAnswer ans log w) (diagnosticLogMaxEntries + 1) 0 d.store).map fun u =>
      { d with
        store := u.store
        bootSessionId := bootSessionId
        messages := d.messages ++ u.attempts.map fun a => ⟨bootSessionId, a.batch, a.sent⟩ }
  else some d

/-- A start of the device: the log is loaded. -/
def reload (d : LoggingDevice) (opened : Bool) (tmp : Vector DiagnosticEntry diagnosticLogMaxEntries) :
    LoggingDevice :=
  { d with store := ⟨DiagnosticLog.load d.store.nvs opened tmp, d.store.nvs⟩, bootSessionId := 0 }

/-- The batches that a log fills. -/
def batchCount (d : LoggingDevice) : Nat := (d.store.log.count + 9) / batchSize

/-- The rest of the iteration, which leaves the log alone. -/
def advance (lib : ArduinoJson) (ans : Answers) (log : LogAnswers) (d : LoggingDevice) : LoggingDevice :=
  let d' := { d with world := d.world.iterate lib ans }
  if OobPoll.restarts lib d.world ans then d'.reload log.loadOpened log.tmp else d'

/-- One iteration of `loop()`; `none` is an access outside an array. -/
def iterate (lib : ArduinoJson) (ans : Answers) (log : LogAnswers) (d : LoggingDevice) :
    Option LoggingDevice :=
  let now := (atSwitch lib ans d.world).1
  let w := (atSwitch lib ans d.world).2
  let events := recordedEvents ans now w
  (Trace.exec (record log) d events).bind fun d' =>
    let ans' := { ans with diagnosticBatches := d'.batchCount }
    if .connectionRestored ∈ events then
      (d'.upload ans log (connected ans w)).map (advance lib ans' log)
    else some (d'.advance lib ans' log)

inductive Event where
  | iterate (ans : Answers) (log : LogAnswers)
  /-- The power comes back; the modem has lost its session or not. -/
  | powerCut (millis : UInt32) (session : MqttSession) (opened : Bool)
      (tmp : Vector DiagnosticEntry diagnosticLogMaxEntries)

/-- A new device. -/
def start (millis : UInt32) (session : MqttSession) : LoggingDevice where
  world := LoopWorld.boot millis session []
  store := DiagnosticStore.fresh
  bootSessionId := 0
  recorded := []
  messages := []

def step (lib : ArduinoJson) (d : LoggingDevice) : Event → Option LoggingDevice
  | .iterate ans log => d.iterate lib ans log
  | .powerCut millis session opened tmp =>
    some { d.reload opened tmp with world := LoopWorld.boot millis session d.world.calls }

/-! ## The main loop under it -/

theorem uploadDiagnostics_succ (ans : Answers) (n : Nat) (w : LoopWorld) :
    ((uploadDiagnostics ans (n + 1)).run w).2 =
      if ((publish ans).run w).1 then ((uploadDiagnostics ans n).run ((publish ans).run w).2).2
      else ((publish ans).run w).2 := by
  show (StateT.run (if ((publish ans).run w).1 = true then uploadDiagnostics ans n else pure ()) _).2 = _
  split
  · rfl
  · rfl

/-- The upload of the main loop publishes once for each batch that was tried. -/
theorem uploadDiagnostics_eq (ans : Answers) (log : LogAnswers) (w : LoopWorld) {fuel k n : Nat}
    {s : DiagnosticStore} {u : Upload}
    (hs : s.log.count ≤ diagnosticLogMaxEntries) (hn : n = (s.log.count + 9) / batchSize)
    (h : uploadLoop (roundAnswer ans log w) fuel k s = some u) :
    ((uploadDiagnostics ans n).run (published ans w k)).2 = published ans w (k + u.attempts.length) := by
  induction fuel generalizing k n s u with
  | zero => cases h
  | succ fuel ih =>
    cases hentries : s.log.hasEntries with
    | false =>
      obtain rfl := Option.some.inj ((uploadLoop_of_empty _ fuel k hentries).symm.trans h)
      have hzero : s.log.count = 0 := by simpa [DiagnosticLog.hasEntries] using hentries
      rw [hn, hzero]
      rfl
    | true =>
      have hcount : 0 < s.log.count := by simpa [DiagnosticLog.hasEntries] using hentries
      obtain ⟨n, rfl⟩ : ∃ m, n = m + 1 := ⟨n - 1, by rw [hn, batchSize]; omega⟩
      rw [uploadDiagnostics_succ]
      cases hpub : ((publish ans).run (published ans w k)).1 with
      | false =>
        obtain rfl := Option.some.inj ((uploadLoop_of_failed fuel hentries hpub).symm.trans h)
        rfl
      | true =>
        have hpub' : (roundAnswer ans log w k).published = true := hpub
        obtain ⟨s', hs', hdrop, hloop⟩ := uploadLoop_of_published fuel hs hentries hpub'
        obtain ⟨u', hu', rfl⟩ := Option.map_eq_some_iff.mp (hloop.symm.trans h)
        have hlen := congrArg List.length hdrop
        rw [DiagnosticLog.length_contents, List.length_drop, DiagnosticLog.length_contents] at hlen
        have hrest := ih (n := n) hs' (by rw [hlen, batchSize] at *; omega) hu'
        rw [if_pos rfl, List.length_cons, ← Nat.add_assoc, Nat.add_right_comm]
        exact hrest

theorem uploadDiagnostics_congr (ans : Answers) (batches n : Nat) :
    uploadDiagnostics { ans with diagnosticBatches := batches } n = uploadDiagnostics ans n := by
  induction n with
  | zero => rfl
  | succ n ih =>
    rw [uploadDiagnostics, ih]
    rfl

/-- When the device has connected, the case of STATE_MQTT_CONNECTING goes through the publishes of
    the log, no more and no fewer. -/
theorem mqttConnecting_upload {ans : Answers} {log : LogAnswers} {now : UInt32} {w : LoopWorld}
    {fuel : Nat} {s : DiagnosticStore} {u : Upload} (hs : s.log.count ≤ diagnosticLogMaxEntries)
    (hstate : w.main.deviceState = .mqttConnecting)
    (hrestored : .connectionRestored ∈ recordedEvents ans now w)
    (h : uploadLoop (roundAnswer ans log (connected ans w)) fuel 0 s = some u) :
    ((mqttConnecting { ans with diagnosticBatches := (s.log.count + 9) / batchSize } now).run w).2 =
      { published ans (connected ans w) u.attempts.length with
        main := (published ans (connected ans w) u.attempts.length).main.enter .mqttConnected now } := by
  unfold recordedEvents at hrestored
  rw [hstate] at hrestored
  dsimp only at hrestored
  split at hrestored
  · simp at hrestored
  rename_i hstuck
  split at hrestored
  · simp at hrestored
  rename_i hrebuild
  split at hrestored
  swap
  · cases hrestored
  rename_i hconnect
  have huploaded := uploadDiagnostics_eq ans log (connected ans w) hs rfl h
  rw [Nat.zero_add] at huploaded
  have hcase : ((mqttConnecting { ans with diagnosticBatches := (s.log.count + 9) / batchSize }
      now).run w).2 =
      ((modifyMain fun m => m.enter .mqttConnected now).run
        ((uploadDiagnostics ans ((s.log.count + 9) / batchSize)).run (connected ans w)).2).2 := by
    let ans' := { ans with diagnosticBatches := (s.log.count + 9) / batchSize }
    let rest : LoopM Unit := do
      modifyMqtt fun m => { m with commandCallback := true }
      uploadDiagnostics ans' ans'.diagnosticBatches
      modifyMain fun m => m.enter .mqttConnected now
    show (StateT.run (if now - w.main.stateEntryTime > mqttConnectingMaxMs then rebuildPpp ans' now
      else if w.mqtt.shouldRebuildPpp then rebuildPpp ans' now
      else (do if ← connect ans' then rest else return ())) w).2 = _
    rw [if_neg hstuck, if_neg hrebuild]
    show (StateT.run (if ((connect ans).run w).1 = true then rest else pure ())
      ((connect ans).run w).2).2 = _
    rw [if_pos hconnect]
    show ((modifyMain fun m => m.enter .mqttConnected now).run
      ((uploadDiagnostics ans' ((s.log.count + 9) / batchSize)).run (connected ans w)).2).2 = _
    rw [uploadDiagnostics_congr]
  rw [hcase]
  show _ = ((modifyMain fun m => m.enter .mqttConnected now).run (published ans (connected ans w) _)).2
  rw [← huploaded]
  rfl

/-! ## An iteration in its parts -/

/-- Events are recorded, the log is perhaps uploaded, and the rest of the iteration follows. -/
theorem iterate_cases {lib : ArduinoJson} {ans : Answers} {log : LogAnswers} {d d' : LoggingDevice}
    (hstep : d.iterate lib ans log = some d') :
    ∃ d₁ d₂ ans', Trace.exec (LoggingDevice.record log) d
        (recordedEvents ans (atSwitch lib ans d.world).1 (atSwitch lib ans d.world).2) = some d₁ ∧
      (d₂ = d₁ ∨ ∃ w, d₁.upload ans log w = some d₂) ∧ d' = d₂.advance lib ans' log := by
  obtain ⟨d₁, hrecord, hrest⟩ := Option.bind_eq_some_iff.mp hstep
  dsimp only at hrest
  split at hrest
  · obtain ⟨d₂, hupload, rfl⟩ := Option.map_eq_some_iff.mp hrest
    exact ⟨d₁, d₂, _, hrecord, .inr ⟨_, hupload⟩, rfl⟩
  · obtain rfl := Option.some.inj hrest
    exact ⟨d₁, d₁, _, hrecord, .inl rfl, rfl⟩

/-! ## What only grows -/

/-- Nothing that was recorded or published is forgotten. -/
structure Grows (d d' : LoggingDevice) : Prop where
  recorded : d.recorded <+: d'.recorded
  messages : d.messages <+: d'.messages

theorem Grows.trans {d d' d'' : LoggingDevice} (h : Grows d d') (h' : Grows d' d'') : Grows d d'' :=
  ⟨h.recorded.trans h'.recorded, h.messages.trans h'.messages⟩

theorem recordAll_grows {d d' : LoggingDevice} {log : LogAnswers} {es : List DiagnosticEvent}
    (hrun : Trace.exec (LoggingDevice.record log) d es = some d') : Grows d d' := by
  refine Trace.exec_invariant (J := Grows d) (fun d₁ e d₂ h hstep => h.trans ?_)
    ⟨List.prefix_rfl, List.prefix_rfl⟩ hrun
  obtain ⟨store, -, rfl⟩ := Option.map_eq_some_iff.mp hstep
  exact ⟨List.prefix_append _ _, List.prefix_rfl⟩

theorem upload_grows {d d' : LoggingDevice} {ans : Answers} {log : LogAnswers} {w : LoopWorld}
    (hupload : d.upload ans log w = some d') : Grows d d' := by
  unfold LoggingDevice.upload at hupload
  split at hupload
  · obtain ⟨u, -, rfl⟩ := Option.map_eq_some_iff.mp hupload
    exact ⟨List.prefix_rfl, List.prefix_append _ _⟩
  · obtain rfl := Option.some.inj hupload
    exact ⟨List.prefix_rfl, List.prefix_rfl⟩

theorem advance_grows (lib : ArduinoJson) (ans : Answers) (log : LogAnswers) (d : LoggingDevice) :
    Grows d (d.advance lib ans log) := by
  unfold LoggingDevice.advance
  dsimp only
  split <;> exact ⟨List.prefix_rfl, List.prefix_rfl⟩

theorem step_grows {lib : ArduinoJson} {d d' : LoggingDevice} {e : Event} (hstep : d.step lib e = some d') :
    Grows d d' := by
  cases e with
  | powerCut millis session opened tmp =>
    obtain rfl := Option.some.inj hstep
    exact ⟨List.prefix_rfl, List.prefix_rfl⟩
  | iterate ans log =>
    obtain ⟨d₁, d₂, ans', hrecord, hupload, rfl⟩ := iterate_cases hstep
    apply (recordAll_grows hrecord).trans
    rcases hupload with rfl | ⟨w, hupload⟩
    · exact advance_grows _ _ _ _
    · exact (upload_grows hupload).trans (advance_grows _ _ _ _)

end LoggingDevice

end Firmware
