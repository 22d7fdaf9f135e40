-- SUMMARY: Two results about every run of the main loop: modem calls go to the instance that is owned, and MQTT failures always escalate.
import ParkingGate.Firmware.LoopPhases

/-!
# Safety of the main loop

Both theorems are about runs from `setup()` with arbitrary answers of the clock, the modem,
the network and the out-of-band server, restarts included. They read off what the
invariant of the phases says.
-/

namespace Firmware

open Config

namespace LoopWorld

/-- The device states in which PPP is up. -/
def UsesPpp (w : LoopWorld) : Prop :=
  w.main.deviceState = .pppUp ∨ w.main.deviceState = .mqttConnecting ∨
    w.main.deviceState = .mqttConnected

/-- The device states in which the MQTT manager uses its pointer. -/
def UsesMqtt (w : LoopWorld) : Prop :=
  w.main.deviceState = .mqttConnecting ∨ w.main.deviceState = .mqttConnected

/-- Every call so far was made on the instance owned at that moment and not through a null
    pointer; while PPP is used it is up and the instance exists, and while MQTT is used its
    pointer is that instance. -/
structure HandlesCurrent (w : LoopWorld) : Prop where
  calls : ∀ c ∈ w.calls, c.through.isSome ∧ c.through = c.owned
  ppp : w.UsesPpp → w.main.ppp.pppUp = true ∧ w.main.ppp.pppStarting = false ∧
    w.main.ppp.tinyGsmModem.isSome
  mqtt : w.UsesMqtt → w.mqtt.modem = w.main.ppp.tinyGsmModem

theorem Inv.handlesCurrent {w : LoopWorld} (h : w.Inv) : w.HandlesCurrent := by
  refine ⟨fun c hc => ⟨(h.calls c hc).notNull, (h.calls c hc).current⟩, fun huse => ?_, fun huse => ?_⟩
  · cases h.phase with
    | modemInit hphase | pppConnecting hphase =>
      simp [UsesPpp, hphase.state] at huse
    | pppUp hphase | mqttConnecting hphase | mqttConnected hphase =>
      exact ⟨hphase.up.pppUp, hphase.up.pppStarting, hphase.up.modem⟩
  · cases h.phase with
    | modemInit hphase | pppConnecting hphase | pppUp hphase =>
      simp [UsesMqtt, hphase.state] at huse
    | mqttConnecting hphase | mqttConnected hphase => exact hphase.linked

/-- The invariant along every run. -/
theorem inv_run (lib : ArduinoJson) (millis : UInt32) (session : MqttSession)
    (run : List Answers) : Trace.AllStates (step lib) Inv (boot millis session []) run := by
  refine Trace.allStates_of_allSteps (C := fun _ _ => True) ?_ ?_ Trace.allSteps_true
  · rintro w ans w' h - hstep
    obtain rfl := Option.some.inj hstep
    exact h.iterate lib ans
  · exact boot_inv millis session fun c hc => absurd hc List.not_mem_nil

/-- No stale modem handle is ever used. -/
theorem handles_current (lib : ArduinoJson) (millis : UInt32) (session : MqttSession)
    (run : List Answers) :
    Trace.AllStates (step lib) HandlesCurrent (boot millis session []) run :=
  (inv_run lib millis session run).mono fun _ h => h.handlesCurrent

/-! ## Escalation -/

/-- The streak is within its threshold, no attempt to connect to the broker was made at the
    threshold, and an iteration that finds it there in STATE_MQTT_CONNECTING stops PPP,
    clears the streak and goes to STATE_PPP_CONNECTING instead. -/
structure Escalates (lib : ArduinoJson) (w : LoopWorld) : Prop where
  streak : w.mqtt.mqttFailStreak ≤ mqttFailsBeforePppRebuild
  calls : ∀ c ∈ w.calls, c.mqttFailStreak ≤ mqttFailsBeforePppRebuild
  attempts : ∀ c ∈ w.calls, c.method = .mqttConnect → c.mqttFailStreak ≠ mqttFailsBeforePppRebuild
  next : w.main.deviceState = .mqttConnecting → w.mqtt.mqttFailStreak = mqttFailsBeforePppRebuild →
    ∀ ans, (w.iterate lib ans).main.ppp = w.main.ppp.stop ∧
      (w.iterate lib ans).main.deviceState = .pppConnecting ∧
      (w.iterate lib ans).mqtt.mqttFailStreak = 0 ∧
      (w.iterate lib ans).attempts = w.attempts

/-- Outside STATE_MQTT_CONNECTED an iteration goes straight to the switch. -/
theorem loop_run_of_state (lib : ArduinoJson) (ans : Answers) {w : LoopWorld}
    (h : w.main.deviceState ≠ .mqttConnected) :
    (MainLoop.loop lib ans).run w =
      (MainLoop.runState ans (ans.millis w.reads) w.main.deviceState).run
        { w with reads := w.reads + 1 } := by
  have hrun : (MainLoop.loop lib ans).run w =
      ((if w.main.deviceState = .mqttConnected then MqttManager.loop lib ans else pure ()) >>=
        fun _ => get >>= fun s => MainLoop.runState ans (ans.millis w.reads) s.main.deviceState).run
        { w with reads := w.reads + 1 } := rfl
  rw [hrun, if_neg h]
  rfl

/-- The iteration in STATE_MQTT_CONNECTING is its case of the switch. -/
theorem loop_run_connecting (lib : ArduinoJson) (ans : Answers) {w : LoopWorld}
    (h : w.main.deviceState = .mqttConnecting) :
    (MainLoop.loop lib ans).run { w with reads := 0, answered := 0 } =
      (MainLoop.mqttConnecting ans (ans.millis 0)).run { w with reads := 1, answered := 0 } := by
  have hrun := loop_run_of_state lib ans (w := { w with reads := 0, answered := 0 }) (by simp [h])
  rw [hrun]
  simp only [h]
  rfl

/-- An iteration in STATE_MQTT_CONNECTING at the threshold rebuilds PPP. -/
theorem Inv.iterate_of_threshold {w : LoopWorld} (h : w.Inv) (lib : ArduinoJson) (ans : Answers)
    (hstate : w.main.deviceState = .mqttConnecting)
    (hstreak : w.mqtt.mqttFailStreak = mqttFailsBeforePppRebuild) :
    MainLoop.Rebuilt { w with reads := 1, answered := 0 } (ans.millis 0) (w.iterate lib ans) := by
  let w₁ : LoopWorld := { w with reads := 1, answered := 0 }
  have hserving : w₁.Serving := (MainLoop.inv_counters h 1 0).serving hstate
  have hrun : (MainLoop.loop lib ans).run { w with reads := 0, answered := 0 } =
      (MainLoop.rebuildPpp ans (ans.millis 0)).run w₁ := by
    have hrebuild : w.mqtt.shouldRebuildPpp = true := by
      rw [MqttManager.shouldRebuildPpp, hstreak]
      decide
    have hcase : (MainLoop.mqttConnecting ans (ans.millis 0)).run w₁ =
        (if ans.millis 0 - w.main.stateEntryTime > mqttConnectingMaxMs then
            MainLoop.rebuildPpp ans (ans.millis 0)
          else if w.mqtt.shouldRebuildPpp then MainLoop.rebuildPpp ans (ans.millis 0)
          else _ : LoopM Unit).run w₁ := rfl
    rw [loop_run_connecting lib ans hstate, hcase, if_pos hrebuild, ite_self]
  have hrebuilt := MainLoop.rebuildPpp_spec ans (ans.millis 0) hserving w₁ rfl
  have hiterate : w.iterate lib ans = ((MainLoop.rebuildPpp ans (ans.millis 0)).run w₁).2 := by
    simp only [LoopWorld.iterate, hrun, hrebuilt.running, Bool.false_eq_true, if_false]
  rw [hiterate]
  exact hrebuilt

theorem Inv.escalates {w : LoopWorld} (h : w.Inv) (lib : ArduinoJson) : w.Escalates lib := by
  refine ⟨?_, fun c hc => (h.calls c hc).streak, fun c hc hmethod => ?_, fun hstate hstreak ans => ?_⟩
  · cases h.phase with
    | modemInit hphase | pppConnecting hphase | pppUp hphase =>
      rw [hphase.streak]
      decide
    | mqttConnecting hphase => exact hphase.streak
    | mqttConnected hphase => exact UInt8.le_of_lt hphase.streak
  · exact UInt8.ne_of_lt ((h.calls c hc).attempt hmethod)
  · have hrebuilt := h.iterate_of_threshold lib ans hstate hstreak
    rw [hrebuilt.main]
    exact ⟨rfl, rfl, hrebuilt.streak, hrebuilt.attempts⟩

/-- MQTT failures always escalate. -/
theorem mqtt_failures_escalate (lib : ArduinoJson) (millis : UInt32) (session : MqttSession)
    (run : List Answers) :
    Trace.AllStates (step lib) (Escalates lib) (boot millis session []) run :=
  (inv_run lib millis session run).mono fun _ h => h.escalates lib

/-- Each failure counts as one: an attempt without an instance, one that brings up no session, one
    that cannot subscribe, and the loss of a session that `loop` finds. -/
theorem failures_counted (lib : ArduinoJson) (ans : Answers) (w : LoopWorld) :
    (((MqttManager.attemptConnection ans).run w).1 = false →
      ((MqttManager.attemptConnection ans).run w).2.mqtt.mqttFailStreak = w.mqtt.mqttFailStreak + 1) ∧
    (w.mqtt.connected = true → ((MqttManager.loop lib ans).run w).2.mqtt.connected = false →
      ((MqttManager.loop lib ans).run w).2.mqtt.mqttFailStreak = w.mqtt.mqttFailStreak + 1) := by
  refine ⟨fun hfailed => ?_, fun hup hdown => ?_⟩
  · have htried := MqttManager.attemptConnection_spec ans w (.of_undisturbed (.refl w))
    rw [htried.counted, hfailed]
    rfl
  · rcases MqttManager.loop_calls ans lib w rfl with hcalls | ⟨w₁, hcalls, hw⟩
    · rw [hcalls.mqtt] at hdown
      exact absurd (hup.symm.trans hdown) Bool.noConfusion
    · rw [hw]
      exact congrArg (·.mqttFailStreak + 1) hcalls.mqtt

/-- Everything succeeds at once, at the time `t`. -/
def willing (t : UInt32) : Answers where
  millis := fun _ => t
  drops := fun _ => false
  modemInit := true
  pppStart := t
  pppWait := ⟨t, .okHome, true, true, "10.0.0.1"⟩
  mqttConnect := (true, .opened)
  mqttSubscribe := true
  mqttDisconnect := true
  mqttPublish := fun _ => true
  mqttHandle := []
  httpsSetUrl := true
  httpsGet := 204
  diagnosticBatches := 0
  bootMillis := 0

/-- From `setup()` to STATE_MQTT_CONNECTED. -/
def startUp : List Answers :=
  [1000, 1010, 2100, 2110, 2120, 2130, 2140, 3200, 4200, 5200, 5300].map willing

/-- The broker refuses, does not take the subscription, and refuses again. -/
def refusals : List Answers :=
  startUp.take 10 ++
    [{ willing 6000 with mqttConnect := (false, .kept) }, { willing 8000 with mqttSubscribe := false },
      { willing 13000 with mqttConnect := (false, .kept) }]

/-- They reach the threshold, and with the next iteration PPP is rebuilt. -/
example :
    (Trace.exec (step (.ofDocuments [])) (boot 0 .down []) refusals).map
        (fun w => (w.main.deviceState, w.mqtt.mqttFailStreak)) =
      some (.mqttConnecting, mqttFailsBeforePppRebuild) ∧
    (Trace.exec (step (.ofDocuments [])) (boot 0 .down []) (refusals ++ [willing 20000])).map
        (fun w => (w.main.deviceState, w.mqtt.mqttFailStreak)) = some (.pppConnecting, 0) := by
  decide +kernel

end LoopWorld

end Firmware
