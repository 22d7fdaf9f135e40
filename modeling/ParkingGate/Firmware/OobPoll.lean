-- SUMMARY: The out-of-band channel of the firmware: which iterations poll the server, what each answer makes the device do, and that polls are spaced in real time.
import ParkingGate.Base.Clock32
import ParkingGate.Base.Trace
import ParkingGate.Firmware.MainLoop

/-!
# Polling out of band

STATE_MQTT_CONNECTED polls the server on a timer, and the status of the answer is a command: 205
restarts the ESP32, 206 rebuilds PPP, and every other status is none. Nothing else in the loop
restarts the device or touches the timer.

`lastOobPollTime` is zero after a start, which is the clock reading of the start itself, so the
timer counts from the last poll or from the last start, whichever is later.
-/

namespace Firmware

open Config Hoare MqttManager MainLoop

namespace PppManager

variable (p : PppManager)

theorem httpsGet_notMem_stopCalls : .httpsGet ∉ p.stopCalls := by
  unfold stopCalls
  split
  · simp
  · split <;> simp

theorem httpsGet_notMem_waitForPppUpCalls (timeoutMs : UInt32) (a : PppAnswers) :
    .httpsGet ∉ p.waitForPppUpCalls timeoutMs a := by
  unfold waitForPppUpCalls
  split
  · simp
  split
  · simp
  split
  · exact p.httpsGet_notMem_stopCalls
  cases p.connState with
  | waitRegistration => dsimp only; split <;> simp
  | init | waitSim | connected | setApn | activateNetwork | getIp => simp

end PppManager

/-- How often `https_get` has been called. -/
def LoopWorld.fetches (w : LoopWorld) : Nat := w.calls.countP (·.method = .httpsGet)

theorem LoopWorld.fetches_called (w : LoopWorld) (ans : Answers) (method : ModemMethod)
    (this : Option Nat) :
    (w.called ans method this).fetches = w.fetches + if method = .httpsGet then 1 else 0 := by
  simp [fetches, called, List.countP_append, List.countP_cons]

/-- What no method of the MQTT manager changes. -/
structure SameOob (w w' : LoopWorld) : Prop where
  main : w'.main = w.main
  timer : w'.lastOobPollTime = w.lastOobPollTime
  restarting : w'.restarting = w.restarting
  fetches : w'.fetches = w.fetches

/-- A property that only rests on the PPP part of the state and on the out-of-band channel. -/
structure IgnoresMqtt (I : LoopWorld → Prop) : Prop where
  of_same : ∀ {w w' : LoopWorld}, I w → SameOob w w' → I w'

namespace IgnoresMqtt

variable {I : LoopWorld → Prop} (hI : IgnoresMqtt I) (ans : Answers)

include hI

theorem modifyMqtt (f : MqttManager → MqttManager) : Keeps I (Firmware.modifyMqtt f) :=
  Keeps.modify fun _ h => hI.of_same h ⟨rfl, rfl, rfl, rfl⟩

theorem millis : Keeps I (Firmware.millis ans) := fun _ h => hI.of_same h ⟨rfl, rfl, rfl, rfl⟩

theorem call {method : ModemMethod} (hmethod : method ≠ .httpsGet) (this : Option Nat) :
    Keeps I (TinyGsm.call ans method this) :=
  Keeps.modify fun w h => hI.of_same h
    ⟨rfl, rfl, rfl, by rw [LoopWorld.fetches_called, if_neg hmethod, Nat.add_zero]⟩

theorem modifySession (f : LoopWorld → MqttSession) :
    Keeps I (modify fun w => { w with session := f w } : LoopM PUnit) :=
  Keeps.modify fun _ h => hI.of_same h ⟨rfl, rfl, rfl, rfl⟩

theorem pppCalls {methods : List ModemMethod} (hmethods : .httpsGet ∉ methods) :
    Keeps I (MainLoop.pppCalls ans methods) :=
  Keeps.get fun _ _ => Keeps.forM fun _ hmethod =>
    hI.call ans (ne_of_mem_of_not_mem hmethod hmethods) _

theorem pppStopCalls : Keeps I (MainLoop.pppStopCalls ans) :=
  Keeps.get fun w _ => hI.pppCalls ans w.main.ppp.httpsGet_notMem_stopCalls

theorem mqttConnected (this : Option Nat) : Keeps I (TinyGsm.mqttConnected ans this) :=
  Keeps.bind (hI.call ans (by simp) _) fun _ => Keeps.get fun _ _ => Keeps.pure _

theorem mqttConnect (this : Option Nat) : Keeps I (TinyGsm.mqttConnect ans this) :=
  Keeps.bind (hI.call ans (by simp) _) fun _ => Keeps.bind (hI.modifySession _) fun _ => Keeps.pure _

theorem mqttSubscribe (this : Option Nat) : Keeps I (TinyGsm.mqttSubscribe ans this) :=
  Keeps.bind (hI.call ans (by simp) _) fun _ => Keeps.bind (hI.modifySession _) fun _ => Keeps.pure _

theorem mqttDisconnect (this : Option Nat) : Keeps I (TinyGsm.mqttDisconnect ans this) :=
  Keeps.bind (hI.call ans (by simp) _) fun _ => hI.modifySession _

theorem mqttPublish (this : Option Nat) : Keeps I (TinyGsm.mqttPublish ans this) :=
  Keeps.get fun _ _ => Keeps.bind (hI.call ans (by simp) _) fun _ => Keeps.pure _

/-! ## The methods of the MQTT manager -/

theorem setPppManager : Keeps I MqttManager.setPppManager :=
  Keeps.modify fun _ h => hI.of_same h ⟨rfl, rfl, rfl, rfl⟩

theorem initializeModemMqtt : Keeps I (MqttManager.initializeModemMqtt ans) :=
  Keeps.get fun _ _ => Keeps.ite (fun _ => Keeps.pure _) fun _ =>
    Keeps.bind (hI.call ans (by simp) _) fun _ => Keeps.pure _

theorem isConnected : Keeps I (MqttManager.isConnected ans) :=
  Keeps.get fun _ _ => Keeps.ite (fun _ => Keeps.pure _) fun _ =>
    Keeps.ite (fun _ => hI.mqttConnected ans _) fun _ => Keeps.pure _

theorem alreadyConnected : Keeps I (MqttManager.alreadyConnected ans) :=
  Keeps.get fun _ _ => Keeps.ite (fun _ => hI.mqttConnected ans _) fun _ => Keeps.pure _

theorem subscribeToCommands (this : Option Nat) : Keeps I (MqttManager.subscribeToCommands ans this) := by
  refine Keeps.bind (hI.call ans (by simp) _) fun _ => Keeps.bind (hI.mqttSubscribe ans _) fun _ => ?_
  refine Keeps.ite (fun _ => Keeps.bind (hI.modifyMqtt _) fun _ => Keeps.pure _) fun _ => ?_
  exact Keeps.bind (hI.mqttDisconnect ans _) fun _ => Keeps.bind (hI.modifyMqtt _) fun _ => Keeps.pure _

theorem connectionFailed : Keeps I MqttManager.connectionFailed :=
  Keeps.bind (hI.modifyMqtt _) fun _ => Keeps.bind (hI.modifyMqtt _) fun _ => Keeps.pure _

theorem attemptConnection : Keeps I (MqttManager.attemptConnection ans) := by
  have hconfirmed : ∀ this success, Keeps I (confirmed ans this success) := fun this success =>
    Keeps.ite (fun _ => hI.mqttConnected ans this) fun _ => Keeps.pure false
  refine Keeps.get fun w _ => Keeps.ite (fun _ => Keeps.bind (hI.modifyMqtt _) fun _ => Keeps.pure _) ?_
  refine fun _ => Keeps.bind (hI.mqttConnect ans _) fun _ => Keeps.bind (hconfirmed _ _) fun _ => ?_
  exact Keeps.ite (fun _ => hI.subscribeToCommands ans _) fun _ => hI.connectionFailed

theorem connect : Keeps I (MqttManager.connect ans) := by
  refine Keeps.bind (hI.millis ans) fun now => Keeps.bind (hI.alreadyConnected ans) fun _ => ?_
  refine Keeps.ite (fun _ => Keeps.pure _) fun _ => Keeps.get fun _ _ => ?_
  refine Keeps.ite (fun _ => Keeps.pure _) fun _ => ?_
  exact Keeps.bind (hI.modifyMqtt _) fun _ => hI.attemptConnection ans

theorem disconnect : Keeps I (MqttManager.disconnect ans) :=
  Keeps.get fun _ _ => Keeps.ite
    (fun _ => Keeps.bind (hI.mqttDisconnect ans _) fun _ => hI.modifyMqtt _) fun _ => Keeps.pure _

theorem publish : Keeps I (MqttManager.publish ans) :=
  Keeps.bind (hI.isConnected ans) fun _ => Keeps.get fun _ _ =>
    Keeps.ite (fun _ => Keeps.pure _) fun _ => hI.mqttPublish ans _

theorem publishStatus : Keeps I (MqttManager.publishStatus ans) := by
  refine Keeps.bind (hI.isConnected ans) fun _ => Keeps.ite (fun _ => ?_) fun _ => Keeps.pure _
  refine Keeps.bind (hI.millis ans) fun _ => Keeps.get fun _ _ => Keeps.ite (fun _ => Keeps.pure _) ?_
  refine fun _ => Keeps.bind (hI.modifyMqtt _) fun _ => Keeps.bind (hI.publish ans) fun _ => ?_
  exact Keeps.ite (fun _ => Keeps.pure _) fun _ => hI.modifyMqtt _

theorem staticMqttCallback (lib : ArduinoJson) (payload : CString) :
    Keeps I (MqttManager.staticMqttCallback lib ans payload) := by
  have hperform : ∀ effect, Keeps I (perform ans effect) := by
    intro effect
    cases effect with
    | pulse requestId nowMs => exact Keeps.pure _
    | publishAck json => exact Keeps.bind (hI.publish ans) fun _ => Keeps.pure _
  refine Keeps.get fun _ _ => Keeps.ite (fun _ => ?_) fun _ => Keeps.pure _
  refine Keeps.bind (hI.isConnected ans) fun _ => Keeps.bind (hI.millis ans) fun _ => ?_
  refine Keeps.get fun _ _ => Keeps.bind (Keeps.modify fun _ h => hI.of_same h ⟨rfl, rfl, rfl, rfl⟩)
    fun _ => ?_
  exact Keeps.forM fun effect _ => hperform effect

theorem loop (lib : ArduinoJson) : Keeps I (MqttManager.loop lib ans) := by
  have hhandle : ∀ this, Keeps I (mqttHandle lib ans this) := fun this =>
    Keeps.bind (hI.call ans (by simp) _) fun _ => Keeps.forM fun payload _ => hI.staticMqttCallback
      ans lib payload
  refine Keeps.get fun _ _ => Keeps.ite (fun _ => Keeps.pure _) fun _ => ?_
  refine Keeps.bind (hhandle _) fun _ => Keeps.bind (hI.mqttConnected ans _) fun _ => ?_
  exact Keeps.ite (fun _ => Keeps.pure _) fun _ => hI.modifyMqtt _

theorem processMessages (lib : ArduinoJson) : Keeps I (MainLoop.processMessages lib ans) :=
  Keeps.get fun _ _ => Keeps.ite (fun _ => hI.loop ans lib) fun _ => Keeps.pure _

theorem uploadDiagnostics (n : Nat) : Keeps I (MainLoop.uploadDiagnostics ans n) := by
  induction n with
  | zero => exact Keeps.pure _
  | succ n ih =>
    exact Keeps.bind (hI.publish ans) fun _ => Keeps.ite (fun _ => ih) fun _ => Keeps.pure _

end IgnoresMqtt

namespace OobPoll

/-! ## Iterations that do not poll -/

/-- The timer stands at `t`, no restart has been asked for, and there were `n` requests. -/
def Idle (t : UInt32) (n : Nat) (w : LoopWorld) : Prop :=
  w.lastOobPollTime = t ∧ w.restarting = false ∧ w.fetches = n

section Idle

variable {t : UInt32} {n : Nat} (ans : Answers) (now : UInt32)

theorem idle_ignoresMqtt : IgnoresMqtt (Idle t n) where
  of_same := fun h hsame => ⟨hsame.timer.trans h.1, hsame.restarting.trans h.2.1,
    hsame.fetches.trans h.2.2⟩

theorem modifyMain_idle (f : LoopState → LoopState) : Keeps (Idle t n) (modifyMain f) :=
  Keeps.modify fun _ h => h

theorem modemInit_idle : Keeps (Idle t n) (modemInit ans now) := by
  refine Keeps.get fun w h => Keeps.ite (fun _ => Triple.set fun _ _ => h) fun _ => ?_
  refine Keeps.ite (fun _ => Keeps.ite (fun _ => Triple.set fun _ _ => h) fun _ => ?_) fun _ => Keeps.pure _
  exact Keeps.bind (idle_ignoresMqtt.millis ans) fun _ => Keeps.modify fun _ h => h

theorem pppConnecting_idle : Keeps (Idle t n) (pppConnecting ans now) := by
  have hpoll : ∀ it, Keeps (Idle t n) (pollPpp it) := fun it =>
    Keeps.get fun _ _ => Keeps.bind (modifyMain_idle _) fun _ => Keeps.pure _
  have hwait : Keeps (Idle t n) (pppWaitCalls ans) :=
    Keeps.get fun w _ => idle_ignoresMqtt.pppCalls ans
      (w.main.ppp.httpsGet_notMem_waitForPppUpCalls pppTimeoutMs ans.pppWait)
  refine Keeps.bind (modifyMain_idle _) fun _ => Keeps.bind hwait fun _ => ?_
  refine Keeps.bind (hpoll _) fun _ => Keeps.ite (fun _ => modifyMain_idle _) fun _ => ?_
  refine Keeps.get fun _ _ => Keeps.ite (fun _ => ?_) fun _ => Keeps.pure _
  exact Keeps.bind (idle_ignoresMqtt.pppStopCalls ans) fun _ => modifyMain_idle _

theorem pppUp_idle : Keeps (Idle t n) (pppUp ans now) := by
  have hlink : Keeps (Idle t n) (linkMqtt now) :=
    Keeps.get fun _ _ => Keeps.ite (fun _ => Keeps.bind idle_ignoresMqtt.setPppManager fun _ =>
      Keeps.bind (idle_ignoresMqtt.modifyMqtt _) fun _ => Keeps.modify fun _ h => h) fun _ => Keeps.pure _
  have hinitialize : Keeps (Idle t n) (initializeMqtt ans now) := by
    refine Keeps.get fun _ _ => Keeps.ite (fun _ => ?_) fun _ => Keeps.pure _
    refine Keeps.bind (idle_ignoresMqtt.initializeModemMqtt ans) fun _ => ?_
    exact Keeps.ite (fun _ => Keeps.modify fun _ h => h) fun _ => Keeps.pure _
  refine Keeps.bind (Keeps.modify fun _ h => h) fun _ => Keeps.bind hlink fun _ => ?_
  refine Keeps.bind hinitialize fun _ => Keeps.get fun _ h => ?_
  exact Keeps.ite (fun _ => Triple.set fun _ _ => h) fun _ => Keeps.pure _

theorem rebuildPpp_idle : Keeps (Idle t n) (rebuildPpp ans now) :=
  Keeps.bind (idle_ignoresMqtt.disconnect ans) fun _ => Keeps.bind (idle_ignoresMqtt.modifyMqtt _)
    fun _ => Keeps.bind (idle_ignoresMqtt.pppStopCalls ans) fun _ => modifyMain_idle _

theorem mqttConnecting_idle : Keeps (Idle t n) (mqttConnecting ans now) := by
  refine Keeps.get fun _ _ => Keeps.ite (fun _ => rebuildPpp_idle ans now) fun _ => ?_
  refine Keeps.ite (fun _ => rebuildPpp_idle ans now) fun _ => ?_
  refine Keeps.bind (idle_ignoresMqtt.connect ans) fun _ => Keeps.ite (fun _ => ?_) fun _ => Keeps.pure _
  refine Keeps.bind (idle_ignoresMqtt.modifyMqtt _) fun _ => ?_
  exact Keeps.bind (idle_ignoresMqtt.uploadDiagnostics ans _) fun _ => modifyMain_idle _

end Idle

/-! ## How an iteration ends -/

/-- The status code of the server as a command. -/
def actionOf (code : Int) : Option OobAction :=
  if code = 205 then some .reboot else if code = 206 then some .rebuildPpp else none

/-- The timer of STATE_MQTT_CONNECTED has run out. -/
def due (w : LoopWorld) (ans : Answers) : Bool :=
  w.main.deviceState = .mqttConnected && ans.millis 0 - w.lastOobPollTime > oobPollIntervalMs

/-- The iteration sends the request for a pending command. -/
def polls (w : LoopWorld) (ans : Answers) : Bool :=
  due w ans && (w.main.ppp.tinyGsmModem.isSome && ans.httpsSetUrl)

/-- What the iteration is told to do. -/
def commanded (w : LoopWorld) (ans : Answers) : Option OobAction :=
  if polls w ans then actionOf ans.httpsGet else none

/-- The iteration restarts the device. -/
def restarts (lib : ArduinoJson) (w : LoopWorld) (ans : Answers) : Bool :=
  ((MainLoop.loop lib ans).run { w with reads := 0, answered := 0 }).2.restarting

/-- The PPP part of the state is `m`, the timer stands at `t`, no restart has been asked for, and
    there were `n` requests. -/
def Since (m : LoopState) (t : UInt32) (n : Nat) (w : LoopWorld) : Prop := w.main = m ∧ Idle t n w

/-- What an iteration leaves that was told to do `action`. -/
def Finished (m : LoopState) (t : UInt32) (n : Nat) (now : UInt32) :
    Option OobAction → LoopWorld → Prop
  | none, w             => Since m t n w ∨ Since (m.enter .mqttConnecting now) t n w
  | some .reboot, w     => w.restarting = true ∧ w.fetches = n
  | some .rebuildPpp, w => Since (m.rebuildPpp now) t n w

/-- The poll returns whether it acted, and if not, leaves everything as it was. -/
def Answered (m : LoopState) (t : UInt32) (n : Nat) (now : UInt32) (action : Option OobAction)
    (acted : Bool) (w : LoopWorld) : Prop :=
  acted = action.isSome ∧ if acted then Finished m t n now action w else Since m t n w

section Poll

variable {m : LoopState} {t : UInt32} {n : Nat} (ans : Answers) (now : UInt32)

theorem since_ignoresMqtt : IgnoresMqtt (Since m t n) where
  of_same := fun h hsame => ⟨hsame.main.trans h.1, idle_ignoresMqtt.of_same h.2 hsame⟩

theorem pure_answered :
    Triple (Since m t n) (pure false : LoopM Bool) (Answered m t n now none) :=
  Triple.pure fun _ h => ⟨rfl, h⟩

theorem applyOobAction_answered (action : OobAction) :
    Triple (Since m t n) (applyOobAction ans action now) (Answered m t n now (some action)) := by
  cases action with
  | reboot =>
    refine Triple.bind (Q := fun _ w => w.restarting = true ∧ w.fetches = n) ?_ fun _ => ?_
    · exact Triple.modify fun _ h => ⟨rfl, h.2.2.2⟩
    · exact Triple.pure fun _ h => ⟨rfl, h⟩
  | rebuildPpp =>
    have hrebuild : Triple (Since m t n) (rebuildPpp ans now) fun _ =>
        Since (m.rebuildPpp now) t n := by
      refine Triple.bind (since_ignoresMqtt.disconnect ans) fun _ => ?_
      refine Triple.bind (since_ignoresMqtt.modifyMqtt _) fun _ => ?_
      refine Triple.bind (since_ignoresMqtt.pppStopCalls ans) fun _ => ?_
      exact Triple.modify fun _ h => ⟨congrArg (LoopState.rebuildPpp · now) h.1, h.2⟩
    exact Triple.bind hrebuild fun _ => Triple.pure fun _ h => ⟨rfl, h⟩

/-- The calls of the request. -/
theorem request_since (this : Option Nat) :
    Triple (Since m t n)
      ([ModemMethod.httpsAddHeader, .httpsAddHeader, .httpsAddHeader, .httpsGet, .httpsEnd].forM
        fun method => TinyGsm.call ans method this) fun _ => Since m t (n + 1) := by
  have hcall : ∀ {n : Nat} {method : ModemMethod}, method ≠ .httpsGet →
      Keeps (Since m t n) (TinyGsm.call ans method this) :=
    fun hmethod => since_ignoresMqtt.call ans hmethod this
  refine Triple.bind (hcall (by simp)) fun _ => Triple.bind (hcall (by simp)) fun _ => ?_
  refine Triple.bind (hcall (by simp)) fun _ => Triple.bind (Q := fun _ => Since m t (n + 1)) ?_ fun _ => ?_
  · exact Triple.modify fun w h =>
      ⟨h.1, h.2.1, h.2.2.1, by rw [LoopWorld.fetches_called, h.2.2.2, if_pos rfl]⟩
  · exact Triple.bind (hcall (by simp)) fun _ => Keeps.pure _

theorem pollOobCommandViaModem_answered :
    Triple (Since m t n) (pollOobCommandViaModem ans now)
      (Answered m t (n + (m.ppp.tinyGsmModem.isSome && ans.httpsSetUrl).toNat) now
        (if m.ppp.tinyGsmModem.isSome && ans.httpsSetUrl then actionOf ans.httpsGet else none)) := by
  have hcall : ∀ {method this}, method ≠ .httpsGet → Keeps (Since m t n) (TinyGsm.call ans method this) :=
    fun hmethod => since_ignoresMqtt.call ans hmethod _
  refine Triple.get fun w h => ?_
  rw [h.1]
  refine Triple.ite (fun hmodem => ?_) fun hmodem => ?_
  · rw [Option.isNone_iff_eq_none.mp hmodem]
    exact pure_answered now
  have hsome : m.ppp.tinyGsmModem.isSome = true := by
    simpa [Option.isSome_iff_ne_none, Option.isNone_iff_eq_none] using hmodem
  rw [hsome, Bool.true_and]
  refine Triple.bind (hcall (by simp)) fun _ => Triple.bind (hcall (by simp)) fun _ => ?_
  refine Triple.ite (fun hset => Triple.bind (hcall (by simp)) fun _ => ?_) fun hset => ?_
  · have hurl : ans.httpsSetUrl = false := by simpa using hset
    rw [hurl]
    exact pure_answered now
  have hurl : ans.httpsSetUrl = true := by simpa using hset
  rw [hurl, if_pos rfl, actionOf]
  refine Triple.bind (request_since ans _) fun _ => Triple.ite (fun h205 => ?_) fun h205 => ?_
  · rw [if_pos h205]
    exact applyOobAction_answered ans now .reboot
  rw [if_neg h205]
  refine Triple.ite (fun h206 => ?_) fun h206 => ?_
  · rw [if_pos h206]
    exact applyOobAction_answered ans now .rebuildPpp
  · rw [if_neg h206]
    exact pure_answered now

/-- The poll happens on its timer, whether or not it gets as far as a request. -/
theorem pollOob_answered :
    Triple (Since m t n) (pollOob ans now)
      (if now - t > oobPollIntervalMs then
        Answered m now (n + (m.ppp.tinyGsmModem.isSome && ans.httpsSetUrl).toNat) now
          (if m.ppp.tinyGsmModem.isSome && ans.httpsSetUrl then actionOf ans.httpsGet else none)
      else Answered m t n now none) := by
  refine Triple.get_eq fun w h => ?_
  rw [h.2.1]
  refine Triple.ite (fun hdue => ?_) fun hdue => ?_
  · rw [if_pos hdue]
    refine Triple.bind (Q := fun _ => Since m now n) ?_ fun _ => ?_
    · exact Triple.set fun _ _ => ⟨h.1, rfl, h.2.2⟩
    · exact pollOobCommandViaModem_answered ans now
  · rw [if_neg hdue]
    exact Triple.pure fun s hs => ⟨rfl, hs ▸ h⟩

/-- STATE_MQTT_CONNECTED after its poll. -/
theorem mqttConnected_finished {action : Option OobAction} {timer : UInt32} {requests : Nat}
    (hpoll : Triple (Since m t n) (pollOob ans now) (Answered m timer requests now action)) :
    Triple (Since m t n) (mqttConnected ans now) fun _ => Finished m timer requests now action := by
  refine Triple.bind hpoll fun acted => Triple.ite (fun hacted => ?_) fun hacted => ?_
  · refine Triple.pure fun s h => ?_
    have hfinished := h.2
    rwa [if_pos hacted] at hfinished
  have hidle : ∀ s, Answered m timer requests now action acted s →
      action = none ∧ Since m timer requests s := by
    intro s h
    obtain ⟨hsome, hsince⟩ := h
    rw [if_neg hacted] at hsince
    refine ⟨Option.not_isSome_iff_eq_none.mp fun hacts => hacted (hsome.trans hacts), hsince⟩
  refine Triple.conseq (Triple.assume fun haction => ?_) hidle fun _ _ h => h
  subst haction
  refine Triple.bind (since_ignoresMqtt.publishStatus ans) fun _ => ?_
  refine Triple.bind (since_ignoresMqtt.isConnected ans) fun _ => ?_
  refine Triple.ite (fun _ => Triple.pure fun s h => .inl h) fun _ => ?_
  exact Triple.modify fun s h => .inr ⟨congrArg (LoopState.enter · .mqttConnecting now) h.1, h.2⟩

/-- The states that do not poll. -/
theorem runState_idle {state : DeviceState} (h : state ≠ .mqttConnected) :
    Keeps (Idle t n) (runState ans now state) := by
  cases state with
  | modemInit      => exact modemInit_idle ans now
  | pppConnecting  => exact pppConnecting_idle ans now
  | pppUp          => exact pppUp_idle ans now
  | mqttConnecting => exact mqttConnecting_idle ans now
  | mqttConnected  => exact absurd rfl h

end Poll

/-! ## Iterations -/

/-- The end of an iteration: `setup()` again if a restart was asked for. -/
def restarted (ans : Answers) (w : LoopWorld) : LoopWorld :=
  if w.restarting then LoopWorld.boot ans.bootMillis w.session w.calls else w

theorem restarted_fetches (ans : Answers) (w : LoopWorld) : (restarted ans w).fetches = w.fetches := by
  unfold restarted
  split <;> rfl

theorem restarted_of_running {ans : Answers} {w : LoopWorld} (h : w.restarting = false) :
    restarted ans w = w := if_neg (by simp [h])

section Iterate

variable {w : LoopWorld} {ans : Answers}

theorem polls_of_commanded {action : OobAction} (h : commanded w ans = some action) :
    polls w ans = true := by
  by_contra hpolls
  simp [commanded, hpolls] at h

theorem due_of_polls (h : polls w ans = true) : due w ans = true := by
  simp only [polls, Bool.and_eq_true] at h
  exact h.1

theorem connected_of_due (h : due w ans = true) : w.main.deviceState = .mqttConnected := by
  simp only [due, Bool.and_eq_true, decide_eq_true_eq] at h
  exact h.1

variable (lib : ArduinoJson) (ans : Answers)

/-- The world when the iteration reaches its end. -/
def atEnd (lib : ArduinoJson) (w : LoopWorld) (ans : Answers) : LoopWorld :=
  ((MainLoop.loop lib ans).run { w with reads := 0, answered := 0 }).2

theorem iterate_eq : w.iterate lib ans = restarted ans (atEnd lib w ans) := rfl

/-- The case of the state runs in a world in which only the MQTT manager has worked. -/
theorem atEnd_eq (h : w.restarting = false) :
    ∃ w₁, Since w.main w.lastOobPollTime w.fetches w₁ ∧
      atEnd lib w ans = ((runState ans (ans.millis 0) w.main.deviceState).run w₁).2 := by
  have hstart : Since w.main w.lastOobPollTime w.fetches { w with reads := 1, answered := 0 } :=
    ⟨rfl, rfl, h, rfl⟩
  have hprocessed := since_ignoresMqtt.processMessages ans lib _ hstart
  refine ⟨_, hprocessed, ?_⟩
  rw [← congrArg LoopState.deviceState hprocessed.1]
  rfl

theorem atEnd_idle (h : w.restarting = false) (hstate : w.main.deviceState ≠ .mqttConnected) :
    Idle w.lastOobPollTime w.fetches (atEnd lib w ans) := by
  obtain ⟨w₁, hw₁, hend⟩ := atEnd_eq lib ans h
  rw [hend]
  exact runState_idle ans (ans.millis 0) hstate w₁ hw₁.2

theorem atEnd_finished (h : w.restarting = false) (hstate : w.main.deviceState = .mqttConnected) :
    Finished w.main (if due w ans then ans.millis 0 else w.lastOobPollTime)
      (w.fetches + (polls w ans).toNat) (ans.millis 0) (commanded w ans) (atEnd lib w ans) := by
  obtain ⟨w₁, hw₁, hend⟩ := atEnd_eq lib ans h
  rw [hend, hstate]
  refine mqttConnected_finished ans (ans.millis 0) ?_ w₁ hw₁
  have hpoll := pollOob_answered (m := w.main) (t := w.lastOobPollTime) (n := w.fetches) ans (ans.millis 0)
  cases hdue : due w ans with
  | true =>
    have htimer : ans.millis 0 - w.lastOobPollTime > oobPollIntervalMs := by
      simpa [due, hstate] using hdue
    rw [if_pos htimer] at hpoll
    simpa [commanded, polls, hdue] using hpoll
  | false =>
    have htimer : ¬ ans.millis 0 - w.lastOobPollTime > oobPollIntervalMs := by
      simpa [due, hstate] using hdue
    rw [if_neg htimer] at hpoll
    simpa [commanded, polls, hdue] using hpoll

/-- Only a 205 restarts the device. -/
theorem restarts_iff (h : w.restarting = false) :
    restarts lib w ans = true ↔ commanded w ans = some .reboot := by
  change (atEnd lib w ans).restarting = true ↔ _
  by_cases hstate : w.main.deviceState = .mqttConnected
  · have hfinished := atEnd_finished lib ans h hstate
    generalize commanded w ans = action at hfinished
    rcases action with _ | (_ | _)
    · rcases hfinished with hsince | hsince <;> simp [hsince.2.2.1]
    · simp [hfinished.1]
    · simp [hfinished.2.2.1]
  · have hnone : commanded w ans = none := by simp [commanded, polls, due, hstate]
    rw [(atEnd_idle lib ans h hstate).2.1, hnone]
    simp

theorem iterate_reboot (h : w.restarting = false) (hcommand : commanded w ans = some .reboot) :
    ∃ session calls, w.iterate lib ans = LoopWorld.boot ans.bootMillis session calls := by
  have hrestarts : (atEnd lib w ans).restarting = true := (restarts_iff lib _ h).mpr hcommand
  exact ⟨_, _, if_pos hrestarts⟩

theorem iterate_rebuildPpp (h : w.restarting = false) (hcommand : commanded w ans = some .rebuildPpp) :
    (w.iterate lib ans).main = w.main.rebuildPpp (ans.millis 0) := by
  have hstate := connected_of_due (due_of_polls (polls_of_commanded hcommand))
  have hfinished := atEnd_finished lib ans h hstate
  rw [hcommand] at hfinished
  rw [iterate_eq, restarted_of_running hfinished.2.2.1]
  exact hfinished.1

/-- Without a command the device stays in STATE_MQTT_CONNECTED or goes back to connecting. -/
theorem iterate_none (h : w.restarting = false) (hstate : w.main.deviceState = .mqttConnected)
    (hcommand : commanded w ans = none) :
    (w.iterate lib ans).main = w.main ∨
      (w.iterate lib ans).main = w.main.enter .mqttConnecting (ans.millis 0) := by
  have hfinished := atEnd_finished lib ans h hstate
  rw [hcommand] at hfinished
  rcases hfinished with hsince | hsince
  · rw [iterate_eq, restarted_of_running hsince.2.2.1]
    exact .inl hsince.1
  · rw [iterate_eq, restarted_of_running hsince.2.2.1]
    exact .inr hsince.1

theorem iterate_running : (w.iterate lib ans).restarting = false := by
  rw [iterate_eq, restarted]
  split
  next => rfl
  next hrunning => exact Bool.eq_false_iff.mpr hrunning

/-- The timer stands at the last poll, or at zero after a restart. -/
theorem iterate_timer (h : w.restarting = false) :
    (w.iterate lib ans).lastOobPollTime =
      if restarts lib w ans then 0 else if due w ans then ans.millis 0 else w.lastOobPollTime := by
  rw [iterate_eq, restarted]
  change (if (atEnd lib w ans).restarting = true then _ else _ : LoopWorld).lastOobPollTime =
    if (atEnd lib w ans).restarting = true then _ else _
  split
  next => rfl
  next hrunning =>
    by_cases hstate : w.main.deviceState = .mqttConnected
    · have hfinished := atEnd_finished lib ans h hstate
      generalize commanded w ans = action at hfinished
      rcases action with _ | (_ | _)
      · rcases hfinished with hsince | hsince <;> exact hsince.2.1
      · exact absurd hfinished.1 hrunning
      · exact hfinished.2.1
    · have hdue : due w ans = false := by simp [due, hstate]
      rw [(atEnd_idle lib ans h hstate).1, hdue, if_neg Bool.false_ne_true]

/-- The iterations that poll are those that call `https_get`. -/
theorem iterate_fetches (h : w.restarting = false) :
    (w.iterate lib ans).fetches = w.fetches + (polls w ans).toNat := by
  rw [iterate_eq, restarted_fetches]
  by_cases hstate : w.main.deviceState = .mqttConnected
  · have hfinished := atEnd_finished lib ans h hstate
    generalize commanded w ans = action at hfinished
    rcases action with _ | (_ | _)
    · rcases hfinished with hsince | hsince <;> exact hsince.2.2.2
    · exact hfinished.2
    · exact hfinished.2.2.2
  · have hpolls : polls w ans = false := by simp [polls, due, hstate]
    rw [(atEnd_idle lib ans h hstate).2.2, hpolls]
    rfl

end Iterate

/-! ## Runs in real time -/

/-- A start of the device, or a request for a pending command. -/
structure Mark where
  /-- The iteration that sends the request reads the clock; for a start, the start itself. -/
  begun : Nat
  /-- The request is sent, once the messages that had arrived are processed. -/
  time : Nat
  isPoll : Bool
  deriving DecidableEq, Repr

/-- The device with the real time in milliseconds, and its starts and requests so far. -/
structure Run where
  world : LoopWorld
  time : Nat
  /-- When `millis()` last began to count. -/
  bootedAt : Nat
  marks : List Mark

/-- `elapsed` is the real time since the event before. -/
inductive Event where
  /-- An iteration of `loop()`. A message that it processes first may pulse the relay, so its case of
      the switch begins `processing` after the clock was read. If it restarts the device, `setup()`
      runs `reset` later. -/
  | iterate (elapsed : Nat) (ans : Answers) (processing reset : Nat)
  | powerCut (elapsed : Nat) (bootMillis : UInt32) (session : MqttSession)

def Run.boot (s : Run) (world : LoopWorld) (time : Nat) : Run where
  world := world
  time := time
  bootedAt := time
  marks := s.marks ++ [⟨time, time, false⟩]

/-- The request of an iteration, told by the call of `https_get`. -/
def requests (lib : ArduinoJson) (w : LoopWorld) (ans : Answers) (begun processing : Nat) : List Mark :=
  if w.fetches < (w.iterate lib ans).fetches then [⟨begun, begun + processing, true⟩] else []

def start (bootMillis : UInt32) (session : MqttSession) : Run where
  world := LoopWorld.boot bootMillis session []
  time := 0
  bootedAt := 0
  marks := [⟨0, 0, false⟩]

/-- The clock of an iteration is read at its beginning. -/
def step (lib : ArduinoJson) (s : Run) : Event → Option Run
  | .iterate elapsed ans processing reset =>
    let begun := s.time + elapsed
    let after : Run := { s with
      world := s.world.iterate lib ans
      time := begun + processing
      marks := s.marks ++ requests lib s.world ans begun processing }
    if ans.millis 0 ≠ Clock32.reading (begun - s.bootedAt) then none
    else if restarts lib s.world ans then some (after.boot after.world (after.time + reset))
    else some after
  | .powerCut elapsed bootMillis session =>
    some (s.boot (LoopWorld.boot bootMillis session s.world.calls) (s.time + elapsed))

/-- More than the interval lies between the beginnings of two iterations that ask for a command, and
    between a start and the first of them. A request is sent at the beginning of its iteration or
    later. -/
structure Spaced (s : Run) : Prop where
  begun : s.marks.Pairwise fun a b => b.isPoll = true → a.begun + oobPollIntervalMs.toNat < b.begun
  sent : ∀ m ∈ s.marks, m.begun ≤ m.time

/-- The timer stands at a time that no mark is later than. -/
structure TimerInv (s : Run) : Prop where
  running : s.world.restarting = false
  timer : ∃ since, s.bootedAt ≤ since ∧ since ≤ s.time ∧
    s.world.lastOobPollTime = Clock32.reading (since - s.bootedAt) ∧ ∀ m ∈ s.marks, m.begun ≤ since
  spaced : Spaced s

namespace TimerInv

theorem start (bootMillis : UInt32) (session : MqttSession) : TimerInv (start bootMillis session) where
  running := rfl
  timer := ⟨0, Nat.le_refl _, Nat.le_refl _, rfl, by simp [OobPoll.start]⟩
  spaced := ⟨List.pairwise_singleton _ _, by simp [OobPoll.start]⟩

variable {s : Run}

theorem boot (hspaced : Spaced s) {time : Nat} (hmarks : ∀ m ∈ s.marks, m.begun ≤ time)
    (millis : UInt32) (session : MqttSession) (calls : List ModemCall) :
    TimerInv (s.boot (LoopWorld.boot millis session calls) time) where
  running := rfl
  timer := by
    refine ⟨time, Nat.le_refl _, Nat.le_refl _, ?_, ?_⟩
    · simp only [Run.boot, Nat.sub_self]
      rfl
    · intro m hm
      rcases List.mem_append.mp hm with hm | hm
      · exact hmarks m hm
      · rw [List.mem_singleton.mp hm]
  spaced := by
    refine ⟨List.pairwise_append.mpr ⟨hspaced.begun, List.pairwise_singleton _ _, ?_⟩, fun m hm => ?_⟩
    · intro a _ b hb hpoll
      rw [List.mem_singleton.mp hb] at hpoll
      cases hpoll
    · rcases List.mem_append.mp hm with hm | hm
      · exact hspaced.sent m hm
      · rw [List.mem_singleton.mp hm]

variable (lib : ArduinoJson) {ans : Answers} {begun : Nat} (processing : Nat)

theorem mem_requests (h : s.world.restarting = false) {m : Mark}
    (hm : m ∈ requests lib s.world ans begun processing) :
    polls s.world ans = true ∧ m = ⟨begun, begun + processing, true⟩ := by
  unfold requests at hm
  split at hm
  next hlt =>
    refine ⟨?_, List.mem_singleton.mp hm⟩
    by_contra hpolls
    rw [iterate_fetches lib _ h, Bool.eq_false_iff.mpr hpolls] at hlt
    exact absurd hlt (Nat.lt_irrefl _)
  next => cases hm

/-- When the timer has run out, all marks lie more than the interval back. -/
theorem lt_of_due (h : TimerInv s) (htime : s.time ≤ begun)
    (hclock : ans.millis 0 = Clock32.reading (begun - s.bootedAt)) (hdue : due s.world ans = true) :
    ∀ m ∈ s.marks, m.begun + oobPollIntervalMs.toNat < begun := by
  obtain ⟨since, hbooted, hsince, htimer, hmarks⟩ := h.timer
  intro m hm
  simp only [due, Bool.and_eq_true, decide_eq_true_eq, hclock, htimer, gt_iff_lt,
    UInt32.lt_iff_toNat_lt] at hdue
  have hle : (Clock32.reading (begun - s.bootedAt) - Clock32.reading (since - s.bootedAt)).toNat ≤
      begun - s.bootedAt - (since - s.bootedAt) := Clock32.toNat_sub_reading_le (by omega)
  have := hmarks m hm
  omega

theorem spaced_iterate (h : TimerInv s) (htime : s.time ≤ begun)
    (hclock : ans.millis 0 = Clock32.reading (begun - s.bootedAt)) :
    Spaced { s with marks := s.marks ++ requests lib s.world ans begun processing } where
  begun := by
    refine List.pairwise_append.mpr ⟨h.spaced.begun, ?_, fun a ha b hb _ => ?_⟩
    · unfold requests
      split
      · exact List.pairwise_singleton _ _
      · exact List.Pairwise.nil
    · obtain ⟨hpolls, rfl⟩ := mem_requests lib processing h.running hb
      exact h.lt_of_due htime hclock (due_of_polls hpolls) a ha
  sent m hm := by
    rcases List.mem_append.mp hm with hm | hm
    · exact h.spaced.sent m hm
    · rw [(mem_requests lib processing h.running hm).2]
      exact Nat.le_add_right _ _

theorem marks_le (h : TimerInv s) (htime : s.time ≤ begun) :
    ∀ m ∈ s.marks ++ requests lib s.world ans begun processing, m.begun ≤ begun := by
  obtain ⟨since, -, hsince, -, hmarks⟩ := h.timer
  intro m hm
  rcases List.mem_append.mp hm with hm | hm
  · exact (hmarks m hm).trans (hsince.trans htime)
  · rw [(mem_requests lib processing h.running hm).2]

theorem iterate (h : TimerInv s) (elapsed : Nat)
    (hclock : ans.millis 0 = Clock32.reading (s.time + elapsed - s.bootedAt))
    (hrestarts : restarts lib s.world ans = false) :
    TimerInv { s with
      world := s.world.iterate lib ans
      time := s.time + elapsed + processing
      marks := s.marks ++ requests lib s.world ans (s.time + elapsed) processing } := by
  have htime : s.time ≤ s.time + elapsed := Nat.le_add_right _ _
  have htimer := iterate_timer lib ans h.running
  rw [hrestarts, if_neg Bool.false_ne_true] at htimer
  have hspaced := h.spaced_iterate lib processing htime hclock
  refine ⟨iterate_running lib _, ?_, hspaced.begun, hspaced.sent⟩
  obtain ⟨since, hbooted, hsince, hstands, hmarks⟩ := h.timer
  cases hdue : due s.world ans with
  | true =>
    rw [hdue, if_pos rfl, hclock] at htimer
    exact ⟨s.time + elapsed, by dsimp only; omega, Nat.le_add_right _ _, htimer,
      h.marks_le lib processing htime⟩
  | false =>
    rw [hdue, if_neg Bool.false_ne_true, hstands] at htimer
    refine ⟨since, hbooted, (hsince.trans htime).trans (Nat.le_add_right _ _), htimer, fun m hm => ?_⟩
    rcases List.mem_append.mp hm with hm | hm
    · exact hmarks m hm
    · have hpolls := (mem_requests lib processing h.running hm).1
      exact absurd (due_of_polls hpolls) (by simp [hdue])

theorem step {s' : Run} {e : Event} (h : TimerInv s) (hstep : step lib s e = some s') :
    TimerInv s' := by
  cases e with
  | powerCut elapsed bootMillis session =>
    obtain rfl := Option.some.inj hstep
    obtain ⟨since, -, hsince, -, hmarks⟩ := h.timer
    exact boot h.spaced (fun m hm => (hmarks m hm).trans (hsince.trans (Nat.le_add_right _ _))) _ _ _
  | iterate elapsed ans processing reset =>
    simp only [OobPoll.step, ne_eq, Option.ite_none_left_eq_some, not_not] at hstep
    obtain ⟨hclock, hstep⟩ := hstep
    have htime : s.time ≤ s.time + elapsed := Nat.le_add_right _ _
    split at hstep
    next hrestarts =>
      obtain rfl := Option.some.inj hstep
      obtain ⟨session, calls, hboot⟩ :=
        iterate_reboot lib _ h.running ((restarts_iff lib _ h.running).mp hrestarts)
      rw [hboot]
      let marked : Run := { s with
        marks := s.marks ++ requests lib s.world ans (s.time + elapsed) processing }
      have hspaced : Spaced marked := h.spaced_iterate lib processing htime hclock
      exact boot hspaced (fun m hm => (h.marks_le lib processing htime m hm).trans
        ((Nat.le_add_right _ processing).trans (Nat.le_add_right _ _))) _ _ _
    next hrestarts =>
      obtain rfl := Option.some.inj hstep
      exact h.iterate lib processing elapsed hclock (Bool.eq_false_iff.mpr hrestarts)

end TimerInv

/-- Whatever the server answers and however the clock turns over: an iteration in which the device
    asks for a command begins more than the interval after the one before in which it asked, and
    after it last started. -/
theorem polls_spaced (lib : ArduinoJson) (bootMillis : UInt32) (session : MqttSession)
    (events : List Event) :
    Trace.AllStates (step lib) Spaced (start bootMillis session) events :=
  Trace.allStates_iff.mpr fun _ _ _ hrun =>
    (Trace.exec_invariant (fun _ _ _ h hstep => TimerInv.step lib h hstep)
      (TimerInv.start bootMillis session) hrun).spaced

end OobPoll

end Firmware
