-- SUMMARY: `loop()` of `main.ino` with all its device states, the out-of-band channel, and runs of it from `setup()`.
import ParkingGate.Base.Trace
import ParkingGate.Firmware.MqttManager

/-!
# The main loop

One definition for each case of the switch. The PPP part of the state is that of
`LoopState`, whose functions are used as they are; here the calls they make on the modem
instance are recorded as well.

The batches of the diagnostic log are represented by their number. A restart of the ESP32
ends the iteration, and the next one begins after `setup()`.
-/

namespace Firmware

open Config

/-! ## The calls of the PPP manager -/

namespace PppManager

/-- The calls of `stop` on the instance, before it deletes it. -/
def stopCalls (p : PppManager) : List ModemMethod :=
  if !p.pppUp && !p.pppStarting then []
  else if p.tinyGsmModem.isSome then [.gprsDisconnect] else []

/-- The calls of `waitForPppUp` on the instance. -/
def waitForPppUpCalls (p : PppManager) (timeoutMs : UInt32) (a : PppAnswers) : List ModemMethod :=
  if p.pppUp then []
  else if !p.pppStarting || p.tinyGsmModem.isNone then []
  else if a.millis - p.pppStartTime > timeoutMs then p.stopCalls
  else
    match p.connState with
    | .init | .waitSim | .connected => []
    | .waitRegistration =>
      if a.millis - p.lastRegCheck < 1000 then [] else [.getRegistrationStatus, .getSignalQuality]
    | .setApn          => [.setNetworkAPN]
    | .activateNetwork => [.setNetworkActive]
    | .getIp           => [.getLocalIP]

end PppManager

namespace MainLoop

open MqttManager

/-- Calls of the PPP manager on the instance it owns. -/
def pppCalls (ans : Answers) (methods : List ModemMethod) : LoopM Unit := do
  let ppp := (← get).main.ppp
  methods.forM fun method => TinyGsm.call ans method ppp.tinyGsmModem

/-- The calls of `pppManager->stop()`, which come before the instance is deleted. -/
def pppStopCalls (ans : Answers) : LoopM Unit := do
  pppCalls ans (← get).main.ppp.stopCalls

/-- `disconnect`, `resetMqttFailStreak`, `stop` and the return to STATE_PPP_CONNECTING. -/
def rebuildPpp (ans : Answers) (now : UInt32) : LoopM Unit := do
  disconnect ans
  modifyMqtt resetMqttFailStreak
  pppStopCalls ans
  modifyMain fun s => s.rebuildPpp now

/-! ## The out-of-band channel -/

inductive OobAction where
  | reboot | rebuildPpp

def applyOobAction (ans : Answers) (action : OobAction) (now : UInt32) : LoopM Bool := do
  match action with
  | .reboot =>
    modify fun w => { w with restarting := true }
    return true
  | .rebuildPpp =>
    rebuildPpp ans now
    return true

/-- The status code of the answer is the command. -/
def pollOobCommandViaModem (ans : Answers) (now : UInt32) : LoopM Bool := do
  let modem := (← get).main.ppp.tinyGsmModem
  if modem.isNone then return false
  else
    TinyGsm.call ans .httpsBegin modem
    TinyGsm.call ans .httpsSetUrl modem
    if !ans.httpsSetUrl then
      TinyGsm.call ans .httpsEnd modem
      return false
    else
      [ModemMethod.httpsAddHeader, .httpsAddHeader, .httpsAddHeader, .httpsGet, .httpsEnd].forM
        fun method => TinyGsm.call ans method modem
      if ans.httpsGet = 205 then applyOobAction ans .reboot now
      else if ans.httpsGet = 206 then applyOobAction ans .rebuildPpp now
      else return false

/-! ## The device states -/

def modemInit (ans : Answers) (now : UInt32) : LoopM Unit := do
  let w ← get
  if ans.modemInit then
    set { w with modemInitRetries := 0, main := w.main.enter .pppConnecting now }
  else if now - w.main.stateEntryTime > atInitTimeoutMs then
    if w.modemInitRetries < modemInitMaxRetries then
      set { w with
        modemInitRetries := w.modemInitRetries + 1
        main := { w.main with stateEntryTime := now } }
    else
      let later ← millis ans
      modify fun w =>
        { w with modemInitRetries := 0, main := { w.main with stateEntryTime := later } }
  else return ()

/-- The calls of `waitForPppUp`, which come before it moves on. -/
def pppWaitCalls (ans : Answers) : LoopM Unit := do
  pppCalls ans ((← get).main.ppp.waitForPppUpCalls pppTimeoutMs ans.pppWait)

/-- `waitForPppUp` itself. -/
def pollPpp (it : PppIteration) : LoopM Bool := do
  let polled := (← get).main.poll it
  modifyMain fun _ => polled.2
  return polled.1

def pppConnecting (ans : Answers) (now : UInt32) : LoopM Unit := do
  let it : PppIteration := ⟨now, ans.pppStart, ans.pppWait⟩
  modifyMain fun s => s.startPpp it
  pppWaitCalls ans
  if ← pollPpp it then
    modifyMain fun s =>
      { s with ppp := s.ppp.resetPppFailStreak, deviceState := .pppUp, pppStarted := false }
  else if now - (← get).main.stateEntryTime > pppTimeoutMs then
    pppStopCalls ans
    modifyMain fun s => (s.expire it).1
  else return ()

/-- Step 1 of STATE_PPP_UP: link the MQTT manager to the instance. -/
def linkMqtt (now : UInt32) : LoopM Unit := do
  let w ← get
  if !w.mqttSetup && now - w.pppUpTime > 1000 then
    setPppManager
    beginCustom
    modify fun w => { w with mqttSetup := true }
  else return ()

/-- Step 2 of STATE_PPP_UP: initialise the MQTT client of the modem. -/
def initializeMqtt (ans : Answers) (now : UInt32) : LoopM Unit := do
  let w ← get
  if w.mqttSetup && !w.mqttInitialized && now - w.pppUpTime > 2000 then
    if ← initializeModemMqtt ans then modify fun w => { w with mqttInitialized := true }
    else return ()
  else return ()

def pppUp (ans : Answers) (now : UInt32) : LoopM Unit := do
  modify fun w => { w with pppUpTime := if w.pppUpTime = 0 then now else w.pppUpTime }
  linkMqtt now
  initializeMqtt ans now
  let w ← get
  if w.mqttInitialized && now - w.pppUpTime > 3000 then
    set { w with
      main := w.main.enter .mqttConnecting now
      pppUpTime := 0
      mqttSetup := false
      mqttInitialized := false }
  else return ()

/-- Publish the batches until one fails. -/
def uploadDiagnostics (ans : Answers) : Nat → LoopM Unit
  | 0     => return ()
  | n + 1 => do
    if ← publish ans then uploadDiagnostics ans n else return ()

def mqttConnecting (ans : Answers) (now : UInt32) : LoopM Unit := do
  let w ← get
  if now - w.main.stateEntryTime > mqttConnectingMaxMs then rebuildPpp ans now
  else if w.mqtt.shouldRebuildPpp then rebuildPpp ans now
  else if ← connect ans then
    -- `setCommandCallback(handleMqttCommand)`.
    modifyMqtt fun m => { m with commandCallback := true }
    uploadDiagnostics ans ans.diagnosticBatches
    modifyMain fun s => s.enter .mqttConnected now
  else return ()

/-- The out-of-band poll of STATE_MQTT_CONNECTED, on its timer. -/
def pollOob (ans : Answers) (now : UInt32) : LoopM Bool := do
  let w ← get
  if now - w.lastOobPollTime > oobPollIntervalMs then
    set { w with lastOobPollTime := now }
    pollOobCommandViaModem ans now
  else return false

def mqttConnected (ans : Answers) (now : UInt32) : LoopM Unit := do
  if ← pollOob ans now then return ()
  else
    publishStatus ans
    if ← isConnected ans then return ()
    else modifyMain fun s => s.enter .mqttConnecting now

/-- MQTT messages are processed before the switch, if connected. -/
def processMessages (lib : ArduinoJson) (ans : Answers) : LoopM Unit := do
  if (← get).main.deviceState = .mqttConnected then MqttManager.loop lib ans else return ()

/-- The switch over the device state. -/
def runState (ans : Answers) (now : UInt32) : DeviceState → LoopM Unit
  | .modemInit      => modemInit ans now
  | .pppConnecting  => pppConnecting ans now
  | .pppUp          => pppUp ans now
  | .mqttConnecting => mqttConnecting ans now
  | .mqttConnected  => mqttConnected ans now

/-- `loop()`. -/
def loop (lib : ArduinoJson) (ans : Answers) : LoopM Unit := do
  let now ← millis ans
  processMessages lib ans
  runState ans now (← get).main.deviceState

end MainLoop

/-! ## Runs -/

namespace LoopWorld

/-- One iteration, and `setup()` again if it restarts the device. -/
def iterate (lib : ArduinoJson) (w : LoopWorld) (ans : Answers) : LoopWorld :=
  let w' := ((MainLoop.loop lib ans).run { w with reads := 0, answered := 0 }).2
  if w'.restarting then boot ans.bootMillis w'.session w'.calls else w'

/-- The loop never ends, so every iteration is enabled. -/
def step (lib : ArduinoJson) (w : LoopWorld) (ans : Answers) : Option LoopWorld :=
  some (w.iterate lib ans)

end LoopWorld

end Firmware
