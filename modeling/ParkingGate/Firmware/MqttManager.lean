-- SUMMARY: The MQTT manager (`MqttManager.cpp`) over the modem of the main loop, and what each of its methods can change.
import ParkingGate.Firmware.LoopWorld

/-!
# The MQTT manager

The methods are translated as they are written, over the state of the main loop. What the
modem answers comes from `Answers`; the command callback is `handleMqttCommand`.
-/

namespace Firmware

open Config Hoare

namespace MqttManager

/-! ## The methods -/

def setPppManager : LoopM Unit :=
  modify fun w => { w with mqtt := { w.mqtt with modem := w.main.ppp.tinyGsmModem } }

/-- `begin(host, port, username, password)`. -/
def beginCustom : LoopM Unit :=
  modifyMqtt fun m => if m.modem.isNone then m else { m with useCustomSettings := true }

/-- No root certificate is passed, so none is set. -/
def initializeModemMqtt (ans : Answers) : LoopM Bool := do
  let m := (← get).mqtt
  if m.modem.isNone then return false
  else
    TinyGsm.call ans .mqttBegin m.modem
    return true

def isConnected (ans : Answers) : LoopM Bool := do
  let m := (← get).mqtt
  if !m.connected then return false
  else if m.modem.isSome then TinyGsm.mqttConnected ans m.modem
  else return m.connected

/-- The first test of `connect`: the session of an earlier call is still up. -/
def alreadyConnected (ans : Answers) : LoopM Bool := do
  let m := (← get).mqtt
  if m.connected && m.modem.isSome then TinyGsm.mqttConnected ans m.modem
  else return false

/-- A connection attempt has failed. -/
def countFailure : LoopM Unit :=
  modifyMqtt fun m => { m.incrementFailStreak with backoff := m.backoff.increment }

/-- The end of `connect`, once the session is up: subscribe to `MQTT_CMD_TOPIC`. -/
def subscribeToCommands (ans : Answers) (modem : Option Nat) : LoopM Bool := do
  TinyGsm.call ans .mqttSetCallback modem
  if ← TinyGsm.mqttSubscribe ans modem then
    modifyMqtt fun m =>
      { m.resetMqttFailStreak with connected := true, backoff := m.backoff.reset }
    return true
  else
    -- `connected` stays as it was.
    TinyGsm.mqttDisconnect ans modem
    countFailure
    return false

/-- The end of `connect` when no session came up. -/
def connectionFailed : LoopM Bool := do
  modifyMqtt fun m => { m with connected := false }
  countFailure
  return false

/-- `success && modem->mqtt_connected()`. -/
def confirmed (ans : Answers) (modem : Option Nat) (success : Bool) : LoopM Bool :=
  if success then TinyGsm.mqttConnected ans modem else return false

/-- The attempt of `connect` on an instance. -/
def connectToBroker (ans : Answers) (modem : Option Nat) : LoopM Bool := do
  let success ← TinyGsm.mqttConnect ans modem
  if ← confirmed ans modem success then subscribeToCommands ans modem else connectionFailed

/-- The attempt of `connect`, past the backoff test. -/
def attemptConnection (ans : Answers) : LoopM Bool := do
  let modem := (← get).mqtt.modem
  if modem.isNone then
    countFailure
    return false
  else connectToBroker ans modem

def connect (ans : Answers) : LoopM Bool := do
  let now ← millis ans
  if ← alreadyConnected ans then return true
  else
    let m := (← get).mqtt
    if m.shouldWait now then return false
    else
      modifyMqtt fun m => { m with lastConnectAttempt := now }
      attemptConnection ans

def disconnect (ans : Answers) : LoopM Unit := do
  let m := (← get).mqtt
  if m.connected && m.modem.isSome then
    TinyGsm.mqttDisconnect ans m.modem
    modifyMqtt fun m => { m with connected := false }
  else return ()

def publish (ans : Answers) : LoopM Bool := do
  let connected ← isConnected ans
  let m := (← get).mqtt
  if !connected || m.modem.isNone then return false
  else TinyGsm.mqttPublish ans m.modem

def publishStatus (ans : Answers) : LoopM Unit := do
  if ← isConnected ans then
    let now ← millis ans
    let m := (← get).mqtt
    if now - m.lastStatusPublish < statusIntervalMs then return ()
    else
      modifyMqtt fun m => { m with lastStatusPublish := now }
      if ← publish ans then return ()
      -- The modem may still report a session until its keepalive fails.
      else modifyMqtt fun m => { m with connected := false }
  else return ()

/-- The outside effects of the command handler. A pulse does not concern the modem. -/
def perform (ans : Answers) : Effect → LoopM Unit
  | .pulse _ _     => return ()
  | .publishAck _ => do
    let _ ← publish ans

/-- `staticMqttCallback`, which hands the payload to `handleMqttCommand`. -/
def staticMqttCallback (lib : ArduinoJson) (ans : Answers) (payload : CString) : LoopM Unit := do
  if (← get).mqtt.commandCallback then
    let connected ← isConnected ans
    let now ← millis ans
    let handled := handleMqttCommand lib ⟨connected, now⟩ (← get).gate payload
    modify fun w => { w with gate := handled.1 }
    handled.2.forM (perform ans)
  else return ()

/-- `mqtt_handle` runs the callback on every message that has arrived. -/
def mqttHandle (lib : ArduinoJson) (ans : Answers) (this : Option Nat) : LoopM Unit := do
  TinyGsm.call ans .mqttHandle this
  ans.mqttHandle.forM (staticMqttCallback lib ans)

def loop (lib : ArduinoJson) (ans : Answers) : LoopM Unit := do
  let m := (← get).mqtt
  if !m.connected || m.modem.isNone then return ()
  else
    mqttHandle lib ans m.modem
    if ← TinyGsm.mqttConnected ans m.modem then return ()
    else modifyMqtt fun m => { m.incrementFailStreak with connected := false }

end MqttManager

end Firmware
