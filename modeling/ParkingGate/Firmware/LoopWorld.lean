-- SUMMARY: The state of the main loop and the modem under it, the answers the modem gives in one iteration, and the calls on its instances.
import ParkingGate.Base.Hoare
import ParkingGate.Firmware.CommandHandler
import ParkingGate.Firmware.Recovery

/-!
# The main loop and its modem

`LoopWorld` is everything `loop()` keeps between two iterations, with the MQTT session of
the modem and a record of every call made on a `TinyGsm` instance: through which pointer,
which instance `PppManager` owned at that moment, and the failure streak at that moment.
The record is there to be reasoned about; nothing reads it.

Whatever the environment decides in one iteration is in `Answers`: the clock, the modem,
the network and the out-of-band server.
-/

namespace Firmware

open Config

/-! ## The MQTT manager's data -/

/-- `Backoff` with the base and the maximum of the MQTT manager. -/
structure Backoff where
  currentMs : UInt32

namespace Backoff

def create : Backoff := ⟨backoffBaseMs⟩

def getNextDelay (b : Backoff) : UInt32 := b.currentMs

def reset (_ : Backoff) : Backoff := ⟨backoffBaseMs⟩

def increment (b : Backoff) : Backoff :=
  let next := b.currentMs * 2
  if next > backoffMaxMs then ⟨backoffMaxMs⟩ else ⟨next⟩

end Backoff

/-- The fields of `MqttManager`, less the host and the credentials. -/
structure MqttManager where
  backoff : Backoff
  connected : Bool
  mqttFailStreak : UInt8
  lastConnectAttempt : UInt32
  lastStatusPublish : UInt32
  /-- `commandCallback` is `handleMqttCommand`, not null. -/
  commandCallback : Bool
  /-- The pointer to the `TinyGsm` instance, by the number it was created under. -/
  modem : Option Nat
  useCustomSettings : Bool

namespace MqttManager

def create : MqttManager where
  backoff := Backoff.create
  connected := false
  mqttFailStreak := 0
  lastConnectAttempt := 0
  lastStatusPublish := 0
  commandCallback := false
  modem := none
  useCustomSettings := false

def resetMqttFailStreak (m : MqttManager) : MqttManager := { m with mqttFailStreak := 0 }

def incrementFailStreak (m : MqttManager) : MqttManager :=
  { m with mqttFailStreak := m.mqttFailStreak + 1 }

def shouldRebuildPpp (m : MqttManager) : Bool := m.mqttFailStreak ≥ mqttFailsBeforePppRebuild

/-- The backoff test of `connect`. -/
def shouldWait (m : MqttManager) (now : UInt32) : Bool :=
  m.lastConnectAttempt > 0 && now - m.lastConnectAttempt < m.backoff.getNextDelay

end MqttManager

/-! ## The modem -/

/-- The MQTT session the modem has with the broker. -/
inductive MqttSession where
  | down
  /-- Up, and not subscribed to `MQTT_CMD_TOPIC`. -/
  | unsubscribed
  | subscribed
  deriving DecidableEq

def MqttSession.isUp : MqttSession → Bool
  | .down => false
  | .unsubscribed | .subscribed => true

/-- The functions called on a `TinyGsm` instance. -/
inductive ModemMethod where
  | mqttBegin | mqttConnected | mqttConnect | mqttSetCallback | mqttSubscribe | mqttDisconnect
  | mqttPublish | mqttHandle
  | gprsDisconnect | getRegistrationStatus | getSignalQuality | setNetworkAPN | setNetworkActive
  | getLocalIP
  | httpsBegin | httpsSetUrl | httpsAddHeader | httpsGet | httpsEnd
  deriving DecidableEq

/-- A call on an instance, with what it is judged by. -/
structure ModemCall where
  method : ModemMethod
  /-- The pointer it is made through; `none` is the null pointer. -/
  through : Option Nat
  /-- The instance `PppManager` owns at that moment. -/
  owned : Option Nat
  mqttFailStreak : UInt8

/-- What `mqtt_connect` does to the session, whatever it returns. -/
inductive SessionChange where
  | kept | lost
  /-- A new session, which has no subscriptions. -/
  | opened
  deriving DecidableEq

def SessionChange.apply (session : MqttSession) : SessionChange → MqttSession
  | .kept   => session
  | .lost   => .down
  | .opened => .unsubscribed

/-- What the environment decides in one iteration of `loop()`. The clock is read and the
    modem is called several times, and the answers are numbered; `mqtt_connect`,
    `mqtt_subscribe` and `mqtt_disconnect` are called at most once. -/
structure Answers where
  millis : Nat → UInt32
  /-- The MQTT session drops before the call of that number. -/
  drops : Nat → Bool
  modemInit : Bool
  /-- The clock inside `PppManager::start`, and what `waitForPppUp` sees. -/
  pppStart : UInt32
  pppWait : PppAnswers
  /-- What `mqtt_connect` returns, and what it does to the session. -/
  mqttConnect : Bool × SessionChange
  mqttSubscribe : Bool
  /-- `mqtt_disconnect` takes effect. -/
  mqttDisconnect : Bool
  mqttPublish : Nat → Bool
  /-- The payloads of the messages that `mqtt_handle` delivers. -/
  mqttHandle : List CString
  httpsSetUrl : Bool
  httpsGet : Int
  /-- The number of batches the diagnostic log fills. -/
  diagnosticBatches : Nat
  /-- The clock in `setup()`, should the iteration restart the device. -/
  bootMillis : UInt32

/-! ## The state -/

structure LoopWorld where
  main : LoopState
  modemInitRetries : Nat
  -- The statics of the STATE_PPP_UP case.
  pppUpTime : UInt32
  mqttSetup : Bool
  mqttInitialized : Bool
  lastOobPollTime : UInt32
  mqtt : MqttManager
  gate : GateControl
  session : MqttSession
  /-- `esp_restart()` was called. -/
  restarting : Bool
  /-- The clock readings and the modem calls of this iteration so far. -/
  reads : Nat
  answered : Nat
  /-- Every call on an instance since the first boot. -/
  calls : List ModemCall

/-- A computation of `loop()`. -/
abbrev LoopM := StateM LoopWorld

namespace LoopWorld

/-- After `setup()`. The modem keeps its session across a restart of the ESP32. -/
def boot (millis : UInt32) (session : MqttSession) (calls : List ModemCall) : LoopWorld where
  main := LoopState.boot millis
  modemInitRetries := 0
  pppUpTime := 0
  mqttSetup := false
  mqttInitialized := false
  lastOobPollTime := 0
  mqtt := MqttManager.create
  gate := GateControl.init
  session := session
  restarting := false
  reads := 0
  answered := 0
  calls := calls

/-- The world after a call on an instance: it is recorded, and the session may be gone. -/
def called (w : LoopWorld) (ans : Answers) (method : ModemMethod) (through : Option Nat) :
    LoopWorld :=
  { w with
    session := if ans.drops w.answered then .down else w.session
    answered := w.answered + 1
    calls := w.calls ++ [⟨method, through, w.main.ppp.tinyGsmModem, w.mqtt.mqttFailStreak⟩] }

end LoopWorld

/-- `millis()`. -/
def millis (ans : Answers) : LoopM UInt32 := do
  let w ← get
  set { w with reads := w.reads + 1 }
  return ans.millis w.reads

def modifyMain (f : LoopState → LoopState) : LoopM Unit := modify fun w => { w with main := f w.main }

def modifyMqtt (f : MqttManager → MqttManager) : LoopM Unit :=
  modify fun w => { w with mqtt := f w.mqtt }

/-! ## Calls on an instance -/

namespace TinyGsm

def call (ans : Answers) (method : ModemMethod) (this : Option Nat) : LoopM Unit :=
  modify fun w => w.called ans method this

/-- Truthful about the session. -/
def mqttConnected (ans : Answers) (this : Option Nat) : LoopM Bool := do
  call ans .mqttConnected this
  return (← get).session.isUp

def mqttConnect (ans : Answers) (this : Option Nat) : LoopM Bool := do
  call ans .mqttConnect this
  modify fun w => { w with session := ans.mqttConnect.2.apply w.session }
  return ans.mqttConnect.1

def mqttSubscribe (ans : Answers) (this : Option Nat) : LoopM Bool := do
  call ans .mqttSubscribe this
  modify fun w =>
    { w with session := if ans.mqttSubscribe ∧ w.session.isUp then .subscribed else w.session }
  return ans.mqttSubscribe

def mqttDisconnect (ans : Answers) (this : Option Nat) : LoopM Unit := do
  call ans .mqttDisconnect this
  modify fun w => { w with session := if ans.mqttDisconnect then .down else w.session }

def mqttPublish (ans : Answers) (this : Option Nat) : LoopM Bool := do
  let w ← get
  call ans .mqttPublish this
  return ans.mqttPublish w.answered

end TinyGsm

end Firmware
