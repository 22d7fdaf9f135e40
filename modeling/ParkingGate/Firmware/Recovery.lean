-- SUMMARY: The part of `loop()` in `main.ino` that recovers the PPP connection: the STATE_PPP_CONNECTING case, and how the other states hand over to it.
import ParkingGate.Base.Trace
import ParkingGate.Firmware.PppManager

/-!
# PPP recovery in the main loop

`LoopState` holds what the PPP part of `loop()` reads and writes. `pppConnecting` is the
STATE_PPP_CONNECTING case. The other cases touch these variables only when they change
the device state, which the remaining events are for.
-/

namespace Firmware

open Config

inductive DeviceState where
  | modemInit | pppConnecting | pppUp | mqttConnecting | mqttConnected
  deriving DecidableEq

structure LoopState where
  deviceState : DeviceState
  stateEntryTime : UInt32
  forcePppRestart : Bool
  /-- The static `pppStarted` of the STATE_PPP_CONNECTING case. -/
  pppStarted : Bool
  ppp : PppManager

/-- One iteration of `loop()` in STATE_PPP_CONNECTING: the clock at its beginning, the
    clock inside `start()`, and what `waitForPppUp` sees. -/
structure PppIteration where
  now : UInt32
  startMillis : UInt32
  wait : PppAnswers

inductive LoopEffect where
  | appendDiagnostic (level : String) (event message : String)
  | hardReset
  deriving DecidableEq

namespace LoopState

/-- After `setup()`, with the modem not yet initialised. -/
def boot (millis : UInt32) : LoopState where
  deviceState := .modemInit
  stateEntryTime := millis
  forcePppRestart := false
  pppStarted := false
  ppp := PppManager.create

/-- The first half of the case: start PPP if it is to be started. -/
def startPpp (s : LoopState) (it : PppIteration) : LoopState :=
  let pppStarted := if s.forcePppRestart then false else s.pppStarted
  if !pppStarted then
    let (ok, ppp) := s.ppp.start it.startMillis
    { s with forcePppRestart := false, pppStarted := ok, ppp := ppp }
  else { s with forcePppRestart := false, pppStarted := pppStarted }

/-- The poll in the middle of the case. -/
def poll (s : LoopState) (it : PppIteration) : Bool × LoopState :=
  let (up, ppp) := s.ppp.waitForPppUp pppTimeoutMs it.wait
  (up, { s with ppp := ppp })

/-- The branch taken when the window since `stateEntryTime` has expired. -/
def expire (s : LoopState) (it : PppIteration) : LoopState × List LoopEffect :=
  let s := { s with ppp := s.ppp.stop, pppStarted := false, stateEntryTime := it.now }
  if s.ppp.shouldHardReset then
    ({ s with ppp := s.ppp.resetPppFailStreak, deviceState := .modemInit },
      [.appendDiagnostic "warn" "modem_reset" ("n=" ++ toString s.ppp.pppFailStreak.toNat),
        .hardReset])
  else (s, [])

/-- One iteration in STATE_PPP_CONNECTING. -/
def pppConnecting (s : LoopState) (it : PppIteration) : LoopState × List LoopEffect :=
  let (up, s) := (s.startPpp it).poll it
  if up then
    ({ s with ppp := s.ppp.resetPppFailStreak, deviceState := .pppUp, pppStarted := false }, [])
  else if it.now - s.stateEntryTime > pppTimeoutMs then s.expire it
  else (s, [])

/-- Leaving the MQTT states for a new PPP session. -/
def rebuildPpp (s : LoopState) (now : UInt32) : LoopState :=
  { s with
    ppp := s.ppp.stop
    forcePppRestart := true
    deviceState := .pppConnecting
    stateEntryTime := now }

/-- Entering a state. -/
def enter (s : LoopState) (deviceState : DeviceState) (now : UInt32) : LoopState :=
  { s with deviceState := deviceState, stateEntryTime := now }

end LoopState

/-- What an iteration of `loop()` does to the PPP part. -/
inductive LoopEvent where
  /-- `modemManager->init()` succeeds in STATE_MODEM_INIT. -/
  | modemReady (now : UInt32)
  | pppConnecting (it : PppIteration)
  /-- STATE_PPP_UP has set up MQTT. -/
  | mqttReady (now : UInt32)
  | mqttUp (now : UInt32)
  | mqttLost (now : UInt32)
  /-- A PPP rebuild, by MQTT failures, by the MQTT timeout or out of band. -/
  | rebuildPpp (now : UInt32)

namespace LoopState

/-- One event; `none` when the device is not in a state where it happens. -/
def step (s : LoopState) : LoopEvent → Option (LoopState × List LoopEffect)
  | .modemReady now =>
    if s.deviceState = .modemInit then some (s.enter .pppConnecting now, []) else none
  | .pppConnecting it =>
    if s.deviceState = .pppConnecting then some (s.pppConnecting it) else none
  | .mqttReady now =>
    if s.deviceState = .pppUp then some (s.enter .mqttConnecting now, []) else none
  | .mqttUp now =>
    if s.deviceState = .mqttConnecting then some (s.enter .mqttConnected now, []) else none
  | .mqttLost now =>
    if s.deviceState = .mqttConnected then some (s.enter .mqttConnecting now, []) else none
  | .rebuildPpp now =>
    if s.deviceState = .mqttConnecting ∨ s.deviceState = .mqttConnected then
      some (s.rebuildPpp now, [])
    else none

/-- The window since `stateEntryTime` expires in this iteration without PPP coming up. -/
def Expires (s : LoopState) (it : PppIteration) : Prop :=
  ((s.startPpp it).poll it).1 = false ∧ it.now - s.stateEntryTime > pppTimeoutMs

/-- The failure streak that an expiring window is judged by. -/
def streakAtExpiry (s : LoopState) (it : PppIteration) : UInt8 :=
  ((s.startPpp it).poll it).2.ppp.pppFailStreak

/-- The iteration begins by starting PPP. -/
def ToStart (s : LoopState) : Prop := s.forcePppRestart = true ∨ s.pppStarted = false

instance (s : LoopState) : Decidable s.ToStart := inferInstanceAs (Decidable (_ ∨ _))

/-- The PPP manager's own timer has run out by the time the iteration polls it: an earlier
    poll had stopped the session, or this one comes more than the timeout after `start()`. -/
def OwnTimerExpired (s : LoopState) (it : PppIteration) : Prop :=
  (¬ s.ToStart ∧ s.ppp.pppStarting = false) ∨
    it.wait.millis - (if s.ToStart then it.startMillis else s.ppp.pppStartTime) > pppTimeoutMs

instance (s : LoopState) (it : PppIteration) : Decidable (s.Expires it) :=
  inferInstanceAs (Decidable (_ ∧ _))

end LoopState

end Firmware
