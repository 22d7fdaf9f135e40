-- SUMMARY: The handler of MQTT commands (`handleMqttCommand` in `main.ino`), its exit paths, and runs of it over a clock.
import ParkingGate.Base.Clock32
import ParkingGate.Base.Trace
import ParkingGate.Firmware.GateControl
import ParkingGate.Firmware.Protocol

/-!
# Handling a gate command

`handleMqttCommand` maps the state of `GateControl` and a payload to the next state
and to what it did to the outside: relay pulses and published ACKs, in order.
`Handled` lists its exit paths once; the later modules argue from it only.

`Device` runs the handler over a sequence of payloads and records when the relay was
pulsed and for which request.
-/

namespace Firmware

/-- What the handler reads of its surroundings. -/
structure Env where
  /-- `mqttManager != nullptr && mqttManager->isConnected()`. -/
  mqttConnected : Bool
  /-- `millis()` at the cooldown check. -/
  millis : UInt32

/-- What the handler does to the outside. -/
inductive Effect where
  /-- A completed relay pulse, with the request it was for and the reading before it. -/
  | pulse (requestId : CString) (nowMs : UInt32)
  /-- A message handed to the broker on the ACK topic. -/
  | publishAck (json : CString)

/-- The relay pulse always completes (`relay.cpp`). -/
def Relay.activatePulse : Bool := true

/-- The id that a rejected payload is answered with. -/
def extractRequestId (lib : ArduinoJson) (payload : CString) : CString :=
  match (lib.deserializeJson 256 payload).bind (·.member "requestId") with
  | some value => (value.asString.getD CString.empty).strncpy 36
  | none       => CString.empty

/-- A refusal with an error code. -/
def nack (lib : ArduinoJson) (requestId : CString) (errorCode : String) : Effect :=
  .publishAck (Protocol.createAck lib requestId false (some (CString.ofAscii errorCode)) 256)

/-- The success message. -/
def okAck (lib : ArduinoJson) (requestId : CString) : Effect :=
  .publishAck (Protocol.createAck lib requestId true none 256)

def handleMqttCommand (lib : ArduinoJson) (env : Env) (g : GateControl) (payload : CString) :
    GateControl × List Effect :=
  if !env.mqttConnected then (g, [])
  else
    match Protocol.parseCommand lib payload with
    | none => (g, [nack lib (extractRequestId lib payload) "BAD_PAYLOAD"])
    | some cmd =>
      if cmd.requestId.isEmpty then (g, [nack lib cmd.requestId "BAD_PAYLOAD"])
      else if cmd.command ≠ CString.ofAscii "open" then
        (g, [nack lib cmd.requestId "UNKNOWN_COMMAND"])
      -- Dedupe comes before the cooldown: a repeated request succeeds at any time.
      else if g.wasProcessed (some cmd.requestId) then (g, [okAck lib cmd.requestId])
      else
        let nowMs := env.millis
        if !(g.canExecuteNow nowMs).1 then (g, [nack lib cmd.requestId "COOLDOWN"])
        else if Relay.activatePulse then
          ((g.recordOpen nowMs).markProcessed (some cmd.requestId),
            [.pulse cmd.requestId nowMs, okAck lib cmd.requestId])
        else (g, [nack lib cmd.requestId "RELAY_FAIL"])

/-! ## Exit paths -/

/-- The payload is a well-formed `open` command and the handler gets to the dedupe check. -/
structure OpenCommand (lib : ArduinoJson) (env : Env) (payload : CString)
    (cmd : CommandResult) : Prop where
  connected : env.mqttConnected = true
  parsed : Protocol.parseCommand lib payload = some cmd
  nonempty : cmd.requestId.isEmpty = false
  isOpen : cmd.command = CString.ofAscii "open"

/-- The ways one message can be handled: the state and the effects it leaves. -/
inductive Handled (lib : ArduinoJson) (env : Env) (g : GateControl) (payload : CString) :
    GateControl × List Effect → Prop where
  | ignored (h : env.mqttConnected = false) : Handled lib env g payload (g, [])
  | unparsed (h : Protocol.parseCommand lib payload = none) :
      Handled lib env g payload (g, [nack lib (extractRequestId lib payload) "BAD_PAYLOAD"])
  | noId (cmd : CommandResult) (h : Protocol.parseCommand lib payload = some cmd)
      (empty : cmd.requestId.isEmpty = true) :
      Handled lib env g payload (g, [nack lib cmd.requestId "BAD_PAYLOAD"])
  | unknown (cmd : CommandResult) (h : Protocol.parseCommand lib payload = some cmd)
      (notOpen : cmd.command ≠ CString.ofAscii "open") :
      Handled lib env g payload (g, [nack lib cmd.requestId "UNKNOWN_COMMAND"])
  | repeated (cmd : CommandResult) (h : OpenCommand lib env payload cmd)
      (hit : g.wasProcessed (some cmd.requestId) = true) :
      Handled lib env g payload (g, [okAck lib cmd.requestId])
  | cooldown (cmd : CommandResult) (h : OpenCommand lib env payload cmd)
      (miss : g.wasProcessed (some cmd.requestId) = false)
      (wait : (g.canExecuteNow env.millis).1 = false) :
      Handled lib env g payload (g, [nack lib cmd.requestId "COOLDOWN"])
  | opened (cmd : CommandResult) (h : OpenCommand lib env payload cmd)
      (miss : g.wasProcessed (some cmd.requestId) = false)
      (ready : (g.canExecuteNow env.millis).1 = true) :
      Handled lib env g payload
        ((g.recordOpen env.millis).markProcessed (some cmd.requestId),
          [.pulse cmd.requestId env.millis, okAck lib cmd.requestId])

theorem handled (lib : ArduinoJson) (env : Env) (g : GateControl) (payload : CString) :
    Handled lib env g payload (handleMqttCommand lib env g payload) := by
  unfold handleMqttCommand
  by_cases hconn : env.mqttConnected = true
  case neg =>
    simp only [Bool.not_eq_true] at hconn
    simpa [hconn] using Handled.ignored hconn
  simp only [hconn, Bool.not_true, Bool.false_eq_true, if_false]
  cases hparse : Protocol.parseCommand lib payload with
  | none => exact .unparsed hparse
  | some cmd =>
    simp only
    split
    · rename_i hempty
      exact .noId cmd hparse hempty
    rename_i hempty
    split
    · rename_i hopen
      exact .unknown cmd hparse hopen
    rename_i hopen
    have h : OpenCommand lib env payload cmd :=
      ⟨hconn, hparse, by simpa using hempty, by simpa using hopen⟩
    split
    · rename_i hit
      exact .repeated cmd h hit
    rename_i hmiss
    simp only [Bool.not_eq_true] at hmiss
    split
    · rename_i hwait
      exact .cooldown cmd h hmiss (by simpa using hwait)
    rename_i hready
    exact .opened cmd h hmiss (by simpa using hready)

/-- A fresh `open` command outside the cooldown pulses the relay. -/
theorem handleMqttCommand_opened {lib : ArduinoJson} {env : Env} {g : GateControl}
    {payload : CString} {cmd : CommandResult} (h : OpenCommand lib env payload cmd)
    (miss : g.wasProcessed (some cmd.requestId) = false)
    (ready : (g.canExecuteNow env.millis).1 = true) :
    handleMqttCommand lib env g payload =
      ((g.recordOpen env.millis).markProcessed (some cmd.requestId),
        [.pulse cmd.requestId env.millis, okAck lib cmd.requestId]) := by
  simp [handleMqttCommand, h.connected, h.parsed, h.nonempty, h.isOpen, miss, ready,
    Relay.activatePulse]

/-! ## Runs -/

/-- The device as the handler sees it: the gate, the real time in milliseconds, and
    the pulses so far with the real time of their clock reading, oldest first. -/
structure Device where
  gate : GateControl
  clock : Nat
  pulses : List (CString × Nat)

/-- The device after `GateControl::init` at real time `bootedAt`. -/
def Device.boot (bootedAt : Nat) : Device where
  gate := GateControl.init
  clock := bootedAt
  pulses := []

/-- A message and the time that passes before its cooldown check. -/
structure Delivery where
  elapsed : Nat
  connected : Bool
  payload : CString

namespace Device

/-- What the handler sees of a delivery. -/
def env (d : Device) (m : Delivery) : Env where
  mqttConnected := m.connected
  millis := Clock32.reading (d.clock + m.elapsed)

def pulsedIds (d : Device) : List CString := d.pulses.map (·.1)

/-- The requests pulsed for in a list of effects. -/
def pulsesIn (effects : List Effect) : List CString :=
  effects.filterMap fun
    | .pulse requestId _ => some requestId
    | .publishAck _      => none

/-- Handle one message. The handler is total, so every step is enabled. -/
def step (lib : ArduinoJson) (d : Device) (m : Delivery) : Option Device :=
  let now := d.clock + m.elapsed
  let (gate, effects) := handleMqttCommand lib (d.env m) d.gate m.payload
  some {
    gate := gate
    clock := now
    pulses := d.pulses ++ (pulsesIn effects).map fun requestId => (requestId, now) }

/-- A step either leaves the gate and the pulses alone, or it accepts a fresh command
    outside the cooldown. -/
theorem step_cases {lib : ArduinoJson} {d d' : Device} {m : Delivery}
    (h : step lib d m = some d') :
    (d'.gate = d.gate ∧ d'.clock = d.clock + m.elapsed ∧ d'.pulses = d.pulses) ∨
    ∃ cmd, OpenCommand lib (d.env m) m.payload cmd ∧
      d.gate.wasProcessed (some cmd.requestId) = false ∧
      (d.gate.canExecuteNow (d.env m).millis).1 = true ∧
      d' = {
        gate := (d.gate.recordOpen (d.env m).millis).markProcessed (some cmd.requestId)
        clock := d.clock + m.elapsed
        pulses := d.pulses ++ [(cmd.requestId, d.clock + m.elapsed)] } := by
  simp only [step, Option.some.injEq] at h
  subst h
  generalize hr : handleMqttCommand lib (d.env m) d.gate m.payload = r
  have hhandled := hr ▸ handled lib (d.env m) d.gate m.payload
  cases hhandled with
  | ignored | unparsed | noId | unknown | repeated | cooldown =>
    exact .inl ⟨rfl, rfl, by simp [pulsesIn, nack, okAck]⟩
  | opened cmd hcmd miss ready =>
    exact .inr ⟨cmd, hcmd, miss, ready, by simp [pulsesIn, okAck]⟩

/-- A fresh command outside the cooldown is accepted. -/
theorem step_opened {lib : ArduinoJson} {d : Device} {m : Delivery} {cmd : CommandResult}
    (h : OpenCommand lib (d.env m) m.payload cmd)
    (miss : d.gate.wasProcessed (some cmd.requestId) = false)
    (ready : (d.gate.canExecuteNow (d.env m).millis).1 = true) :
    step lib d m = some {
      gate := (d.gate.recordOpen (d.env m).millis).markProcessed (some cmd.requestId)
      clock := d.clock + m.elapsed
      pulses := d.pulses ++ [(cmd.requestId, d.clock + m.elapsed)] } := by
  simp [step, handleMqttCommand_opened h miss ready, pulsesIn, okAck]

end Device

end Firmware
