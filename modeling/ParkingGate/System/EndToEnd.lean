-- SUMMARY: Backend, broker and device together: a reported success means that the relay was pulsed for the request.
import ParkingGate.Backend.AckSoundness
import ParkingGate.Firmware.CommandHandler

/-!
# End to end

The system is the backend's gate device service, the firmware's command handler, and a
broker between them that may lose, delay, reorder and duplicate messages: it may deliver
any command and any ACK that was ever published, at any time and any number of times. The
device may reboot, also in the middle of handling a command, and so forget what it did.

One invariant links the three places an id can be: in the dedupe cache, in an ACK with
`ok: true`, and in a resolved attempt. Each is the id of an earlier pulse.
-/

namespace ParkingGate

open Backend Firmware

/-- The check of a request id in `gate.controller.ts`; `randomUUID` meets it. -/
def isUuid (requestId : String) : Bool :=
  let isHex := fun c : Char =>
    c.isDigit || ('a' ≤ c && c ≤ 'f') || ('A' ≤ c && c ≤ 'F')
  requestId.toList.length = 36 &&
    requestId.toList.zipIdx.all fun (c, i) =>
      if i = 8 || i = 13 || i = 18 || i = 23 then c = '-' else isHex c

/-- `JSON.stringify` of a command and `JSON.parse` of an ACK. -/
structure BackendJson where
  stringify : Command String → CString
  parse : CString → Option (Ack String)

/-- The id of a message between the two sides. -/
def IsMessageId (id : CString) : Prop :=
  id = CString.empty ∨ ∃ requestId, isUuid requestId = true ∧ id = CString.ofAscii requestId

/-- Each JSON library decodes what the other one encoded, if it decodes it at all. -/
structure DecodesEachOther (lib : ArduinoJson) (json : BackendJson) : Prop where
  command : ∀ cmd capacity doc, isUuid cmd.requestId = true →
    lib.deserializeJson capacity (json.stringify cmd) = some doc →
    doc.member "requestId" = some (.str (ascii cmd.requestId))
  ack : ∀ id ok errorCode ack, IsMessageId id →
    json.parse (Protocol.createAck lib id ok errorCode 256) = some ack →
    ack.ok = ok ∧ CString.ofAscii ack.requestId = id

structure System where
  backend : GateDevice String
  gate : GateControl
  /-- The requests the relay completed a pulse for. -/
  pulsed : List CString
  /-- Every ACK the device published. -/
  acks : List CString

inductive SystemEvent where
  | backend (e : GateEvent String)
  /-- The broker delivers the `k`-th command. The device may crash after its first
      effects and reboot. -/
  | deliverCommand (k : Nat) (env : Env) (crash : Option Nat)
  /-- The broker delivers the `k`-th ACK. -/
  | deliverAck (k : Nat)
  | reboot

namespace System

def init : System where
  backend := GateDevice.init
  gate := GateControl.init
  pulsed := []
  acks := []

/-- The events of the backend alone. ACKs come from the broker, and the controller lets
    only UUIDs through. -/
def isLocal : GateEvent String → Bool
  | .openGate requestId _ _ => isUuid requestId
  | .ack _                  => false
  | _                       => true

def acksIn (effects : List Effect) : List CString :=
  effects.filterMap fun
    | .publishAck json => some json
    | .pulse _ _       => none

def step (lib : ArduinoJson) (json : BackendJson) (cfg : GateConfig) (s : System) :
    SystemEvent → Option System
  | .backend e =>
    if isLocal e then (s.backend.step cfg e).map fun backend => { s with backend := backend }
    else none
  | .deliverCommand k env crash =>
    s.backend.published[k]?.map fun cmd =>
      let out := handleMqttCommand lib env s.gate (json.stringify cmd)
      let effects := match crash with
        | none   => out.2
        | some n => out.2.take n
      { s with
        gate := if crash.isNone then out.1 else GateControl.init
        pulsed := s.pulsed ++ Device.pulsesIn effects
        acks := s.acks ++ acksIn effects }
  | .deliverAck k =>
    s.acks[k]?.map fun text =>
      match json.parse text with
      | none     => s
      | some ack => { s with backend := s.backend.handleAckMessage ack }
  | .reboot => some { s with gate := GateControl.init }

/-- Whenever a call of `openGate` has returned `ok: true`, the relay was pulsed for its
    request id. -/
def SuccessMeansPulsed (s : System) : Prop :=
  ∀ (i : Nat) (c : Call String), s.backend.calls[i]? = some c → c.state = .done (.ok ()) →
    CString.ofAscii c.requestId ∈ s.pulsed

/-! ## The device -/

/-- An ACK the device may have published: it reports success only of a pulsed request. -/
def HonestAck (lib : ArduinoJson) (pulsed : List CString) (text : CString) : Prop :=
  ∃ id ok errorCode, IsMessageId id ∧ text = Protocol.createAck lib id ok errorCode 256 ∧
    (ok = true → id ∈ pulsed)

/-- The cache holds only pulsed requests. -/
structure CachePulsed (gate : GateControl) (pulsed : List CString) : Prop where
  filling : gate.cache.Filling
  pulsed : ∀ id ∈ gate.cache.contents, id ∈ pulsed

theorem HonestAck.mono {lib : ArduinoJson} {pulsed more : List CString} {text : CString}
    (h : HonestAck lib pulsed text) : HonestAck lib (pulsed ++ more) text := by
  obtain ⟨id, ok, errorCode, hid, rfl, hok⟩ := h
  exact ⟨id, ok, errorCode, hid, rfl, fun h => List.mem_append_left _ (hok h)⟩

theorem CachePulsed.init (pulsed : List CString) : CachePulsed GateControl.init pulsed where
  filling := GateControl.init_filling
  pulsed := by simp

private theorem ofAscii_strncpy_of_isUuid {requestId : String} (h : isUuid requestId = true) :
    (CString.ofAscii requestId).strncpy 36 = CString.ofAscii requestId := by
  refine CString.strncpy_of_length_le ((List.takeWhile_sublist _).length_le.trans ?_)
  simp only [isUuid, Bool.and_eq_true, decide_eq_true_eq] at h
  simp [ascii, h.1]

section Device

variable {lib : ArduinoJson} {json : BackendJson} {cmd : Command String}

/-- The device reads the request id the backend wrote. -/
private theorem parsed_requestId (hjson : DecodesEachOther lib json)
    (huuid : isUuid cmd.requestId = true) {parsed : CommandResult}
    (h : Protocol.parseCommand lib (json.stringify cmd) = some parsed) :
    parsed.requestId = CString.ofAscii cmd.requestId := by
  obtain ⟨doc, value, requestId, hdoc, hvalue, hstr, heq⟩ := Protocol.parseCommand_requestId h
  rw [hjson.command cmd 512 doc huuid hdoc, Option.some.injEq] at hvalue
  subst hvalue
  obtain rfl := Option.some.inj hstr
  exact heq.trans (ofAscii_strncpy_of_isUuid huuid)

private theorem extractRequestId_isMessageId (hjson : DecodesEachOther lib json)
    (huuid : isUuid cmd.requestId = true) :
    IsMessageId (extractRequestId lib (json.stringify cmd)) := by
  unfold extractRequestId
  cases hdoc : lib.deserializeJson 256 (json.stringify cmd) with
  | none => exact .inl rfl
  | some doc =>
    rw [Option.bind_some, hjson.command cmd 256 doc huuid hdoc]
    exact .inr ⟨cmd.requestId, huuid, ofAscii_strncpy_of_isUuid huuid⟩

/-- However far the device gets with its effects, the ACKs among them are honest about the
    pulses up to there. -/
def HonestEffects (lib : ArduinoJson) (pulsed : List CString) (effects : List Effect) : Prop :=
  ∀ n, ∀ text ∈ acksIn (effects.take n),
    HonestAck lib (pulsed ++ Device.pulsesIn (effects.take n)) text

theorem HonestEffects.nil {pulsed : List CString} : HonestEffects lib pulsed [] := by
  simp [HonestEffects, acksIn]

theorem HonestEffects.ack {pulsed : List CString} {id : CString} {ok : Bool}
    {errorCode : Option CString} (hid : IsMessageId id) (hok : ok = true → id ∈ pulsed) :
    HonestEffects lib pulsed [.publishAck (Protocol.createAck lib id ok errorCode 256)] := by
  intro n text htext
  cases n with
  | zero => simp [acksIn] at htext
  | succ n =>
    simp only [acksIn, List.take_succ_cons, List.take_nil, List.filterMap_cons, List.filterMap_nil,
      List.mem_singleton] at htext
    subst htext
    exact HonestAck.mono ⟨id, ok, errorCode, hid, rfl, hok⟩

/-- The ACK is only among the effects if the pulse before it is. -/
theorem HonestEffects.pulse_ack {pulsed : List CString} {id : CString} {nowMs : UInt32}
    (hid : IsMessageId id) : HonestEffects lib pulsed [.pulse id nowMs, okAck lib id] := by
  intro n text htext
  match n with
  | 0 => simp [acksIn] at htext
  | 1 => simp [acksIn] at htext
  | n + 2 =>
    simp only [acksIn, okAck, List.take_succ_cons, List.take_nil, List.filterMap_cons,
      List.filterMap_nil, List.mem_singleton] at htext
    subst htext
    exact ⟨_, _, _, hid, rfl, fun _ => by simp [Device.pulsesIn]⟩

/-- What one message does: every ACK it sends is honest about the pulses up to that point,
    and the cache keeps holding pulsed requests only. -/
theorem handleMqttCommand_honest (hjson : DecodesEachOther lib json)
    (huuid : isUuid cmd.requestId = true) (env : Env) {gate : GateControl} {pulsed : List CString}
    (h : CachePulsed gate pulsed) :
    let out := handleMqttCommand lib env gate (json.stringify cmd)
    CachePulsed out.1 (pulsed ++ Device.pulsesIn out.2) ∧ HonestEffects lib pulsed out.2 := by
  have hid : ∀ parsed, Protocol.parseCommand lib (json.stringify cmd) = some parsed →
      IsMessageId parsed.requestId := fun parsed hparsed =>
    .inr ⟨cmd.requestId, huuid, parsed_requestId hjson huuid hparsed⟩
  have hkept : CachePulsed gate (pulsed ++ []) := by simpa using h
  simp only
  generalize hr : handleMqttCommand lib env gate (json.stringify cmd) = out
  have hhandled := hr ▸ handled lib env gate (json.stringify cmd)
  cases hhandled with
  | ignored => exact ⟨hkept, .nil⟩
  | unparsed => exact ⟨hkept, .ack (extractRequestId_isMessageId hjson huuid) (by simp)⟩
  | noId parsed hparsed => exact ⟨hkept, .ack (hid parsed hparsed) (by simp)⟩
  | unknown parsed hparsed => exact ⟨hkept, .ack (hid parsed hparsed) (by simp)⟩
  | cooldown parsed hopen => exact ⟨hkept, .ack (hid parsed hopen.parsed) (by simp)⟩
  | repeated parsed hopen hit =>
    refine ⟨hkept, .ack (hid parsed hopen.parsed) fun _ => h.pulsed _ ?_⟩
    exact (GateControl.wasProcessed_iff h.filling hopen.nonempty).mp hit
  | opened parsed hopen miss ready =>
    have hlen := Protocol.length_requestId_le hopen.parsed
    refine ⟨⟨?_, fun id hmem => ?_⟩, .pulse_ack (hid parsed hopen.parsed)⟩
    · rw [GateControl.markProcessed_cache hopen.nonempty, GateControl.recordOpen_cache]
      exact h.filling.push _
    · rw [GateControl.markProcessed_cache hopen.nonempty, GateControl.recordOpen_cache,
        RingBuffer.contents_push, CString.strncpy_of_length_le hlen] at hmem
      rcases List.mem_append.mp (List.mem_of_mem_drop hmem) with hmem | hmem
      · exact List.mem_append_left _ (h.pulsed id hmem)
      · rw [List.mem_singleton.mp hmem]
        simp [Device.pulsesIn]

end Device

/-! ## The invariant -/

structure Inv (lib : ArduinoJson) (s : System) : Prop where
  cache : CachePulsed s.gate s.pulsed
  acks : ∀ text ∈ s.acks, HonestAck lib s.pulsed text
  backend : s.backend.SucceedsOnly fun requestId => CString.ofAscii requestId ∈ s.pulsed
  ids : s.backend.IdsIn fun requestId => isUuid requestId = true

theorem init_inv (lib : ArduinoJson) : Inv lib init where
  cache := .init _
  acks := by simp [init]
  backend := GateDevice.Succeeds.init
  ids := .init

namespace Inv

variable {lib : ArduinoJson} {json : BackendJson} {cfg : GateConfig} {s : System}

/-- An event of the backend alone brings no ACK, and opens under a UUID if at all. -/
private theorem backendEvent {e : GateEvent String} {backend : GateDevice String} (h : s.Inv lib)
    (hlocal : isLocal e = true) (hstep : s.backend.step cfg e = some backend) :
    Inv lib { s with backend := backend } := by
  refine ⟨h.cache, h.acks, h.backend.step ?_ hstep, h.ids.step ?_ hstep⟩
  · rintro ack rfl
    cases hlocal
  · intro r hr
    cases e with
    | openGate requestId _ _ =>
      simp only [GateDevice.openedIds, List.filterMap_cons, List.filterMap_nil,
        List.mem_singleton] at hr
      exact hr ▸ hlocal
    | _ => simp [GateDevice.openedIds] at hr

/-- The device has done some of its effects, and has a gate state that goes with them. -/
private theorem effects {gate : GateControl} {done : List Effect} (h : s.Inv lib)
    (hcache : CachePulsed gate (s.pulsed ++ Device.pulsesIn done))
    (hacks : ∀ text ∈ acksIn done, HonestAck lib (s.pulsed ++ Device.pulsesIn done) text) :
    Inv lib { s with
      gate := gate
      pulsed := s.pulsed ++ Device.pulsesIn done
      acks := s.acks ++ acksIn done } where
  cache := hcache
  acks text htext := by
    rcases List.mem_append.mp htext with htext | htext
    · exact (h.acks text htext).mono
    · exact hacks text htext
  backend := h.backend.imp fun _ hmem => List.mem_append_left _ hmem
  ids := h.ids

/-- An ACK that arrives was published by the device, so it is honest. -/
private theorem ackArrives (hjson : DecodesEachOther lib json) (h : s.Inv lib) {text : CString}
    {ack : Ack String} (htext : text ∈ s.acks) (hparse : json.parse text = some ack) :
    Inv lib { s with backend := s.backend.handleAckMessage ack } := by
  obtain ⟨id, ok, errorCode, hid, rfl, hok⟩ := h.acks text htext
  obtain ⟨hackOk, hackId⟩ := hjson.ack id ok errorCode ack hid hparse
  have hstep : s.backend.step ⟨0, 0, 0⟩ (.ack ack) = some (s.backend.handleAckMessage ack) := rfl
  refine ⟨h.cache, h.acks, h.backend.handleAckMessage ack fun hsuccess _ _ => ?_,
    h.ids.step (by simp [GateDevice.openedIds]) hstep⟩
  rw [hackId]
  exact hok (hackOk.symm.trans hsuccess)

theorem step {s' : System} {e : SystemEvent} (hjson : DecodesEachOther lib json) (h : s.Inv lib)
    (hstep : s.step lib json cfg e = some s') : s'.Inv lib := by
  cases e with
  | backend e =>
    simp only [System.step, Option.ite_none_right_eq_some, Option.map_eq_some_iff] at hstep
    obtain ⟨hlocal, backend, hbackend, rfl⟩ := hstep
    exact h.backendEvent hlocal hbackend
  | deliverCommand k env crash =>
    simp only [System.step, Option.map_eq_some_iff] at hstep
    obtain ⟨cmd, hcmd, rfl⟩ := hstep
    have huuid := h.ids.published cmd (List.mem_of_getElem? hcmd)
    obtain ⟨hcache, hacks⟩ := handleMqttCommand_honest hjson huuid env h.cache
    cases crash with
    | none =>
      have hall := hacks (handleMqttCommand lib env s.gate (json.stringify cmd)).2.length
      rw [List.take_length] at hall
      exact h.effects hcache hall
    | some n => exact h.effects (.init _) (hacks n)
  | deliverAck k =>
    simp only [System.step, Option.map_eq_some_iff] at hstep
    obtain ⟨text, htext, hrun⟩ := hstep
    cases hparse : json.parse text with
    | none =>
      simp only [hparse] at hrun
      exact hrun ▸ h
    | some ack =>
      simp only [hparse] at hrun
      exact hrun ▸ h.ackArrives hjson (List.mem_of_getElem? htext) hparse
  | reboot =>
    obtain rfl := Option.some.inj hstep
    exact ⟨.init _, h.acks, h.backend, h.ids⟩

end Inv

/-- In every run, a call that has returned `ok: true` was preceded by a pulse for its
    request id. -/
theorem success_means_pulsed {lib : ArduinoJson} {json : BackendJson}
    (hjson : DecodesEachOther lib json) (cfg : GateConfig) (es : List SystemEvent) :
    Trace.AllStates (step lib json cfg) SuccessMeansPulsed init es := by
  have hinv : Trace.AllStates (step lib json cfg) (Inv lib) init es :=
    Trace.allStates_iff.mpr fun _ _ _ hex =>
      Trace.exec_invariant (fun _ _ _ h hstep => h.step hjson hstep) (init_inv lib) hex
  exact hinv.mono fun _ h => h.backend.done

/-! ## A run -/

/-- One command of one user. -/
def sampleCommand : Command String :=
  ⟨"11111111-1111-4111-8111-111111111111", "64b0c2f1a1b2c3d4e5f60718", 1700000000000⟩

def sampleDocument : Json :=
  commandDocument sampleCommand.requestId sampleCommand.userId sampleCommand.issuedAt

def sampleAck : CString :=
  CString.ofBytes (Protocol.ackDocument (CString.ofAscii sampleCommand.requestId) true none).text

/-- ArduinoJson on the texts of this command and of its success message. -/
def sampleLib : ArduinoJson where
  deserializeJson _ json :=
    if json = CString.ofBytes sampleDocument.text then some sampleDocument else none
  serializeJson doc _ :=
    match doc with
    | .obj [(_, .str id), (_, .bool true)] =>
      if id = (CString.ofAscii sampleCommand.requestId).bytes then sampleAck else CString.empty
    | _ => CString.empty

def sampleJson : BackendJson where
  stringify cmd :=
    if cmd = sampleCommand then CString.ofBytes sampleDocument.text else CString.empty
  parse text := if text = sampleAck then some ⟨sampleCommand.requestId, true, none⟩ else none

theorem sample_decodesEachOther : DecodesEachOther sampleLib sampleJson where
  command cmd capacity doc _ hdoc := by
    have hempty : CString.empty ≠ CString.ofBytes sampleDocument.text := by decide +kernel
    simp only [sampleLib, sampleJson] at hdoc
    split at hdoc
    · rename_i hcmd
      rw [if_pos rfl, Option.some.injEq] at hdoc
      subst hdoc hcmd
      rfl
    · cases hdoc
  ack id ok errorCode ack _ hack := by
    have hempty : CString.empty ≠ sampleAck := by decide +kernel
    simp only [sampleJson, Option.ite_none_right_eq_some, Option.some.injEq] at hack
    obtain ⟨htext, rfl⟩ := hack
    cases ok with
    | false => cases errorCode <;> exact absurd htext hempty
    | true =>
      simp only [Protocol.createAck, Protocol.ackDocument, sampleLib, List.append_nil] at htext
      split at htext
      · rename_i hid
        exact ⟨rfl, CString.ext hid.symm⟩
      · exact absurd htext hempty

def sampleRun : List SystemEvent :=
  [.backend (.tick 1700000000000),
    .backend (.openGate sampleCommand.requestId sampleCommand.userId true), .backend .mqttConnect,
    .backend (.subscribed 0 true), .backend (.resume 0),
    .deliverCommand 0 ⟨true, 60000⟩ none, .deliverAck 0, .backend (.resume 0)]

/-- The call of the run returns `ok: true`. -/
theorem success_means_pulsed_sampleRun :
    ((Trace.exec (step sampleLib sampleJson ⟨5000, 1, 250⟩) init sampleRun).map fun s =>
      (s.backend.calls.map fun c => c.state matches .done (.ok ()), s.pulsed)) =
      some ([true], [CString.ofAscii sampleCommand.requestId]) ∧
    Trace.AllStates (step sampleLib sampleJson ⟨5000, 1, 250⟩) SuccessMeansPulsed init sampleRun :=
  ⟨by decide +kernel, success_means_pulsed sample_decodesEachOther _ _⟩

end System

end ParkingGate
