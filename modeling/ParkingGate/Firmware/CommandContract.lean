-- SUMMARY: The contract of the command handler: one ACK for every payload, what it says, and what it leaves untouched.
import ParkingGate.Firmware.CommandHandler

/-!
# The command contract

For every payload, every state of `GateControl` and every reading of the clock, the
handler answers once. The answer is a success exactly when the gate was opened for the
request, now or while its id is still cached, and without a pulse nothing changes.
-/

namespace Firmware

open Config

namespace GateControl

/-- The id is in one of the slots of the dedupe cache that are in use. -/
def Caches (g : GateControl) (requestId : CString) : Prop :=
  ∃ i : Fin dedupCacheSize, i.val < g.dedupeCacheCount.val ∧ g.dedupeCache.get i = requestId

/-- The scan of `wasProcessed` finds the ids of these slots, in any state of the cache. -/
theorem wasProcessed_iff_caches {g : GateControl} {requestId : CString}
    (h : requestId.isEmpty = false) :
    g.wasProcessed (some requestId) = true ↔ g.Caches requestId := by
  have hcount : (if g.dedupeCacheCount < dedupCacheSize then g.dedupeCacheCount.val
      else dedupCacheSize) = g.dedupeCacheCount.val := by
    have hle := g.dedupeCacheCount.is_le
    split <;> omega
  have hscan : g.wasProcessed (some requestId) = true ↔
      requestId ∈ g.dedupeCache.toList.take g.dedupeCacheCount := by
    simp [wasProcessed, h, hcount]
  rw [hscan, List.mem_take_iff_getElem]
  constructor
  · rintro ⟨i, hi, rfl⟩
    have hlt := Nat.lt_min.mp hi
    rw [Vector.length_toList] at hlt
    exact ⟨⟨i, hlt.2⟩, hlt.1, by simp [Vector.get]⟩
  · rintro ⟨i, hi, rfl⟩
    refine ⟨i, Nat.lt_min.mpr ⟨hi, ?_⟩, by simp [Vector.get]⟩
    rw [Vector.length_toList]
    exact i.isLt

end GateControl

/-- The messages published on the ACK topic in a list of effects. -/
def acksIn (effects : List Effect) : List CString :=
  effects.filterMap fun
    | .pulse _ _       => none
    | .publishAck json => some json

/-- The payload is an `open` command with an id, whose relay pulse is in `effects` or whose
    id was cached before. -/
def Granted (lib : ArduinoJson) (g : GateControl) (payload : CString) (effects : List Effect) :
    Prop :=
  ∃ cmd, Protocol.parseCommand lib payload = some cmd ∧ cmd.command = CString.ofAscii "open" ∧
    cmd.requestId.isEmpty = false ∧ (Device.pulsesIn effects ≠ [] ∨ g.Caches cmd.requestId)

/-- The handler leaves the gate `r.1` and the effects `r.2` under the contract: one ACK,
    which says `ok` exactly for a granted command and carries the parsed id when there is
    one, and no change of `lastOpenAtMs` or the dedupe cache without a pulse. -/
structure Contract (lib : ArduinoJson) (g : GateControl) (payload : CString)
    (r : GateControl × List Effect) : Prop where
  ack : ∃ requestId ok errorCode,
    acksIn r.2 = [Protocol.createAck lib requestId ok errorCode 256] ∧
    (ok = true ↔ Granted lib g payload r.2) ∧
    ∀ cmd, Protocol.parseCommand lib payload = some cmd → requestId = cmd.requestId
  quiet : Device.pulsesIn r.2 = [] → r.1 = g

section

variable {lib : ArduinoJson} {g : GateControl} {payload : CString}

/-- A refusal meets the contract when it answers the parsed id, and the id of an `open`
    command is not cached. -/
private theorem contract_nack {requestId : CString} (code : String)
    (hid : ∀ cmd, Protocol.parseCommand lib payload = some cmd → requestId = cmd.requestId)
    (hmiss : ∀ cmd, Protocol.parseCommand lib payload = some cmd →
      cmd.command = CString.ofAscii "open" → cmd.requestId.isEmpty = false →
      g.wasProcessed (some cmd.requestId) = false) :
    Contract lib g payload (g, [nack lib requestId code]) := by
  have hnot : ¬ Granted lib g payload [nack lib requestId code] := by
    rintro ⟨cmd, hparse, hopen, hne, hpulse | hcached⟩
    · exact hpulse rfl
    · have hhit := (GateControl.wasProcessed_iff_caches hne).mpr hcached
      rw [hmiss cmd hparse hopen hne] at hhit
      cases hhit
  refine ⟨⟨requestId, false, some (CString.ofAscii code), rfl, ?_, hid⟩, fun _ => rfl⟩
  exact iff_of_false Bool.false_ne_true hnot

/-- A success meets the contract when the id was cached or the relay is pulsed. -/
private theorem contract_okAck {env : Env} {cmd : CommandResult}
    (h : OpenCommand lib env payload cmd) {g' : GateControl} (pulses : List Effect)
    (hacks : acksIn pulses = [])
    (hgranted : Device.pulsesIn pulses ≠ [] ∨ g' = g ∧ g.Caches cmd.requestId) :
    Contract lib g payload (g', pulses ++ [okAck lib cmd.requestId]) := by
  have hpulses : Device.pulsesIn (pulses ++ [okAck lib cmd.requestId]) = Device.pulsesIn pulses := by
    simp [Device.pulsesIn, okAck]
  refine ⟨⟨cmd.requestId, true, none, ?_, iff_of_true rfl ?_, ?_⟩, ?_⟩
  · simp only [acksIn, List.filterMap_append] at hacks ⊢
    rw [hacks]
    rfl
  · refine ⟨cmd, h.parsed, h.isOpen, h.nonempty, ?_⟩
    rw [hpulses]
    exact hgranted.imp_right And.right
  · intro cmd' hcmd'
    exact congrArg CommandResult.requestId (Option.some.inj (h.parsed.symm.trans hcmd'))
  · intro hquiet
    rw [hpulses] at hquiet
    exact (hgranted.resolve_left fun hpulse => hpulse hquiet).1

end

/-- While MQTT is connected, the handler keeps the contract for every payload, every state
    of the gate and every reading of the clock. -/
theorem handleMqttCommand_contract (lib : ArduinoJson) (nowMs : UInt32) (g : GateControl)
    (payload : CString) :
    Contract lib g payload (handleMqttCommand lib ⟨true, nowMs⟩ g payload) := by
  generalize hr : handleMqttCommand lib ⟨true, nowMs⟩ g payload = r
  have hhandled := hr ▸ handled lib ⟨true, nowMs⟩ g payload
  -- What the payload parses to is one command.
  have unique : ∀ {cmd cmd'}, Protocol.parseCommand lib payload = some cmd →
      Protocol.parseCommand lib payload = some cmd' → cmd = cmd' :=
    fun h h' => Option.some.inj (h.symm.trans h')
  cases hhandled with
  | ignored h => cases h
  | unparsed h =>
    have hnone : ∀ cmd, Protocol.parseCommand lib payload ≠ some cmd := by simp [h]
    apply contract_nack
    · exact fun cmd hcmd => absurd hcmd (hnone cmd)
    · exact fun cmd hcmd => absurd hcmd (hnone cmd)
  | noId cmd h empty =>
    apply contract_nack
    · exact fun cmd' hcmd' => unique h hcmd' ▸ rfl
    · intro cmd' hcmd' _ hne
      rw [← unique h hcmd', empty] at hne
      cases hne
  | unknown cmd h notOpen =>
    apply contract_nack
    · exact fun cmd' hcmd' => unique h hcmd' ▸ rfl
    · exact fun cmd' hcmd' hopen => absurd (unique h hcmd' ▸ hopen) notOpen
  | repeated cmd h hit =>
    have hcached := (GateControl.wasProcessed_iff_caches h.nonempty).mp hit
    exact contract_okAck h [] rfl (.inr ⟨rfl, hcached⟩)
  | cooldown cmd h miss wait =>
    apply contract_nack
    · exact fun cmd' hcmd' => unique h.parsed hcmd' ▸ rfl
    · exact fun cmd' hcmd' _ _ => unique h.parsed hcmd' ▸ miss
  | opened cmd h miss ready =>
    exact contract_okAck h [_] rfl (.inl (List.cons_ne_nil _ _))

end Firmware
