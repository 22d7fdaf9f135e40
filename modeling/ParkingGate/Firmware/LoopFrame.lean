-- SUMMARY: What the main loop keeps before its MQTT states: one rule for each, over any property of the MQTT manager and the session.
import ParkingGate.Firmware.MainLoop
import ParkingGate.Firmware.MqttFrame

/-!
# The loop around the MQTT manager

Until the MQTT states are reached the loop works on the modem, on PPP and on its own statics, and
only links the manager to the modem. A property that ignores all this is kept, whatever it says
about the manager and the session.
-/

namespace Firmware

open Hoare MqttManager MainLoop

/-- A property of the manager and the session that the loop around them does not touch. -/
structure IgnoresLoop (I : LoopWorld → Prop) : Prop where
  /-- A call of the modem can end the session. -/
  outside : ∀ {w w' : LoopWorld}, I w → w'.mqtt = w.mqtt → w'.session = w.session ∨ w'.session = .down →
    I w'
  /-- The link of the manager to the modem. -/
  linked : ∀ {w : LoopWorld} (modem : Option Nat) (useCustomSettings : Bool), I w →
    I { w with mqtt := { w.mqtt with modem, useCustomSettings } }

namespace IgnoresLoop

variable {I : LoopWorld → Prop} (hI : IgnoresLoop I) {w w' : LoopWorld} (ans : Answers)

include hI

theorem of_same (h : I w) (hmqtt : w'.mqtt = w.mqtt) (hsession : w'.session = w.session) : I w' :=
  hI.outside h hmqtt (.inl hsession)

theorem calls {α : Type} {this : LoopWorld → Option Nat} {x : LoopM α}
    (h : ∀ w, Keeps (LoopWorld.Calls (this w) w) x) : Keeps I x := by
  intro w hw
  have hcalls := h w w (.refl _ w)
  exact hI.outside hw hcalls.mqtt hcalls.session

theorem call (method : ModemMethod) (this : Option Nat) : Keeps I (TinyGsm.call ans method this) := by
  refine Keeps.modify fun w h => hI.outside h rfl ?_
  simp only [LoopWorld.called]
  split
  · exact .inr rfl
  · exact .inl rfl

theorem modifyMain (f : LoopState → LoopState) : Keeps I (Firmware.modifyMain f) :=
  Keeps.modify fun _ h => hI.of_same h rfl rfl

theorem millis : Keeps I (Firmware.millis ans) := fun _ h => hI.of_same h rfl rfl

theorem pppCalls (methods : List ModemMethod) : Keeps I (MainLoop.pppCalls ans methods) :=
  Keeps.get fun _ _ => Keeps.forM fun method _ => hI.call ans method _

theorem pppStopCalls : Keeps I (MainLoop.pppStopCalls ans) := Keeps.get fun _ _ => hI.pppCalls ans _

theorem modemInit (now : UInt32) : Keeps I (MainLoop.modemInit ans now) := by
  have hset : ∀ {w w' : LoopWorld}, I w → w'.mqtt = w.mqtt → w'.session = w.session →
      Keeps I (set w' : LoopM PUnit) := fun h hmqtt hsession =>
    Triple.set fun _ _ => hI.of_same h hmqtt hsession
  refine Keeps.get fun w h => Keeps.ite (fun _ => hset h rfl rfl) fun _ => ?_
  refine Keeps.ite (fun _ => Keeps.ite (fun _ => hset h rfl rfl) fun _ => ?_) fun _ => Keeps.pure _
  exact Keeps.bind (hI.millis ans) fun _ => Keeps.modify fun _ h => hI.of_same h rfl rfl

theorem pppConnecting (now : UInt32) : Keeps I (MainLoop.pppConnecting ans now) := by
  have hwait : Keeps I (pppWaitCalls ans) := Keeps.get fun _ _ => hI.pppCalls ans _
  have hpoll : ∀ it, Keeps I (pollPpp it) := fun it =>
    Keeps.get fun _ _ => Keeps.bind (hI.modifyMain _) fun _ => Keeps.pure _
  refine Keeps.bind (hI.modifyMain _) fun _ => Keeps.bind hwait fun _ => ?_
  refine Keeps.bind (hpoll _) fun up => Keeps.ite (fun _ => hI.modifyMain _) fun _ => ?_
  refine Keeps.get fun _ _ => Keeps.ite (fun _ => ?_) fun _ => Keeps.pure _
  exact Keeps.bind (hI.pppStopCalls ans) fun _ => hI.modifyMain _

theorem setPppManager : Keeps I MqttManager.setPppManager :=
  Keeps.modify fun w h => hI.linked _ w.mqtt.useCustomSettings h

theorem beginCustom : Keeps I MqttManager.beginCustom := by
  refine Keeps.modify fun w h => ?_
  beta_reduce
  split
  · exact h
  · exact hI.linked w.mqtt.modem true h

theorem linkMqtt (now : UInt32) : Keeps I (MainLoop.linkMqtt now) := by
  refine Keeps.get fun _ _ => Keeps.ite (fun _ => ?_) fun _ => Keeps.pure _
  refine Keeps.bind hI.setPppManager fun _ => Keeps.bind hI.beginCustom fun _ => ?_
  exact Keeps.modify fun _ h => hI.of_same h rfl rfl

theorem initializeMqtt (now : UInt32) : Keeps I (MainLoop.initializeMqtt ans now) := by
  refine Keeps.get fun _ _ => Keeps.ite (fun _ => Keeps.bind ?_ fun ok => ?_) fun _ => Keeps.pure _
  · exact hI.calls fun _ => initializeModemMqtt_keeps ans
  · exact Keeps.ite (fun _ => Keeps.modify fun _ h => hI.of_same h rfl rfl) fun _ => Keeps.pure _

theorem pppUp (now : UInt32) : Keeps I (MainLoop.pppUp ans now) := by
  refine Keeps.bind (Keeps.modify fun _ h => hI.of_same h rfl rfl) fun _ => ?_
  refine Keeps.bind (hI.linkMqtt now) fun _ => Keeps.bind (hI.initializeMqtt ans now) fun _ => ?_
  refine Keeps.get fun _ h => Keeps.ite (fun _ => ?_) fun _ => Keeps.pure _
  exact Triple.set fun _ _ => hI.of_same h rfl rfl

theorem uploadDiagnostics (n : Nat) : Keeps I (MainLoop.uploadDiagnostics ans n) := by
  induction n with
  | zero => exact Keeps.pure _
  | succ n ih =>
    refine Keeps.bind (hI.calls fun _ => publish_keeps ans) fun _ => ?_
    exact Keeps.ite (fun _ => ih) fun _ => Keeps.pure _

end IgnoresLoop

end Firmware
