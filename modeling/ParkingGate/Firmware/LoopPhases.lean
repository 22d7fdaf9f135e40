-- SUMMARY: The invariant of the main loop: where PPP, the modem instance, the MQTT pointer and the failure streak stand in each device state.
import ParkingGate.Firmware.MainLoop
import ParkingGate.Firmware.MqttFrame

/-!
# The phases of the main loop

One invariant, a case for each device state, carries both results about the modem: no call
is made on an instance that `PppManager` does not own, and the failure streak of the MQTT
manager never passes its threshold. Each case of the switch is shown to keep it.
-/

namespace Firmware

open Config Hoare

/-! ## PPP while it connects -/

namespace PppManager

/-- The two phases of a manager in STATE_PPP_CONNECTING. -/
def Connecting (p : PppManager) : Prop := p.Idle ∨ p.Starting

theorem Connecting.start {p : PppManager} (h : p.Connecting) (millis : UInt32) :
    (p.start millis).2.Connecting := by
  rcases h with h | h
  · obtain ⟨p', hstart, hp', -, -⟩ := h.start millis
    rw [hstart]
    exact .inr hp'
  · have hstart : p.start millis = (p.pppUp, p) := by simp [PppManager.start, h.pppStarting]
    rw [hstart]
    exact .inr h

theorem Connecting.stop {p : PppManager} (h : p.Connecting) : p.stop.Idle := by
  rcases h with h | h
  · rw [h.stop_eq]
    exact h
  · exact h.stop

theorem Connecting.waitForPppUp {p : PppManager} (h : p.Connecting) (timeoutMs : UInt32)
    (a : PppAnswers) :
    ((p.waitForPppUp timeoutMs a).1 = true ∧ (p.waitForPppUp timeoutMs a).2.Up) ∨
      ((p.waitForPppUp timeoutMs a).1 = false ∧ (p.waitForPppUp timeoutMs a).2.Connecting) := by
  rcases h with h | h
  · rw [h.waitForPppUp]
    exact .inr ⟨rfl, .inl h⟩
  · by_cases ht : a.millis - p.pppStartTime > timeoutMs
    · rw [h.waitForPppUp_timeout ht]
      exact .inr ⟨rfl, .inl h.stop.incrementFailStreak⟩
    · obtain ⟨up, p', hwait, ⟨rfl, hp', -⟩ | ⟨rfl, hp', -, -⟩⟩ := h.waitForPppUp ht
      · rw [hwait]
        exact .inl ⟨rfl, hp'⟩
      · rw [hwait]
        exact .inr ⟨rfl, .inr hp'⟩

/-- `stop` and `waitForPppUp` look at the instance before they call it, and neither
    connects to the broker. -/
theorem mem_stopCalls {p : PppManager} {method : ModemMethod} (h : method ∈ p.stopCalls) :
    p.tinyGsmModem.isSome ∧ method ≠ .mqttConnect := by
  unfold stopCalls at h
  split at h
  · cases h
  · split at h
    · rename_i hsome
      obtain rfl := List.mem_singleton.mp h
      exact ⟨hsome, by simp⟩
    · cases h

theorem mem_waitForPppUpCalls {p : PppManager} {timeoutMs : UInt32} {a : PppAnswers}
    {method : ModemMethod} (h : method ∈ p.waitForPppUpCalls timeoutMs a) :
    p.tinyGsmModem.isSome ∧ method ≠ .mqttConnect := by
  unfold waitForPppUpCalls at h
  split at h
  · cases h
  split at h
  · cases h
  rename_i hguard
  rw [Bool.or_eq_true, not_or] at hguard
  have hsome : p.tinyGsmModem.isSome :=
    Option.isSome_iff_ne_none.mpr (mt Option.isNone_iff_eq_none.mpr hguard.2)
  split at h
  · exact mem_stopCalls h
  · refine ⟨hsome, ?_⟩
    rintro rfl
    cases hstate : p.connState <;> simp [hstate] at h

end PppManager

/-- Starting PPP is the only thing that may happen to the manager before it is polled. -/
theorem LoopState.startPpp_cases (s : LoopState) (it : PppIteration) :
    (s.startPpp it).deviceState = s.deviceState ∧
      ((s.startPpp it).ppp = s.ppp ∨ (s.startPpp it).ppp = (s.ppp.start it.startMillis).2) := by
  simp only [LoopState.startPpp]
  generalize (if s.forcePppRestart = true then false else s.pppStarted) = started
  cases started with
  | false => exact ⟨rfl, .inr rfl⟩
  | true => exact ⟨rfl, .inl rfl⟩

/-! ## The invariant -/

namespace LoopWorld

/-- The statics of the STATE_PPP_UP case outside of it. -/
def NoSetup (w : LoopWorld) : Prop := w.mqttSetup = false ∧ w.mqttInitialized = false

structure InModemInit (w : LoopWorld) : Prop where
  state : w.main.deviceState = .modemInit
  idle : w.main.ppp.Idle
  streak : w.mqtt.mqttFailStreak = 0
  noSetup : w.NoSetup

structure InPppConnecting (w : LoopWorld) : Prop where
  state : w.main.deviceState = .pppConnecting
  connecting : w.main.ppp.Connecting
  streak : w.mqtt.mqttFailStreak = 0
  noSetup : w.NoSetup

structure InPppUp (w : LoopWorld) : Prop where
  state : w.main.deviceState = .pppUp
  up : w.main.ppp.Up
  streak : w.mqtt.mqttFailStreak = 0
  linked : w.mqttSetup = true → w.Linked
  order : w.mqttInitialized = true → w.mqttSetup = true

structure InMqttConnecting (w : LoopWorld) : Prop where
  state : w.main.deviceState = .mqttConnecting
  up : w.main.ppp.Up
  linked : w.Linked
  streak : w.mqtt.mqttFailStreak ≤ mqttFailsBeforePppRebuild
  noSetup : w.NoSetup

/-- In this state the flag is set and the streak is below its threshold. -/
structure InMqttConnected (w : LoopWorld) : Prop where
  state : w.main.deviceState = .mqttConnected
  up : w.main.ppp.Up
  linked : w.Linked
  streak : w.mqtt.mqttFailStreak < mqttFailsBeforePppRebuild
  connected : w.mqtt.connected = true
  noSetup : w.NoSetup

/-- What each device state implies. -/
inductive Phase (w : LoopWorld) : Prop where
  | modemInit (h : w.InModemInit)
  | pppConnecting (h : w.InPppConnecting)
  | pppUp (h : w.InPppUp)
  | mqttConnecting (h : w.InMqttConnecting)
  | mqttConnected (h : w.InMqttConnected)

/-- The invariant of the loop, between two iterations. -/
structure Inv (w : LoopWorld) : Prop where
  phase : w.Phase
  calls : w.CallsSound
  running : w.restarting = false

theorem boot_inv (millis : UInt32) (session : MqttSession) {calls : List ModemCall}
    (h : ∀ c ∈ calls, c.Sound) : (boot millis session calls).Inv :=
  ⟨.modemInit ⟨rfl, PppManager.create_idle, rfl, ⟨rfl, rfl⟩⟩, h, rfl⟩

/-- The MQTT states, in the middle of an iteration. -/
structure Serving (w : LoopWorld) : Prop where
  up : w.main.ppp.Up
  linked : w.Linked
  streak : w.mqtt.mqttFailStreak ≤ mqttFailsBeforePppRebuild
  noSetup : w.NoSetup
  calls : w.CallsSound
  running : w.restarting = false

theorem Framed.linked {w₀ w : LoopWorld} (h : Framed w₀ w) (hlinked : w₀.Linked) : w.Linked := by
  rw [Linked, h.modem, h.main]
  exact hlinked

theorem Serving.framed {w₀ w : LoopWorld} (hw : w₀.Serving) (h : Framed w₀ w)
    (hstreak : w.mqtt.mqttFailStreak ≤ mqttFailsBeforePppRebuild) (hcalls : w.CallsSound) :
    w.Serving where
  up := h.main ▸ hw.up
  linked := h.linked hw.linked
  streak := hstreak
  noSetup := ⟨h.mqttSetup.trans hw.noSetup.1, h.mqttInitialized.trans hw.noSetup.2⟩
  calls := hcalls
  running := h.restarting.trans hw.running

theorem Serving.undisturbed {w₀ w : LoopWorld} (hw : w₀.Serving) (h : Undisturbed w₀ w) :
    w.Serving :=
  hw.framed h.toFramed (h.streak ▸ hw.streak) (h.calls hw.linked hw.streak hw.calls)

/-- Calls of the PPP manager or of the out-of-band poll, on the owned instance. -/
theorem Serving.calls_owned {w₀ w : LoopWorld} (hw : w₀.Serving)
    (h : Calls w₀.main.ppp.tinyGsmModem w₀ w) : w.Serving :=
  hw.framed h.framed (h.mqtt ▸ hw.streak) (h.calls rfl hw.streak hw.calls)

theorem Serving.modem {w : LoopWorld} (h : w.Serving) : w.mqtt.modem.isSome := by
  rw [h.linked]
  exact h.up.modem

theorem Inv.serving {w : LoopWorld} (h : w.Inv) (hstate : w.main.deviceState = .mqttConnecting) :
    w.Serving := by
  cases h.phase with
  | mqttConnecting hphase =>
    exact ⟨hphase.up, hphase.linked, hphase.streak, hphase.noSetup, h.calls, h.running⟩
  | modemInit hphase | pppConnecting hphase | pppUp hphase | mqttConnected hphase =>
    exact absurd (hphase.state.symm.trans hstate) (by simp)

end LoopWorld

open LoopWorld

variable {w₀ : LoopWorld} (ans : Answers)

namespace MainLoop

open MqttManager

/-! ## Rebuilding PPP -/

theorem pppCalls_keeps {methods : List ModemMethod}
    (h : ∀ method ∈ methods, w₀.main.ppp.tinyGsmModem.isSome ∧ method ≠ .mqttConnect) :
    Keeps (Calls w₀.main.ppp.tinyGsmModem w₀) (pppCalls ans methods) := by
  refine Keeps.get fun w hw => Keeps.forM fun method hmem => ?_
  rw [hw.main]
  exact TinyGsm.call_keeps ans (h method hmem).1 (h method hmem).2

theorem pppStopCalls_calls (w : LoopWorld) :
    Calls w.main.ppp.tinyGsmModem w ((pppStopCalls ans).run w).2 :=
  pppCalls_keeps ans (fun _ hmem => PppManager.mem_stopCalls hmem) w (.refl _ w)

private theorem zero_le_threshold : (0 : UInt8) ≤ mqttFailsBeforePppRebuild := by decide

/-- However PPP is rebuilt, PPP is stopped and the streak is cleared on the way to
    STATE_PPP_CONNECTING, and the broker is not connected. -/
structure Rebuilt (w₀ : LoopWorld) (now : UInt32) (w : LoopWorld) : Prop where
  main : w.main = w₀.main.rebuildPpp now
  streak : w.mqtt.mqttFailStreak = 0
  attempts : w.attempts = w₀.attempts
  noSetup : w.NoSetup
  calls : w.CallsSound
  running : w.restarting = false

theorem Rebuilt.inv {w : LoopWorld} {now : UInt32} (h : Rebuilt w₀ now w) (hw : w₀.Serving) :
    w.Inv := by
  have hstate : w.main.deviceState = .pppConnecting := by rw [h.main, LoopState.rebuildPpp]
  have hidle : w.main.ppp.Idle := by
    rw [h.main]
    exact hw.up.stop
  exact ⟨.pppConnecting ⟨hstate, .inl hidle, h.streak, h.noSetup⟩, h.calls, h.running⟩

theorem rebuildPpp_spec (now : UInt32) (hw : w₀.Serving) :
    Triple (fun w => w = w₀) (rebuildPpp ans now) fun _ => Rebuilt w₀ now := by
  -- What holds of the world between the steps, with the streak from the second step on.
  let Since (w : LoopWorld) : Prop := w.Serving ∧ w.main = w₀.main ∧ w.attempts = w₀.attempts
  have hdisconnect : Triple (fun w => w = w₀) (disconnect ans) fun _ => Since := by
    rintro w rfl
    have hsame := disconnect_keeps ans w (.refl w)
    exact ⟨hw.undisturbed hsame, hsame.main, hsame.attempts⟩
  have hreset : Triple Since (modifyMqtt resetMqttFailStreak) fun _ w =>
      Since w ∧ w.mqtt.mqttFailStreak = 0 :=
    Triple.modify fun w ⟨h, hmain, hattempts⟩ =>
      ⟨⟨⟨h.up, h.linked, zero_le_threshold, h.noSetup, h.calls, h.running⟩, hmain, hattempts⟩, rfl⟩
  have hstop : Keeps (fun w => Since w ∧ w.mqtt.mqttFailStreak = 0) (pppStopCalls ans) := by
    intro w ⟨⟨h, hmain, hattempts⟩, hstreak⟩
    have hcalls := pppStopCalls_calls ans w
    exact ⟨⟨h.calls_owned hcalls, hcalls.main.trans hmain, hcalls.attempts.trans hattempts⟩,
      hcalls.mqtt ▸ hstreak⟩
  refine Triple.bind hdisconnect fun _ => Triple.bind hreset fun _ => Triple.bind hstop fun _ => ?_
  exact Triple.modify fun w ⟨⟨h, hmain, hattempts⟩, hstreak⟩ =>
    ⟨congrArg (LoopState.rebuildPpp · now) hmain, hstreak, hattempts, h.noSetup, h.calls, h.running⟩

/-! ## The device states -/

/-- The end of an iteration: the invariant, unless the device is about to restart. -/
def Ends (w : LoopWorld) : Prop := w.CallsSound ∧ (w.restarting = true ∨ w.Inv)

theorem ends_of_inv {w : LoopWorld} (h : w.Inv) : Ends w := ⟨h.calls, .inr h⟩

theorem modemInit_spec (now : UInt32) :
    Triple (fun w => w.InModemInit ∧ w.Inv) (modemInit ans now) fun _ => Inv := by
  -- Only the retry counter and the entry time change while the modem does not answer.
  have stay : ∀ {w : LoopWorld} (retries : Nat) (entry : UInt32), w.InModemInit ∧ w.Inv →
      Inv { w with
        modemInitRetries := retries
        main := { w.main with stateEntryTime := entry } } :=
    fun _ _ ⟨h, hinv⟩ =>
      ⟨.modemInit ⟨h.state, h.idle, h.streak, h.noSetup⟩, hinv.calls, hinv.running⟩
  refine Triple.get fun w₀ h₀ => Triple.ite (fun _ => Triple.set fun w _ => ?_) fun _ => ?_
  · exact ⟨.pppConnecting ⟨rfl, .inl h₀.1.idle, h₀.1.streak, h₀.1.noSetup⟩, h₀.2.calls,
      h₀.2.running⟩
  · refine Triple.ite (fun _ => Triple.ite (fun _ => ?_) fun _ => ?_) fun _ => ?_
    · exact Triple.set fun w _ => stay _ _ h₀
    · refine Triple.bind (Q := fun _ w => w.InModemInit ∧ w.Inv) ?_ fun later => ?_
      · intro w ⟨h, hinv⟩
        exact ⟨⟨h.state, h.idle, h.streak, h.noSetup⟩,
          .modemInit ⟨h.state, h.idle, h.streak, h.noSetup⟩, hinv.calls, hinv.running⟩
      · exact Triple.modify fun w h => stay _ _ h
    · exact Triple.pure fun w h => h.2

/-- STATE_PPP_CONNECTING between two of its steps. -/
def Connecting (w : LoopWorld) : Prop := w.InPppConnecting ∧ w.CallsSound ∧ w.restarting = false

theorem Connecting.inv {w : LoopWorld} (h : Connecting w) : w.Inv :=
  ⟨.pppConnecting h.1, h.2.1, h.2.2⟩

/-- Calls on the owned instance, or a change of PPP that leaves it connecting. -/
theorem Connecting.step {w w' : LoopWorld} (h : Connecting w) (hmain : w'.main.deviceState =
    .pppConnecting) (hppp : w'.main.ppp.Connecting) (hmqtt : w'.mqtt = w.mqtt)
    (hsetup : w'.mqttSetup = w.mqttSetup ∧ w'.mqttInitialized = w.mqttInitialized)
    (hrestarting : w'.restarting = w.restarting) (hcalls : w'.CallsSound) : Connecting w' :=
  ⟨⟨hmain, hppp, hmqtt ▸ h.1.streak, hsetup.1.trans h.1.noSetup.1, hsetup.2.trans h.1.noSetup.2⟩,
    hcalls, hrestarting.trans h.2.2⟩

theorem Connecting.calls {w w' : LoopWorld} (h : Connecting w)
    (hcalls : Calls w.main.ppp.tinyGsmModem w w') : Connecting w' := by
  have hsound : w'.CallsSound := hcalls.calls rfl (h.1.streak ▸ zero_le_threshold) h.2.1
  exact h.step (hcalls.main ▸ h.1.state) (hcalls.main ▸ h.1.connecting) hcalls.mqtt
    ⟨hcalls.mqttSetup, hcalls.mqttInitialized⟩ hcalls.restarting hsound

theorem startPpp_keeps (it : PppIteration) :
    Keeps Connecting (modifyMain fun s => s.startPpp it) := by
  refine Keeps.modify fun w h => ?_
  obtain ⟨hstate, hppp⟩ := w.main.startPpp_cases it
  refine h.step (hstate.trans h.1.state) ?_ rfl ⟨rfl, rfl⟩ rfl h.2.1
  rcases hppp with hsame | hstarted
  · exact hsame ▸ h.1.connecting
  · exact hstarted ▸ h.1.connecting.start it.startMillis

theorem pollPpp_spec (it : PppIteration) :
    Triple Connecting (pollPpp it) fun up w =>
      if up then w.main.ppp.Up ∧ w.mqtt.mqttFailStreak = 0 ∧ w.NoSetup ∧ w.CallsSound ∧
        w.restarting = false
      else Connecting w := by
  intro w h
  have hrun : (pollPpp it).run w = ((w.main.poll it).1, { w with main := (w.main.poll it).2 }) := rfl
  rw [hrun]
  rcases h.1.connecting.waitForPppUp pppTimeoutMs it.wait with ⟨hup, hppp⟩ | ⟨hup, hppp⟩
  · have hpoll : (w.main.poll it).1 = true := hup
    simp only [hpoll, if_true]
    exact ⟨hppp, h.1.streak, h.1.noSetup, h.2.1, h.2.2⟩
  · have hpoll : (w.main.poll it).1 = false := hup
    simp only [hpoll, Bool.false_eq_true, if_false]
    exact h.step h.1.state hppp rfl ⟨rfl, rfl⟩ rfl h.2.1

/-- The expiry of the window stops PPP, and perhaps goes back to STATE_MODEM_INIT. -/
theorem expire_spec (it : PppIteration) :
    Triple Connecting (modifyMain fun s => (s.expire it).1) fun _ => Inv := by
  refine Triple.modify fun w h => ?_
  have hidle : w.main.ppp.stop.Idle := h.1.connecting.stop
  unfold LoopState.expire
  simp only
  split
  · exact ⟨.modemInit ⟨rfl, hidle.resetPppFailStreak, h.1.streak, h.1.noSetup⟩, h.2.1, h.2.2⟩
  · exact ⟨.pppConnecting ⟨h.1.state, .inl hidle, h.1.streak, h.1.noSetup⟩, h.2.1, h.2.2⟩

theorem pppConnecting_spec (now : UInt32) :
    Triple Connecting (pppConnecting ans now) fun _ => Inv := by
  have hwait : Keeps Connecting (pppWaitCalls ans) := fun w h =>
    h.calls (pppCalls_keeps ans (fun _ hmem => PppManager.mem_waitForPppUpCalls hmem) w (.refl _ w))
  have hstop : Keeps Connecting (pppStopCalls ans) := fun w h => h.calls (pppStopCalls_calls ans w)
  refine Triple.bind (startPpp_keeps _) fun _ => Triple.bind hwait fun _ => ?_
  refine Triple.bind (pollPpp_spec _) fun up => Triple.ite (fun hup => ?_) fun hup => ?_
  · refine Triple.modify fun w h => ?_
    simp only [hup, if_true] at h
    obtain ⟨hppp, hstreak, hsetup, hcalls, hrunning⟩ := h
    refine ⟨.pppUp ⟨rfl, hppp.resetPppFailStreak, hstreak, fun hset => ?_, fun hset => ?_⟩,
      hcalls, hrunning⟩
    · exact absurd (hset.symm.trans hsetup.1) (by simp)
    · exact absurd (hset.symm.trans hsetup.2) (by simp)
  · simp only [hup]
    refine Triple.get fun w _ => Triple.ite (fun _ => ?_) fun _ => Triple.pure fun _ h => h.inv
    exact Triple.bind hstop fun _ => expire_spec _

/-- STATE_PPP_UP between two of its steps. -/
def SettingUp (w : LoopWorld) : Prop := w.InPppUp ∧ w.CallsSound ∧ w.restarting = false

theorem linkMqtt_spec (now : UInt32) : Keeps SettingUp (linkMqtt now) := by
  have hset : Triple SettingUp setPppManager fun _ w => SettingUp w ∧ w.Linked :=
    Triple.modify fun w h =>
      ⟨⟨⟨h.1.state, h.1.up, h.1.streak, fun _ => rfl, h.1.order⟩, h.2⟩, rfl⟩
  have hbegin : Keeps (fun w => SettingUp w ∧ w.Linked) beginCustom := by
    refine Keeps.modify fun w ⟨h, hlinked⟩ => ?_
    beta_reduce
    split
    · exact ⟨h, hlinked⟩
    · exact ⟨⟨⟨h.1.state, h.1.up, h.1.streak, fun _ => hlinked, h.1.order⟩, h.2⟩, hlinked⟩
  refine Keeps.get fun w _ => Keeps.ite (fun _ => ?_) fun _ => Keeps.pure _
  refine Triple.bind hset fun _ => Triple.bind hbegin fun _ => Triple.modify fun w ⟨h, hlinked⟩ => ?_
  exact ⟨⟨h.1.state, h.1.up, h.1.streak, fun _ => hlinked, fun _ => rfl⟩, h.2⟩

theorem initializeMqtt_spec (now : UInt32) : Keeps SettingUp (initializeMqtt ans now) := by
  refine Triple.get_eq fun w h => Triple.ite (fun hguard => ?_) fun _ => ?_
  · have hsetup : w.mqttSetup = true := by simp at hguard; exact hguard.1.1
    have hinit : Triple (fun s => s = w) (initializeModemMqtt ans) fun _ s =>
        SettingUp s ∧ s.mqttSetup = true := by
      rintro s rfl
      have hcalls := initializeModemMqtt_keeps ans s (.refl _ s)
      have hsound := hcalls.calls (h.1.linked hsetup) (h.1.streak ▸ zero_le_threshold) h.2.1
      have hlinked := hcalls.framed.linked (h.1.linked hsetup)
      refine ⟨⟨⟨hcalls.main ▸ h.1.state, hcalls.main ▸ h.1.up, hcalls.mqtt ▸ h.1.streak,
        fun _ => hlinked, fun _ => hcalls.mqttSetup.trans hsetup⟩, hsound,
        hcalls.restarting.trans h.2.2⟩, hcalls.mqttSetup.trans hsetup⟩
    refine Triple.bind hinit fun ok => Triple.ite (fun _ => ?_) fun _ => Triple.pure fun _ h => h.1
    exact Triple.modify fun s ⟨h, hset⟩ =>
      ⟨⟨h.1.state, h.1.up, h.1.streak, h.1.linked, fun _ => hset⟩, h.2⟩
  · exact Triple.pure fun s hs => hs ▸ h

theorem pppUp_spec (now : UInt32) : Triple SettingUp (pppUp ans now) fun _ => Inv := by
  have htime : Keeps SettingUp (modify fun w =>
      { w with pppUpTime := if w.pppUpTime = 0 then now else w.pppUpTime } : LoopM PUnit) :=
    Keeps.modify fun w h => ⟨⟨h.1.state, h.1.up, h.1.streak, h.1.linked, h.1.order⟩, h.2⟩
  refine Triple.bind htime fun _ => Triple.bind (linkMqtt_spec now) fun _ => ?_
  refine Triple.bind (initializeMqtt_spec ans now) fun _ => Triple.get fun w h => ?_
  refine Triple.ite (fun hguard => Triple.set fun _ _ => ?_) fun _ => Triple.pure fun s h => ?_
  · have hlinked : w.Linked := by
      simp at hguard
      exact h.1.linked (h.1.order hguard.1)
    have hconnecting : InMqttConnecting { w with
        main := w.main.enter .mqttConnecting now
        pppUpTime := 0
        mqttSetup := false
        mqttInitialized := false } :=
      ⟨rfl, h.1.up, hlinked, h.1.streak ▸ zero_le_threshold, rfl, rfl⟩
    exact ⟨.mqttConnecting hconnecting, h.2.1, h.2.2⟩
  · exact ⟨.pppUp h.1, h.2.1, h.2.2⟩

theorem uploadDiagnostics_keeps (n : Nat) :
    Keeps (Calls w₀.mqtt.modem w₀) (uploadDiagnostics ans n) := by
  induction n with
  | zero => exact Keeps.pure _
  | succ n ih =>
    exact Keeps.bind (publish_keeps ans) fun _ => Keeps.ite (fun _ => ih) fun _ => Keeps.pure _

/-! ## The MQTT states -/

/-- After an increment of a streak below the threshold the threshold is not passed. -/
theorem succ_le_threshold {n : UInt8} (h : n < mqttFailsBeforePppRebuild) :
    n + 1 ≤ mqttFailsBeforePppRebuild := by
  rw [UInt8.le_iff_toNat_le, UInt8.toNat_add]
  rw [UInt8.lt_iff_toNat_lt] at h
  have hthree : mqttFailsBeforePppRebuild.toNat = 3 := rfl
  have hone : (1 : UInt8).toNat = 1 := rfl
  omega

theorem lt_of_not_shouldRebuild {m : MqttManager} (h : ¬ m.shouldRebuildPpp = true) :
    m.mqttFailStreak < mqttFailsBeforePppRebuild := by
  simpa [shouldRebuildPpp, UInt8.not_le] using h

theorem inv_of_serving {w : LoopWorld} (h : w.Serving)
    (hstate : w.main.deviceState = .mqttConnecting) : w.Inv :=
  ⟨.mqttConnecting ⟨hstate, h.up, h.linked, h.streak, h.noSetup⟩, h.calls, h.running⟩

/-- `connect` returned true. -/
structure Online (w : LoopWorld) : Prop where
  serving : w.Serving
  streak : w.mqtt.mqttFailStreak < mqttFailsBeforePppRebuild
  connected : w.mqtt.connected = true

theorem online_of_connects {w : LoopWorld} (h : Connects w₀ true w) (hw : w₀.Serving)
    (hstreak : w₀.mqtt.mqttFailStreak < mqttFailsBeforePppRebuild) : Online w := by
  obtain ⟨hconnected, hsame⟩ := h.success rfl
  have hlt : w.mqtt.mqttFailStreak < mqttFailsBeforePppRebuild := by
    rcases hsame with hzero | heq
    · rw [hzero]
      decide
    · exact heq ▸ hstreak
  exact ⟨hw.framed h.toFramed (UInt8.le_of_lt hlt) (h.calls hw.linked hstreak hw.calls), hlt,
    hconnected⟩

theorem serving_of_refused {w : LoopWorld} (h : Connects w₀ false w) (hw : w₀.Serving)
    (hstreak : w₀.mqtt.mqttFailStreak < mqttFailsBeforePppRebuild) : w.Serving := by
  refine hw.framed h.toFramed ?_ (h.calls hw.linked hstreak hw.calls)
  rcases h.failure rfl with hsame | hsucc
  · exact hsame ▸ hw.streak
  · exact hsucc ▸ succ_le_threshold hstreak

theorem connect_true_spec (now : UInt32) : Triple Online (do
      modifyMqtt fun m => { m with commandCallback := true }
      uploadDiagnostics ans ans.diagnosticBatches
      modifyMain fun s => s.enter .mqttConnected now) fun _ => Inv := by
  have hcallback : Keeps Online (modifyMqtt fun m => { m with commandCallback := true }) :=
    Keeps.modify fun w h =>
      ⟨⟨h.serving.up, h.serving.linked, h.serving.streak, h.serving.noSetup, h.serving.calls,
        h.serving.running⟩, h.streak, h.connected⟩
  have hupload : Keeps Online (uploadDiagnostics ans ans.diagnosticBatches) := by
    intro w h
    have hcalls := uploadDiagnostics_keeps ans ans.diagnosticBatches w (.refl _ w)
    have hserving := h.serving.undisturbed ((Undisturbed.refl w).then_calls hcalls)
    exact ⟨hserving, hcalls.mqtt ▸ h.streak, hcalls.mqtt ▸ h.connected⟩
  refine Triple.bind hcallback fun _ => Triple.bind hupload fun _ => Triple.modify fun w h => ?_
  have hconnected : InMqttConnected { w with main := w.main.enter .mqttConnected now } :=
    ⟨rfl, h.serving.up, h.serving.linked, h.streak, h.connected, h.serving.noSetup⟩
  exact ⟨.mqttConnected hconnected, h.serving.calls, h.serving.running⟩

theorem mqttConnecting_spec (now : UInt32) :
    Triple (fun w => w.Serving ∧ w.main.deviceState = .mqttConnecting) (mqttConnecting ans now)
      fun _ => Inv := by
  refine Triple.get_eq fun w ⟨hw, hstate⟩ => ?_
  have hrebuild : Triple (fun s => s = w) (rebuildPpp ans now) fun _ => Inv :=
    (rebuildPpp_spec ans now hw).conseq (fun _ hs => hs) fun _ _ h => h.inv hw
  refine Triple.ite (fun _ => hrebuild) fun _ => Triple.ite (fun _ => hrebuild) fun hstreak => ?_
  have hlt := lt_of_not_shouldRebuild hstreak
  have hconnect : Triple (fun s => s = w) (connect ans) (Connects w) :=
    (connect_spec ans).conseq (fun s hs => hs ▸ .refl w) fun _ _ h => h
  refine Triple.bind hconnect fun ok => Triple.ite (fun hok => ?_) fun hok => ?_
  · subst hok
    exact (connect_true_spec ans now).conseq (fun _ h => online_of_connects h hw hlt) fun _ _ h => h
  · refine Triple.pure fun s h => ?_
    simp only [Bool.not_eq_true] at hok
    subst hok
    exact inv_of_serving (serving_of_refused h hw hlt) (h.main ▸ hstate)

/-- STATE_MQTT_CONNECTED between two of its steps. With the flag down the failure has been
    counted, and the iteration will not stay in this state. -/
structure Attending (w : LoopWorld) : Prop where
  state : w.main.deviceState = .mqttConnected
  serving : w.Serving
  streak : w.mqtt.connected = true → w.mqtt.mqttFailStreak < mqttFailsBeforePppRebuild

theorem Attending.undisturbed {w w' : LoopWorld} (h : Attending w) (h' : Undisturbed w w') :
    Attending w' :=
  ⟨h'.main ▸ h.state, h.serving.undisturbed h', fun hset => h'.streak ▸ h.streak (h'.connected hset)⟩

theorem Attending.calls_owned {w w' : LoopWorld} (h : Attending w)
    (h' : Calls w.main.ppp.tinyGsmModem w w') : Attending w' :=
  ⟨h'.main ▸ h.state, h.serving.calls_owned h', h'.mqtt ▸ h.streak⟩

theorem loop_attending (lib : ArduinoJson) :
    Triple (fun w => w.InMqttConnected ∧ w.Inv) (MqttManager.loop lib ans) fun _ => Attending := by
  intro w ⟨h, hinv⟩
  have hserving : w.Serving :=
    ⟨h.up, h.linked, UInt8.le_of_lt h.streak, h.noSetup, hinv.calls, hinv.running⟩
  have hattending : Attending w := ⟨h.state, hserving, fun _ => h.streak⟩
  rcases MqttManager.loop_spec ans lib w rfl with hsame | ⟨w₁, hsame, heq⟩
  · exact hattending.undisturbed hsame
  · have h₁ := hattending.undisturbed hsame
    have hlt : w₁.mqtt.mqttFailStreak < mqttFailsBeforePppRebuild := hsame.streak ▸ h.streak
    rw [heq]
    refine ⟨h₁.state, ⟨h₁.serving.up, h₁.serving.linked, succ_le_threshold hlt,
      h₁.serving.noSetup, h₁.serving.calls, h₁.serving.running⟩, fun hfalse => nomatch hfalse⟩

theorem applyOobAction_spec (action : OobAction) (now : UInt32) :
    Triple Attending (applyOobAction ans action now) fun r w => r = true ∧ Ends w := by
  cases action with
  | reboot =>
    refine Triple.bind (Q := fun _ => Ends) ?_ fun _ => Triple.pure fun w h => ⟨rfl, h⟩
    exact Triple.modify fun w h => ⟨h.serving.calls, .inl rfl⟩
  | rebuildPpp =>
    refine Triple.bind (Q := fun _ => Ends) ?_ fun _ => Triple.pure fun w h => ⟨rfl, h⟩
    intro w h
    exact ends_of_inv ((rebuildPpp_spec ans now h.serving w rfl).inv h.serving)

/-- The poll either acted on a command, which ends the iteration, or changed nothing. -/
def PollEnds (acted : Bool) (w : LoopWorld) : Prop := if acted then Ends w else Attending w

theorem pollOobCommandViaModem_spec (now : UInt32) :
    Triple Attending (pollOobCommandViaModem ans now) PollEnds := by
  refine Triple.get_eq fun w h => Triple.ite (fun _ => ?_) fun hguard => ?_
  · exact Triple.pure fun s hs => hs ▸ h
  have hsome : w.main.ppp.tinyGsmModem.isSome :=
    Option.isSome_iff_ne_none.mpr (mt Option.isNone_iff_eq_none.mpr hguard)
  let Since := Calls w.main.ppp.tinyGsmModem w
  have hcall : ∀ {method}, method ≠ .mqttConnect →
      Keeps Since (TinyGsm.call ans method w.main.ppp.tinyGsmModem) :=
    fun hmethod => TinyGsm.call_keeps ans hsome hmethod
  have hidle : Triple Since (pure false : LoopM Bool) PollEnds :=
    Triple.pure fun s hs => h.calls_owned hs
  have hacts : ∀ action, Triple Since (applyOobAction ans action now) PollEnds :=
    fun action => (applyOobAction_spec ans action now).conseq (fun s hs => h.calls_owned hs)
      fun acted s hs => by
        rw [PollEnds, if_pos hs.1]
        exact hs.2
  have hpoll : Triple Since (do
      TinyGsm.call ans .httpsBegin w.main.ppp.tinyGsmModem
      TinyGsm.call ans .httpsSetUrl w.main.ppp.tinyGsmModem
      if !ans.httpsSetUrl then
        TinyGsm.call ans .httpsEnd w.main.ppp.tinyGsmModem
        return false
      else
        [ModemMethod.httpsAddHeader, .httpsAddHeader, .httpsAddHeader, .httpsGet, .httpsEnd].forM
          fun method => TinyGsm.call ans method w.main.ppp.tinyGsmModem
        if ans.httpsGet = 205 then applyOobAction ans .reboot now
        else if ans.httpsGet = 206 then applyOobAction ans .rebuildPpp now
        else return false) PollEnds := by
    refine Triple.bind (hcall (by simp)) fun _ => Triple.bind (hcall (by simp)) fun _ => ?_
    refine Triple.ite (fun _ => ?_) fun _ => Triple.bind (Keeps.forM fun method hmem => ?_) fun _ => ?_
    · exact Triple.bind (hcall (by simp)) fun _ => hidle
    · refine hcall fun hconnect => ?_
      subst hconnect
      simp at hmem
    · exact Triple.ite (fun _ => hacts .reboot) fun _ =>
        Triple.ite (fun _ => hacts .rebuildPpp) fun _ => hidle
  exact hpoll.conseq (fun s hs => hs ▸ .refl _ w) fun _ _ h => h

theorem pollOob_spec (now : UInt32) : Triple Attending (pollOob ans now) PollEnds := by
  refine Triple.get_eq fun w h => Triple.ite (fun _ => ?_) fun _ => Triple.pure fun s hs => hs ▸ h
  refine Triple.bind (Q := fun _ => Attending) (Triple.set fun _ _ => ?_) fun _ =>
    pollOobCommandViaModem_spec ans now
  exact ⟨h.state, ⟨h.serving.up, h.serving.linked, h.serving.streak, h.serving.noSetup,
    h.serving.calls, h.serving.running⟩, h.streak⟩

theorem mqttConnected_spec (now : UInt32) :
    Triple Attending (mqttConnected ans now) fun _ => Ends := by
  have hstatus : Keeps Attending (publishStatus ans) := fun w h =>
    h.undisturbed (publishStatus_keeps ans w (.refl w))
  have hconnected : Triple Attending (isConnected ans) fun r w =>
      Attending w ∧ (r = true → w.mqtt.connected = true) := by
    intro w h
    obtain ⟨hcalls, hr⟩ := isConnected_spec ans w rfl
    exact ⟨h.undisturbed ((Undisturbed.refl w).then_calls hcalls), hr⟩
  refine Triple.bind (pollOob_spec ans now) fun acted => Triple.ite (fun hacted => ?_) fun hacted => ?_
  · refine Triple.pure fun w h => ?_
    rwa [PollEnds, if_pos hacted] at h
  · have hattending : ∀ w, PollEnds acted w → Attending w := by
      intro w h
      rwa [PollEnds, if_neg hacted] at h
    refine Triple.conseq (Triple.bind hstatus fun _ => ?_) hattending fun _ _ h => h
    refine Triple.bind hconnected fun r => Triple.ite (fun hr => ?_) fun _ => ?_
    · refine Triple.pure fun w ⟨h, hset⟩ => ends_of_inv ⟨.mqttConnected ?_, ?_, ?_⟩
      · exact ⟨h.state, h.serving.up, h.serving.linked, h.streak (hset hr), hset hr,
          h.serving.noSetup⟩
      · exact h.serving.calls
      · exact h.serving.running
    · refine Triple.modify fun w ⟨h, _⟩ => ends_of_inv ?_
      have hconnecting : InMqttConnecting { w with main := w.main.enter .mqttConnecting now } :=
        ⟨rfl, h.serving.up, h.serving.linked, h.serving.streak, h.serving.noSetup⟩
      exact ⟨.mqttConnecting hconnecting, h.serving.calls, h.serving.running⟩

/-! ## Iterations -/

/-- The world at the switch of `loop()`, after the messages of STATE_MQTT_CONNECTED have
    been processed. -/
inductive AtSwitch (w : LoopWorld) : Prop where
  | modemInit (h : w.InModemInit) (inv : w.Inv)
  | pppConnecting (h : Connecting w)
  | pppUp (h : SettingUp w)
  | mqttConnecting (state : w.main.deviceState = .mqttConnecting) (h : w.Serving)
  | mqttConnected (h : Attending w)

/-- The counters of an iteration do not matter to the invariant. -/
theorem inv_counters {w : LoopWorld} (h : w.Inv) (reads answered : Nat) :
    Inv { w with reads := reads, answered := answered } := by
  have hphase : Phase { w with reads := reads, answered := answered } := by
    cases h.phase with
    | modemInit h => exact .modemInit ⟨h.state, h.idle, h.streak, h.noSetup⟩
    | pppConnecting h => exact .pppConnecting ⟨h.state, h.connecting, h.streak, h.noSetup⟩
    | pppUp h => exact .pppUp ⟨h.state, h.up, h.streak, h.linked, h.order⟩
    | mqttConnecting h => exact .mqttConnecting ⟨h.state, h.up, h.linked, h.streak, h.noSetup⟩
    | mqttConnected h =>
      exact .mqttConnected ⟨h.state, h.up, h.linked, h.streak, h.connected, h.noSetup⟩
  exact ⟨hphase, h.calls, h.running⟩

theorem millis_keeps_inv : Keeps Inv (millis ans) :=
  fun _ h => inv_counters h _ _

theorem atSwitch_of_inv {w : LoopWorld} (h : w.Inv) (hstate : w.main.deviceState ≠ .mqttConnected) :
    AtSwitch w := by
  cases h.phase with
  | modemInit hphase => exact .modemInit hphase h
  | pppConnecting hphase => exact .pppConnecting ⟨hphase, h.calls, h.running⟩
  | pppUp hphase => exact .pppUp ⟨hphase, h.calls, h.running⟩
  | mqttConnecting hphase =>
    exact .mqttConnecting hphase.state
      ⟨hphase.up, hphase.linked, hphase.streak, hphase.noSetup, h.calls, h.running⟩
  | mqttConnected hphase => exact absurd hphase.state hstate

theorem processMessages_spec (lib : ArduinoJson) :
    Triple Inv (processMessages lib ans) fun _ => AtSwitch := by
  refine Triple.get_eq fun w h => Triple.ite (fun hstate => ?_) fun hstate => ?_
  · rintro s rfl
    have hphase : s.InMqttConnected := by
      cases h.phase with
      | mqttConnected hphase => exact hphase
      | modemInit hphase | pppConnecting hphase | pppUp hphase | mqttConnecting hphase =>
        exact absurd (hphase.state.symm.trans hstate) (by simp)
    exact .mqttConnected (loop_attending ans lib s ⟨hphase, h⟩)
  · exact Triple.pure fun s hs => hs ▸ atSwitch_of_inv h hstate

theorem runState_spec (now : UInt32) {w : LoopWorld} (h : AtSwitch w) :
    Ends ((runState ans now w.main.deviceState).run w).2 := by
  cases h with
  | modemInit h inv =>
    rw [h.state]
    exact ends_of_inv (modemInit_spec ans now w ⟨h, inv⟩)
  | pppConnecting h =>
    rw [h.1.state]
    exact ends_of_inv (pppConnecting_spec ans now w h)
  | pppUp h =>
    rw [h.1.state]
    exact ends_of_inv (pppUp_spec ans now w h)
  | mqttConnecting state h =>
    rw [state]
    exact ends_of_inv (mqttConnecting_spec ans now w ⟨h, state⟩)
  | mqttConnected h =>
    rw [h.state]
    exact mqttConnected_spec ans now w h

/-- An iteration keeps the invariant, or ends in a restart with all calls sound. -/
theorem loop_ends (lib : ArduinoJson) : Triple Inv (loop lib ans) fun _ => Ends := by
  refine Triple.bind (millis_keeps_inv ans) fun now => ?_
  refine Triple.bind (processMessages_spec ans lib) fun _ => Triple.get_eq fun w h => ?_
  rintro s rfl
  exact runState_spec ans now h

end MainLoop

namespace LoopWorld

theorem Inv.iterate {w : LoopWorld} (h : w.Inv) (lib : ArduinoJson) (ans : Answers) :
    (w.iterate lib ans).Inv := by
  have hends := MainLoop.loop_ends ans lib _ (MainLoop.inv_counters h 0 0)
  unfold LoopWorld.iterate
  simp only
  split
  · exact boot_inv _ _ hends.1
  · rename_i hrunning
    exact hends.2.resolve_left hrunning

end LoopWorld

end Firmware
