-- SUMMARY: What one iteration of the main loop does in each device state when the modem, the network and the broker cooperate.
import ParkingGate.Firmware.Listening
import ParkingGate.Firmware.ModemManager
import ParkingGate.Firmware.PppEscalation
import ParkingGate.Firmware.Reconnects

/-!
# Iterations that meet no failure

`Cooperates` says that the network registers and activates, that the broker accepts, that the
session does not drop and that no command comes out of band. The clock is left open, and so is
the message traffic. Under these answers the outcome of an iteration is determined by the state
and by the timers, and one lemma for each device state says how.
-/

namespace Firmware

open Config Hoare MqttManager MainLoop

/-- An iteration in which whatever the device asks for succeeds. -/
structure Answers.Cooperates (ans : Answers) : Prop where
  registered : ans.pppWait.getRegistrationStatus = .okHome ∨ ans.pppWait.getRegistrationStatus = .okRoaming
  apn : ans.pppWait.setNetworkAPN = true
  active : ans.pppWait.setNetworkActive = true
  address : ans.pppWait.getLocalIP ≠ "" ∧ ans.pppWait.getLocalIP ≠ "0.0.0.0"
  drops : ∀ k, ans.drops k = false
  connects : ans.mqttConnect = (true, .opened)
  subscribes : ans.mqttSubscribe = true
  publishes : ∀ k, ans.mqttPublish k = true
  uncommanded : OobPoll.actionOf ans.httpsGet = none

/-! ## PPP -/

/-- What STATE_PPP_CONNECTING sees of an iteration. -/
def Answers.pppIteration (ans : Answers) : PppIteration := ⟨ans.millis 0, ans.pppStart, ans.pppWait⟩

namespace LoopState

open Recovery

variable {m : LoopState} {it : PppIteration} {entered started : UInt32}

/-- A window that begins at `entered`, in which PPP has not been started. -/
structure Afresh (entered : UInt32) (m : LoopState) : Prop where
  state : m.deviceState = .pppConnecting
  toStart : m.ToStart
  idle : m.ppp.Idle
  entry : m.stateEntryTime = entered

/-- PPP was started at `started`, in that window, and has come as far as `reached`. -/
structure Climbing (entered started : UInt32) (reached : PppConnState) (m : LoopState) : Prop where
  state : m.deviceState = .pppConnecting
  noForce : m.forcePppRestart = false
  isStarted : m.pppStarted = true
  starting : m.ppp.Starting
  entry : m.stateEntryTime = entered
  startTime : m.ppp.pppStartTime = started
  connState : m.ppp.connState = reached

/-- Neither timer has run out in this iteration. -/
structure InTime (entered started : UInt32) (it : PppIteration) : Prop where
  own : ¬ it.wait.millis - started > pppTimeoutMs
  window : ¬ it.now - entered > pppTimeoutMs

/-- While neither timer has run out, an iteration is a step of the connection. -/
theorem pppConnecting_of_starting (m : LoopState) (it : PppIteration)
    (hstarting : (m.startPpp it).ppp.Starting)
    (hintime : InTime m.stateEntryTime (m.startPpp it).ppp.pppStartTime it) :
    (m.pppConnecting it).1 =
      if ((m.startPpp it).ppp.advance it.wait).1 then
        { m.startPpp it with
          ppp := ((m.startPpp it).ppp.advance it.wait).2.resetPppFailStreak
          deviceState := .pppUp
          pppStarted := false }
      else { m.startPpp it with ppp := ((m.startPpp it).ppp.advance it.wait).2 } := by
  have hmodem : (m.startPpp it).ppp.tinyGsmModem ≠ none :=
    Option.isSome_iff_ne_none.mp hstarting.modem
  have hwait : (m.startPpp it).ppp.waitForPppUp pppTimeoutMs it.wait =
      (m.startPpp it).ppp.advance it.wait := by
    simp [PppManager.waitForPppUp, hstarting.pppUp, hstarting.pppStarting, hmodem, hintime.own]
  have hpoll : (m.startPpp it).poll it = (((m.startPpp it).ppp.advance it.wait).1,
      { m.startPpp it with ppp := ((m.startPpp it).ppp.advance it.wait).2 }) := by
    rw [poll, hwait]
  split
  next hup =>
    rw [hup] at hpoll
    rw [pppConnecting_of_up hpoll]
  next hpending =>
    rw [Bool.eq_false_iff.mpr hpending] at hpoll
    rw [pppConnecting_of_not_expires hpoll fun hexpires => hintime.window hexpires.2]

/-- PPP is started, and looks for the network in the next iteration. -/
theorem Afresh.next (h : Afresh entered m) (hintime : InTime entered it.startMillis it) :
    Climbing entered it.startMillis .waitRegistration (m.pppConnecting it).1 := by
  obtain ⟨ppp, hstart, hstarting, htime, -⟩ := h.idle.start it.startMillis
  have hinit : ppp.connState = .init := by
    have hsecond := congrArg Prod.snd hstart
    simp only [PppManager.start, h.idle.pppStarting, h.idle.pppUp, PppManager.initializeTinyGsm,
      h.idle.modem] at hsecond
    rw [← hsecond]
    rfl
  have heq : m.startPpp it = { m with forcePppRestart := false, pppStarted := true, ppp := ppp } := by
    rcases h.toStart with hforce | hnot
    · simp [startPpp, hforce, hstart]
    · simp [startPpp, hnot, hstart]
  have hadvance : ppp.advance it.wait = (false, { ppp with connState := .waitRegistration }) := by
    simp [PppManager.advance, hinit]
  have hnext := pppConnecting_of_starting m it (heq ▸ hstarting)
    (by rw [heq, h.entry, htime]; exact hintime)
  rw [hnext, heq]
  simp only [hadvance, Bool.false_eq_true, if_false]
  exact ⟨h.state, rfl, rfl, ⟨hstarting.pppUp, hstarting.pppStarting, hstarting.modem, by simp⟩, h.entry,
    htime, rfl⟩

namespace Climbing

variable {reached : PppConnState}

/-- An iteration after which PPP is still starting. -/
theorem of_advance {p : PppManager} {reached' : PppConnState} (h : Climbing entered started reached m)
    (hintime : InTime entered started it) (hadvance : m.ppp.advance it.wait = (false, p))
    (hstarting : p.Starting) (htime : p.pppStartTime = m.ppp.pppStartTime)
    (hreached : p.connState = reached') :
    Climbing entered started reached' (m.pppConnecting it).1 ∧ (m.pppConnecting it).1.ppp = p := by
  have heq := startPpp_of_started h.noForce h.isStarted it
  have hnext := pppConnecting_of_starting m it (by rw [heq]; exact h.starting)
    (by rw [heq, h.entry, h.startTime]; exact hintime)
  rw [hnext, heq, hadvance, if_neg Bool.false_ne_true]
  exact ⟨⟨h.state, h.noForce, h.isStarted, hstarting, h.entry, htime.trans h.startTime, hreached⟩, rfl⟩

variable (h : Climbing entered started reached m) (hintime : InTime entered started it)

include h hintime

/-- The registration is asked for once a second, and found. -/
theorem waitRegistration (hreached : reached = .waitRegistration)
    (hfound : it.wait.getRegistrationStatus = .okHome ∨ it.wait.getRegistrationStatus = .okRoaming) :
    Climbing entered started .setApn (m.pppConnecting it).1 ∨
      Climbing entered started .waitRegistration (m.pppConnecting it).1 ∧
        (m.pppConnecting it).1.ppp.lastRegCheck = m.ppp.lastRegCheck ∧
          it.wait.millis - m.ppp.lastRegCheck < 1000 := by
  subst hreached
  by_cases hearly : it.wait.millis - m.ppp.lastRegCheck < 1000
  · right
    have hadvance : m.ppp.advance it.wait = (false, m.ppp) := by
      simp [PppManager.advance, h.connState, hearly]
    obtain ⟨hnext, hppp⟩ := h.of_advance hintime hadvance h.starting rfl h.connState
    exact ⟨hnext, congrArg PppManager.lastRegCheck hppp, hearly⟩
  · left
    have hadvance : m.ppp.advance it.wait =
        (false, { m.ppp with lastRegCheck := it.wait.millis, connState := .setApn }) := by
      rcases hfound with hstatus | hstatus
      · simp [PppManager.advance, h.connState, hearly, hstatus]
      · simp [PppManager.advance, h.connState, hearly, hstatus]
    refine (h.of_advance hintime hadvance ?_ rfl rfl).1
    exact ⟨h.starting.pppUp, h.starting.pppStarting, h.starting.modem, by simp⟩

theorem setApn (hreached : reached = .setApn) (hset : it.wait.setNetworkAPN = true) :
    Climbing entered started .activateNetwork (m.pppConnecting it).1 := by
  subst hreached
  have hadvance : m.ppp.advance it.wait = (false, { m.ppp with connState := .activateNetwork }) := by
    simp [PppManager.advance, h.connState, hset]
  refine (h.of_advance hintime hadvance ?_ rfl rfl).1
  exact ⟨h.starting.pppUp, h.starting.pppStarting, h.starting.modem, by simp⟩

theorem activateNetwork (hreached : reached = .activateNetwork)
    (hactive : it.wait.setNetworkActive = true) :
    Climbing entered started .getIp (m.pppConnecting it).1 := by
  subst hreached
  have hadvance : m.ppp.advance it.wait =
      (false, { m.ppp with connState := .getIp, retryCount := 0 }) := by
    simp [PppManager.advance, h.connState, hactive]
  refine (h.of_advance hintime hadvance ?_ rfl rfl).1
  exact ⟨h.starting.pppUp, h.starting.pppStarting, h.starting.modem, by simp⟩

theorem getIp (hreached : reached = .getIp)
    (haddress : it.wait.getLocalIP ≠ "" ∧ it.wait.getLocalIP ≠ "0.0.0.0") :
    (m.pppConnecting it).1.deviceState = .pppUp := by
  subst hreached
  have hup : (m.ppp.advance it.wait).1 = true := by
    simp [PppManager.advance, h.connState, haddress]
  have heq := startPpp_of_started h.noForce h.isStarted it
  have hnext := pppConnecting_of_starting m it (by rw [heq]; exact h.starting)
    (by rw [heq, h.entry, h.startTime]; exact hintime)
  rw [hnext, heq, if_pos hup]

end Climbing

/-- Whatever the network does, the window ends with PPP up or with PPP to be started afresh, in a
    new window or once the modem is initialised. -/
theorem pppConnecting_cases (hstate : m.deviceState = .pppConnecting) (hppp : m.ppp.Connecting)
    (it : PppIteration) :
    (m.pppConnecting it).1.deviceState = .pppUp ∨ (m.pppConnecting it).1.deviceState = .modemInit ∨
      Afresh it.now (m.pppConnecting it).1 ∨
        (m.pppConnecting it).1.deviceState = .pppConnecting ∧
          (m.pppConnecting it).1.stateEntryTime = m.stateEntryTime ∧
            ¬ it.now - m.stateEntryTime > pppTimeoutMs := by
  have hconnecting : (m.startPpp it).ppp.Connecting := by
    obtain ⟨-, hsame | hstarted⟩ := m.startPpp_cases it
    · exact hsame ▸ hppp
    · exact hstarted ▸ hppp.start it.startMillis
  have hpolled := hconnecting.waitForPppUp pppTimeoutMs it.wait
  have hstate' := (poll_deviceState m it).trans hstate
  have hentry' := poll_stateEntryTime m it
  have hpoll : (m.startPpp it).poll it =
      (((m.startPpp it).ppp.waitForPppUp pppTimeoutMs it.wait).1, ((m.startPpp it).poll it).2) := rfl
  have hppp' : ((m.startPpp it).poll it).2.ppp =
      ((m.startPpp it).ppp.waitForPppUp pppTimeoutMs it.wait).2 := rfl
  rw [← hppp'] at hpolled
  generalize ((m.startPpp it).poll it).2 = polled at hpoll hpolled hstate' hentry'
  rcases hpolled with ⟨hup, -⟩ | ⟨hdown, hstill⟩
  · rw [hup] at hpoll
    left
    rw [pppConnecting_of_up hpoll]
  · rw [hdown] at hpoll
    right
    by_cases hexpires : m.Expires it
    · rw [pppConnecting_of_expires hpoll hexpires]
      unfold expire
      dsimp only
      split
      · exact .inl rfl
      · exact .inr (.inl ⟨hstate', .inr rfl, hstill.stop, rfl⟩)
    · rw [pppConnecting_of_not_expires hpoll hexpires]
      refine .inr (.inr ⟨hstate', hentry', fun hlate => hexpires ⟨?_, hlate⟩⟩)
      rw [hpoll]

end LoopState

/-! ## Over a session -/

/-- PPP stands at `m`, the session at `s`, and the flag is set while the session is up. -/
structure Watching (m : LoopState) (s : MqttSession) (w : LoopWorld) : Prop where
  main : w.main = m
  modem : w.mqtt.modem.isSome
  session : w.session = s
  flag : s.isUp = true → w.mqtt.connected = true

/-- The flag is lowered over a session that is gone, and over no other. -/
theorem lower_watching {m : LoopState} {s : MqttSession} (f : MqttManager → MqttManager) (hf : ∀ m, (f m).modem = m.modem)
    (hdown : s.isUp = false) : Keeps (Watching m s) (modifyMqtt f) := by
  refine Keeps.modify fun w hw => ⟨hw.main, ?_, hw.session, fun hup => ?_⟩
  · exact (hf w.mqtt).symm ▸ hw.modem
  · exact absurd (hup.symm.trans hdown) (by simp)

section Watching

variable {m : LoopState} {s : MqttSession} {ans : Answers} (h : ans.Cooperates)

include h

theorem call_watching (method : ModemMethod) (this : Option Nat) :
    Keeps (Watching m s) (TinyGsm.call ans method this) := by
  refine Keeps.modify fun w hw => ⟨hw.main, hw.modem, ?_, hw.flag⟩
  simp only [LoopWorld.called, h.drops, Bool.false_eq_true, if_false]
  exact hw.session

theorem mqttConnected_watching (this : Option Nat) :
    Triple (Watching m s) (TinyGsm.mqttConnected ans this) fun r w => r = s.isUp ∧ Watching m s w := by
  refine Triple.bind (call_watching h .mqttConnected this) fun _ => Triple.get fun w hw => ?_
  exact Triple.pure fun _ hs => ⟨congrArg MqttSession.isUp hw.session, hs⟩

theorem isConnected_watching :
    Triple (Watching m s) (isConnected ans) fun r w => r = s.isUp ∧ Watching m s w := by
  refine Triple.get fun w hw => Triple.ite (fun hflag => Triple.pure fun _ hs => ⟨?_, hs⟩) fun _ => ?_
  · cases hup : s.isUp with
    | false => rfl
    | true => simp [hw.flag hup] at hflag
  · refine Triple.ite (fun _ => mqttConnected_watching h _) fun hnone => ?_
    exact absurd hw.modem hnone

theorem publish_watching :
    Triple (Watching m s) (publish ans) fun r w => r = s.isUp ∧ Watching m s w := by
  refine Triple.bind (isConnected_watching h) fun connected => Triple.assume fun hconnected => ?_
  refine Triple.get fun w hw => Triple.ite (fun hguard => Triple.pure fun _ hs => ⟨?_, hs⟩) fun hguard => ?_
  · have hsome : w.mqtt.modem.isNone = false := by simpa [Option.isSome_iff_ne_none] using hw.modem
    rw [hsome, Bool.or_false, Bool.not_eq_true', hconnected] at hguard
    exact hguard.symm
  · have hup : connected = true := by
      simp only [Bool.or_eq_true, not_or, Bool.not_eq_true', Bool.not_eq_false] at hguard
      exact hguard.1
    refine Triple.get fun w' _ => Triple.bind (call_watching h _ _) fun _ => ?_
    exact Triple.pure fun _ hs => ⟨by rw [h.publishes, ← hconnected, hup], hs⟩

theorem staticMqttCallback_watching (lib : ArduinoJson) (payload : CString) :
    Keeps (Watching m s) (staticMqttCallback lib ans payload) := by
  have hmillis : Keeps (Watching m s) (millis ans) := fun _ hw =>
    ⟨hw.main, hw.modem, hw.session, hw.flag⟩
  have hconnected : Keeps (Watching m s) (isConnected ans) :=
    (isConnected_watching h).conseq (fun _ hw => hw) fun _ _ hw => hw.2
  have hpublish : Keeps (Watching m s) (publish ans) :=
    (publish_watching h).conseq (fun _ hw => hw) fun _ _ hw => hw.2
  have hperform : ∀ effect, Keeps (Watching m s) (perform ans effect) := by
    intro effect
    cases effect with
    | pulse requestId nowMs => exact Keeps.pure _
    | publishAck json => exact Keeps.bind hpublish fun _ => Keeps.pure _
  refine Keeps.get fun _ _ => Keeps.ite (fun _ => ?_) fun _ => Keeps.pure _
  refine Keeps.bind hconnected fun _ => Keeps.bind hmillis fun _ => Keeps.get fun _ _ => ?_
  refine Keeps.bind (Keeps.modify fun _ hw => ⟨hw.main, hw.modem, hw.session, hw.flag⟩) fun _ => ?_
  exact Keeps.forM fun effect _ => hperform effect

theorem loop_watching (lib : ArduinoJson) : Keeps (Watching m s) (MqttManager.loop lib ans) := by
  refine Keeps.get fun w _ => Keeps.ite (fun _ => Keeps.pure _) fun _ => ?_
  refine Keeps.bind (Keeps.bind (call_watching h _ _) fun _ => Keeps.forM fun payload _ =>
    staticMqttCallback_watching h lib payload) fun _ => ?_
  refine Triple.bind (mqttConnected_watching h _) fun up => Triple.assume fun hup => ?_
  refine Triple.ite (fun _ => Keeps.pure _) fun hdown => lower_watching _ (fun _ => rfl) ?_
  rw [← hup]
  exact Bool.eq_false_iff.mpr hdown

theorem publishStatus_watching : Keeps (Watching m s) (publishStatus ans) := by
  have hmillis : Keeps (Watching m s) (millis ans) := fun _ hw =>
    ⟨hw.main, hw.modem, hw.session, hw.flag⟩
  refine Triple.bind (isConnected_watching h) fun up => Triple.assume fun _ => ?_
  refine Triple.ite (fun _ => Keeps.bind hmillis fun now => Keeps.get fun _ _ => ?_) fun _ => Keeps.pure _
  refine Keeps.ite (fun _ => Keeps.pure _) fun _ => ?_
  refine Keeps.bind (Keeps.modify fun _ hw => ⟨hw.main, hw.modem, hw.session, hw.flag⟩) fun _ => ?_
  refine Triple.bind (publish_watching h) fun published => Triple.assume fun hpublished => ?_
  refine Triple.ite (fun _ => Keeps.pure _) fun hfailed => lower_watching _ (fun _ => rfl) ?_
  rw [← hpublished]
  exact Bool.eq_false_iff.mpr hfailed

theorem pollOob_watching (now : UInt32) :
    Triple (Watching m s) (pollOob ans now) fun acted w => acted = false ∧ Watching m s w := by
  have hnone : ans.httpsGet ≠ 205 ∧ ans.httpsGet ≠ 206 := by
    have hcode := h.uncommanded
    unfold OobPoll.actionOf at hcode
    split at hcode
    · exact absurd hcode (by simp)
    · split at hcode
      · exact absurd hcode (by simp)
      · constructor <;> assumption
  have hidle : Triple (Watching m s) (pure false : LoopM Bool) fun acted w =>
      acted = false ∧ Watching m s w := Triple.pure fun _ hw => ⟨rfl, hw⟩
  refine Triple.get fun w hw => Triple.ite (fun _ => Triple.bind (Q := fun _ => Watching m s) ?_ fun _ => ?_)
    fun _ => hidle
  · exact Triple.set fun _ _ => ⟨hw.main, hw.modem, hw.session, hw.flag⟩
  · refine Triple.get fun _ _ => Triple.ite (fun _ => hidle) fun _ => ?_
    refine Triple.bind (call_watching h _ _) fun _ => Triple.bind (call_watching h _ _) fun _ => ?_
    refine Triple.ite (fun _ => Triple.bind (call_watching h _ _) fun _ => hidle) fun _ => ?_
    refine Triple.bind (Keeps.forM fun method _ => call_watching h method _) fun _ => ?_
    exact Triple.ite (fun hcode => absurd hcode hnone.1) fun _ =>
      Triple.ite (fun hcode => absurd hcode hnone.2) fun _ => hidle

/-- STATE_MQTT_CONNECTED is left when the session is gone. -/
theorem mqttConnected_outcome (now : UInt32) :
    Triple (Watching m s) (mqttConnected ans now) fun _ w =>
      w.main = (if s.isUp then m else m.enter .mqttConnecting now) ∧ w.session = s := by
  refine Triple.bind (pollOob_watching h now) fun acted => Triple.assume fun hacted => ?_
  refine Triple.ite (fun hfalse => by rw [hacted] at hfalse; cases hfalse) fun _ => ?_
  refine Triple.bind (publishStatus_watching h) fun _ => ?_
  refine Triple.bind (isConnected_watching h) fun up => Triple.assume fun hup => ?_
  rw [← hup]
  refine Triple.ite (fun htrue => Triple.pure fun w hw => ?_) fun hfalse => Triple.modify fun w hw => ?_
  · exact ⟨hw.main.trans (if_pos htrue).symm, hw.session⟩
  · exact ⟨(congrArg (LoopState.enter · .mqttConnecting now) hw.main).trans (if_neg hfalse).symm,
      hw.session⟩

theorem uploadDiagnostics_watching (n : Nat) : Keeps (Watching m s) (uploadDiagnostics ans n) := by
  induction n with
  | zero => exact Keeps.pure _
  | succ n ih =>
    refine Triple.bind (publish_watching h) fun _ => Triple.assume fun _ => ?_
    exact Triple.ite (fun _ => ih) fun _ => Keeps.pure _

end Watching

/-! ## Connecting -/

section Connecting

variable {ans : Answers} (h : ans.Cooperates) {w : LoopWorld}

include h

/-- An attempt opens a session and subscribes it. -/
theorem attemptConnection_watching (hsome : w.mqtt.modem.isSome) :
    ((attemptConnection ans).run w).1 = true ∧
      Watching w.main .subscribed ((attemptConnection ans).run w).2 := by
  obtain ⟨i, hmodem⟩ := Option.isSome_iff_exists.mp hsome
  simp [attemptConnection, connectToBroker, confirmed, subscribeToCommands, modifyMqtt, TinyGsm.call,
    TinyGsm.mqttConnected, TinyGsm.mqttConnect, TinyGsm.mqttSubscribe, LoopWorld.called,
    SessionChange.apply, MqttSession.isUp, hmodem, h.drops, h.connects, h.subscribes]
  exact ⟨rfl, rfl, hsome, rfl, fun _ => rfl⟩

/-- The shortcut of `connect` is taken over a session that stays. -/
theorem findsSession_watching (hfinds : Reconnects.findsSession ans w = true) :
    w.session.isUp = true ∧ Watching w.main w.session (Reconnects.beforeTest ans w) := by
  have hsame : ∀ w : LoopWorld, (w.called ans .mqttConnected w.mqtt.modem).session = w.session := by
    intro w
    simp [LoopWorld.called, h.drops]
  rw [Reconnects.findsSession, alreadyConnected_run] at hfinds
  split at hfinds
  next hguard =>
    obtain ⟨hflag, hsome⟩ := Bool.and_eq_true_iff.mp hguard
    have hbefore : Reconnects.beforeTest ans w =
        ({ w with reads := w.reads + 1 } : LoopWorld).called ans .mqttConnected w.mqtt.modem := by
      rw [Reconnects.beforeTest, alreadyConnected_run, if_pos hguard]
    rw [hsame] at hfinds
    rw [hbefore]
    exact ⟨hfinds, rfl, hsome, hsame _, fun _ => hflag⟩
  next => cases hfinds

/-- `connect` ends over a session, unless it is held back by the backoff. -/
theorem connect_watching (hsome : w.mqtt.modem.isSome) :
    (((connect ans).run w).1 = true ∧ ∃ s, s.isUp = true ∧ Watching w.main s ((connect ans).run w).2) ∨
      ((connect ans).run w).1 = false ∧ w.mqtt.shouldWait (ans.millis w.reads) = true ∧
        ((connect ans).run w).2.main = w.main ∧ ((connect ans).run w).2.mqtt = w.mqtt := by
  have hmain : (Reconnects.beforeTest ans w).main = w.main := by
    rw [Reconnects.beforeTest, alreadyConnected_run]
    split <;> rfl
  have hmqtt := Reconnects.beforeTest_mqtt ans w
  rw [Reconnects.connect_run]
  split
  next hfinds => exact .inl ⟨rfl, w.session, findsSession_watching h hfinds⟩
  next =>
    split
    next hwait => exact .inr ⟨rfl, hwait, hmain, hmqtt⟩
    next =>
      refine .inl ?_
      obtain ⟨hok, hwatching⟩ := attemptConnection_watching h
        (w := { Reconnects.beforeTest ans w with
          mqtt := { w.mqtt with lastConnectAttempt := ans.millis w.reads } }) hsome
      exact ⟨hok, .subscribed, rfl, hmain ▸ hwatching⟩

end Connecting

/-! ## Setting up MQTT -/

section SettingUp

variable {m : LoopState} {t : UInt32} (ans : Answers) (now : UInt32)

/-- PPP stands at `m`, and the timer of STATE_PPP_UP was started at `t`. -/
def TimedFrom (m : LoopState) (t : UInt32) (w : LoopWorld) : Prop := w.main = m ∧ w.pppUpTime = t

theorem linkMqtt_timedFrom : Keeps (TimedFrom m t) (linkMqtt now) := by
  have hbegin : Keeps (TimedFrom m t) beginCustom := Keeps.modify fun _ hw => hw
  refine Keeps.get fun _ _ => Keeps.ite (fun _ => ?_) fun _ => Keeps.pure _
  refine Keeps.bind (Keeps.modify fun _ hw => hw) fun _ => Keeps.bind hbegin fun _ => ?_
  exact Keeps.modify fun _ hw => hw

theorem initializeMqtt_timedFrom : Keeps (TimedFrom m t) (initializeMqtt ans now) := by
  have hinitialize : Keeps (TimedFrom m t) (initializeModemMqtt ans) :=
    Keeps.get fun _ _ => Keeps.ite (fun _ => Keeps.pure _) fun _ =>
      Keeps.bind (Keeps.modify fun _ hw => hw) fun _ => Keeps.pure _
  refine Keeps.get fun _ _ => Keeps.ite (fun _ => Keeps.bind hinitialize fun _ => ?_) fun _ => Keeps.pure _
  exact Keeps.ite (fun _ => Keeps.modify fun _ hw => hw) fun _ => Keeps.pure _

/-- After the first second the manager is linked. -/
theorem linkMqtt_links (hlate : now - t > 1000) :
    Triple (fun w => w.pppUpTime = t) (linkMqtt now) fun _ w => w.mqttSetup = true := by
  refine Triple.get_eq fun w ht => Triple.ite (fun _ => ?_) fun hguard => Triple.pure fun s hs => ?_
  · refine Triple.bind (Q := fun _ _ => True) (fun _ _ => trivial) fun _ => ?_
    refine Triple.bind (Q := fun _ _ => True) (fun _ _ => trivial) fun _ => ?_
    exact Triple.modify fun _ _ => rfl
  · rw [hs]
    simpa [ht, hlate] using hguard

/-- After the second one the client of the modem is initialised. -/
theorem initializeMqtt_initializes (hlate : now - t > 2000) :
    Triple (fun w => SettingUp w ∧ w.mqttSetup = true ∧ w.pppUpTime = t) (initializeMqtt ans now)
      fun _ w => w.mqttInitialized = true := by
  refine Triple.get_eq fun w hw => Triple.ite (fun _ => ?_) fun hguard => Triple.pure fun s hs => ?_
  · obtain ⟨hsettingUp, hsetup, -⟩ := hw
    have hsome : w.mqtt.modem.isSome := by
      rw [hsettingUp.1.linked hsetup]
      exact hsettingUp.1.up.modem
    have hinitialize : Triple (fun s => s = w) (initializeModemMqtt ans) fun ok _ => ok = true := by
      refine Triple.get_eq fun s hs => Triple.ite (fun hnone => ?_) fun _ => ?_
      · simp [Option.isNone_iff_eq_none.mp (hs ▸ hnone)] at hsome
      · exact Triple.bind (Q := fun _ _ => True) (fun _ _ => trivial) fun _ => Triple.pure fun _ _ => rfl
    refine Triple.bind hinitialize fun ok => Triple.ite (fun _ => Triple.modify fun _ _ => rfl) fun hnot => ?_
    exact Triple.pure fun _ hok => absurd hok hnot
  · rw [hs]
    obtain ⟨-, hsetup, ht⟩ := hw
    simpa [ht, hlate, hsetup] using hguard

/-- STATE_PPP_UP is left after three seconds, with all its steps made by then. -/
theorem pppUp_outcome {w : LoopWorld} (hw : SettingUp w)
    (ht : t = if w.pppUpTime = 0 then now else w.pppUpTime) :
    Triple (fun s => s = w) (pppUp ans now) fun _ s =>
      if now - t > 3000 then s.main = w.main.enter .mqttConnecting now else TimedFrom w.main t s := by
  let Since (s : LoopWorld) : Prop := SettingUp s ∧ TimedFrom w.main t s
  have hstart : Triple (fun s => s = w) (modify fun s =>
      { s with pppUpTime := if s.pppUpTime = 0 then now else s.pppUpTime } : LoopM PUnit)
      fun _ => Since := by
    refine Triple.modify fun s hs => ?_
    obtain rfl := hs
    rw [← ht]
    exact ⟨⟨⟨hw.1.state, hw.1.up, hw.1.streak, hw.1.linked, hw.1.order⟩, hw.2⟩, rfl, rfl⟩
  have hlink : Triple Since (linkMqtt now) fun _ s =>
      Since s ∧ (now - t > 3000 → s.mqttSetup = true) := fun s hs =>
    ⟨⟨linkMqtt_spec now s hs.1, linkMqtt_timedFrom now s hs.2⟩, fun hlate =>
      linkMqtt_links now (UInt32.lt_trans (by decide) hlate) s hs.2.2⟩
  have hinitialize : Triple (fun s => Since s ∧ (now - t > 3000 → s.mqttSetup = true))
      (initializeMqtt ans now) fun _ s => Since s ∧ (now - t > 3000 → s.mqttInitialized = true) :=
    fun s hs => ⟨⟨initializeMqtt_spec ans now s hs.1.1, initializeMqtt_timedFrom ans now s hs.1.2⟩,
      fun hlate => initializeMqtt_initializes ans now (UInt32.lt_trans (by decide) hlate) s
        ⟨hs.1.1, hs.2 hlate, hs.1.2.2⟩⟩
  refine Triple.bind hstart fun _ => Triple.bind hlink fun _ => Triple.bind hinitialize fun _ => ?_
  refine Triple.get_eq fun s hs => ?_
  obtain ⟨⟨-, htimed⟩, hinitialized⟩ := hs
  refine Triple.ite (fun hguard => Triple.set fun _ _ => ?_) fun hguard => Triple.pure fun s' hs' => ?_
  · rw [htimed.2, Bool.and_eq_true, decide_eq_true_eq] at hguard
    rw [if_pos hguard.2]
    exact congrArg (LoopState.enter · .mqttConnecting now) htimed.1
  · rw [htimed.2] at hguard
    have hearly : ¬ now - t > 3000 := fun hlate => hguard (by simp [hinitialized hlate, hlate])
    rw [if_neg hearly, hs']
    exact htimed

end SettingUp

/-! ## Iterations -/

namespace LoopWorld

variable {w : LoopWorld} (hw : w.Inv) (lib : ArduinoJson) {ans : Answers}

include hw

/-- Outside STATE_MQTT_CONNECTED an iteration is its case of the switch. -/
theorem Inv.iterate_run (ans : Answers) (hstate : w.main.deviceState ≠ .mqttConnected) :
    w.iterate lib ans = ((runState ans (ans.millis 0) w.main.deviceState).run
      { w with reads := 1, answered := 0 }).2 := by
  have hrunning : (OobPoll.atEnd lib w ans).restarting = false :=
    ModemLoop.restarts_false lib ans hw.running hstate
  rw [OobPoll.iterate_eq, OobPoll.restarted_of_running hrunning, OobPoll.atEnd]
  rw [loop_run_of_state lib ans (w := { w with reads := 0, answered := 0 }) hstate]

/-- The modem answers, and PPP is to be started. -/
theorem Inv.iterate_modemReady (hstate : w.main.deviceState = .modemInit) (hready : ans.modemInit = true) :
    (w.iterate lib ans).main = w.main.enter .pppConnecting (ans.millis 0) := by
  rw [hw.iterate_run lib ans (by simp [hstate]), hstate]
  have hrun : (modemInit ans (ans.millis 0)).run { w with reads := 1, answered := 0 } =
      (if ans.modemInit then set { w with
          reads := 1, answered := 0, modemInitRetries := 0, main := w.main.enter .pppConnecting (ans.millis 0) }
        else _ : LoopM Unit).run { w with reads := 1, answered := 0 } := rfl
  change ((modemInit ans (ans.millis 0)).run { w with reads := 1, answered := 0 }).2.main = _
  rw [hrun, if_pos hready]
  rfl

/-- While it does not, the device stays in STATE_MODEM_INIT, whatever the retries come to. -/
theorem Inv.iterate_modemSilent (hstate : w.main.deviceState = .modemInit)
    (hsilent : ans.modemInit = false) :
    (w.iterate lib ans).main.deviceState = .modemInit := by
  rw [ModemLoop.iterate_modemInit lib ans hw.running hstate, if_neg (by simp [hsilent])]

theorem Inv.iterate_pppConnecting (ans : Answers) (hstate : w.main.deviceState = .pppConnecting) :
    (w.iterate lib ans).main = (w.main.pppConnecting ans.pppIteration).1 := by
  rw [hw.iterate_run lib ans (by simp [hstate]), hstate]
  exact ModemLoop.pppConnecting_main ans (ans.millis 0) _ rfl

/-- STATE_PPP_UP lasts three seconds, from the first iteration in it whose clock does not read
    zero. -/
theorem Inv.iterate_pppUp (ans : Answers) (hstate : w.main.deviceState = .pppUp) {t : UInt32}
    (ht : t = if w.pppUpTime = 0 then ans.millis 0 else w.pppUpTime) :
    if ans.millis 0 - t > 3000 then
      (w.iterate lib ans).main = w.main.enter .mqttConnecting (ans.millis 0) ∧
        (w.iterate lib ans).mqtt.mqttFailStreak = 0
    else TimedFrom w.main t (w.iterate lib ans) := by
  have hphase : w.InPppUp := by
    cases hw.phase with
    | pppUp hphase => exact hphase
    | modemInit hphase | pppConnecting hphase | mqttConnecting hphase | mqttConnected hphase =>
      exact absurd (hphase.state.symm.trans hstate) (by simp)
  have hstreak : IgnoresLoop fun s => s.mqtt.mqttFailStreak = 0 :=
    ⟨fun hs hmqtt _ => (congrArg MqttManager.mqttFailStreak hmqtt).trans hs, fun _ _ hs => hs⟩
  let start : LoopWorld := { w with reads := 1, answered := 0 }
  have hstart : SettingUp start :=
    ⟨⟨hphase.state, hphase.up, hphase.streak, hphase.linked, hphase.order⟩, hw.calls, hw.running⟩
  have houtcome := pppUp_outcome ans (ans.millis 0) hstart ht start rfl
  have hzero := hstreak.pppUp ans (ans.millis 0) start hphase.streak
  have hrun : w.iterate lib ans = ((pppUp ans (ans.millis 0)).run start).2 := by
    rw [hw.iterate_run lib ans (by simp [hstate]), hstate]
    rfl
  rw [hrun]
  beta_reduce at houtcome
  split
  next hlate =>
    rw [if_pos hlate] at houtcome
    exact ⟨houtcome, hzero⟩
  next hearly =>
    rw [if_neg hearly] at houtcome
    exact houtcome

/-- STATE_MQTT_CONNECTING is given up for a new PPP session when its time or the attempts have run
    out. -/
theorem Inv.iterate_gaveUp (ans : Answers) (hstate : w.main.deviceState = .mqttConnecting)
    (hgaveUp : ans.millis 0 - w.main.stateEntryTime > mqttConnectingMaxMs ∨
      ¬ w.mqtt.mqttFailStreak < mqttFailsBeforePppRebuild) :
    (w.iterate lib ans).main = w.main.rebuildPpp (ans.millis 0) := by
  let start : LoopWorld := { w with reads := 1, answered := 0 }
  have hserving : start.Serving := (MainLoop.inv_counters hw 1 0).serving hstate
  have hcase : (mqttConnecting ans (ans.millis 0)).run start =
      (if ans.millis 0 - w.main.stateEntryTime > mqttConnectingMaxMs then rebuildPpp ans (ans.millis 0)
        else if w.mqtt.shouldRebuildPpp then rebuildPpp ans (ans.millis 0)
        else _ : LoopM Unit).run start := rfl
  have hrun : (mqttConnecting ans (ans.millis 0)).run start =
      (rebuildPpp ans (ans.millis 0)).run start := by
    rw [hcase]
    split
    next => rfl
    next hnotStuck =>
      have hrebuild : w.mqtt.shouldRebuildPpp = true := by
        simpa [MqttManager.shouldRebuildPpp] using hgaveUp.resolve_left hnotStuck
      rw [if_pos hrebuild]
  rw [hw.iterate_run lib ans (by simp [hstate]), hstate]
  change ((mqttConnecting ans (ans.millis 0)).run start).2.main = _
  rw [hrun]
  exact (rebuildPpp_spec ans (ans.millis 0) hserving start rfl).main

/-- Otherwise it connects, unless the backoff holds it back. -/
theorem Inv.iterate_connecting (h : ans.Cooperates) (hstate : w.main.deviceState = .mqttConnecting)
    (hstuck : ¬ ans.millis 0 - w.main.stateEntryTime > mqttConnectingMaxMs)
    (hbelow : w.mqtt.mqttFailStreak < mqttFailsBeforePppRebuild) :
    ((w.iterate lib ans).main = w.main.enter .mqttConnected (ans.millis 0) ∧
        (w.iterate lib ans).session.isUp = true) ∨
      w.mqtt.shouldWait (ans.millis 1) = true ∧ (w.iterate lib ans).main = w.main ∧
        (w.iterate lib ans).mqtt = w.mqtt := by
  let start : LoopWorld := { w with reads := 1, answered := 0 }
  have hserving : start.Serving := (MainLoop.inv_counters hw 1 0).serving hstate
  have hrun : w.iterate lib ans = ((mqttConnecting ans (ans.millis 0)).run start).2 := by
    rw [hw.iterate_run lib ans (by simp [hstate]), hstate]
    rfl
  rw [hrun, mqttConnecting_run (w := start) hstuck hbelow]
  rcases connect_watching h (w := start) hserving.modem with
    ⟨hok, s, hup, hwatching⟩ | ⟨hheld, hwait, hmain, hmqtt⟩
  · left
    beta_reduce
    rw [if_pos hok]
    have hcallback : Keeps (Watching w.main s) (modifyMqtt fun m => { m with commandCallback := true }) :=
      Keeps.modify fun _ hs => ⟨hs.main, hs.modem, hs.session, hs.flag⟩
    have hconnected : Triple (Watching w.main s) (do
        modifyMqtt fun m => { m with commandCallback := true }
        uploadDiagnostics ans ans.diagnosticBatches
        modifyMain fun m => m.enter .mqttConnected (ans.millis 0)) fun _ w' =>
        w'.main = w.main.enter .mqttConnected (ans.millis 0) ∧ w'.session.isUp = true := by
      refine Triple.bind hcallback fun _ => Triple.bind (uploadDiagnostics_watching h _) fun _ => ?_
      refine Triple.modify fun w' hs => ⟨?_, hs.session.symm ▸ hup⟩
      exact congrArg (LoopState.enter · .mqttConnected (ans.millis 0)) hs.main
    exact hconnected _ hwatching
  · right
    beta_reduce
    rw [if_neg (by simp [hheld])]
    exact ⟨hwait, hmain, hmqtt⟩

/-- STATE_MQTT_CONNECTED is kept with its session, and left without one. -/
theorem Inv.iterate_connected (h : ans.Cooperates) (hstate : w.main.deviceState = .mqttConnected) :
    (w.iterate lib ans).main =
        (if w.session.isUp then w.main else w.main.enter .mqttConnecting (ans.millis 0)) ∧
      (w.iterate lib ans).session = w.session := by
  have hphase : w.InMqttConnected := by
    cases hw.phase with
    | mqttConnected hphase => exact hphase
    | modemInit hphase | pppConnecting hphase | pppUp hphase | mqttConnecting hphase =>
      exact absurd (hphase.state.symm.trans hstate) (by simp)
  have hsome : w.mqtt.modem.isSome := by
    rw [hphase.linked]
    exact hphase.up.modem
  have hnone : OobPoll.commanded w ans = none := by
    rw [OobPoll.commanded, h.uncommanded, ite_self]
  have hrunning : (OobPoll.atEnd lib w ans).restarting = false := by
    refine Bool.eq_false_iff.mpr fun hrestarts => ?_
    have hreboot := (OobPoll.restarts_iff lib ans hw.running).mp hrestarts
    rw [hnone] at hreboot
    cases hreboot
  let start : LoopWorld := { w with reads := 1, answered := 0 }
  have hstart : Watching w.main w.session start := ⟨rfl, hsome, rfl, fun _ => hphase.connected⟩
  have hprocess : Keeps (Watching w.main w.session) (processMessages lib ans) :=
    Keeps.get fun _ _ => Keeps.ite (fun _ => loop_watching h lib) fun _ => Keeps.pure _
  have hloop : Triple (Watching w.main w.session) (do
      processMessages lib ans
      runState ans (ans.millis 0) (← get).main.deviceState) fun _ w' =>
      w'.main = (if w.session.isUp then w.main else w.main.enter .mqttConnecting (ans.millis 0)) ∧
        w'.session = w.session := by
    refine Triple.bind hprocess fun _ => Triple.get fun w' hw' => ?_
    rw [hw'.main, hstate]
    exact mqttConnected_outcome h (ans.millis 0)
  rw [OobPoll.iterate_eq, OobPoll.restarted_of_running hrunning]
  exact hloop start hstart

end LoopWorld

end Firmware
