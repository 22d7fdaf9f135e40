-- SUMMARY: From every reachable state the device is connected within a bounded real time once everything cooperates, and stays connected.
import ParkingGate.Base.Progress
import ParkingGate.Firmware.Cooperation

/-!
# Self-healing

A run of the device may have gone through any failures, at any clock readings. If from some
moment on the modem, the network and the broker cooperate, the device reaches STATE_MQTT_CONNECTED
with its session up within a bounded time, and stays there.

Every state is left by a timer at the latest. A PPP window that was begun before takes its full
minute, and so does a backoff; the one that follows is not entered late, so that neither of its
timers runs out before PPP is up.
-/

namespace Firmware

open Config Hoare Clock32 Progress MqttManager MainLoop

namespace LoopWorld

/-! ## What every reachable state allows -/

/-- The delay of the backoff is within its maximum. -/
def Bounded (w : LoopWorld) : Prop := w.mqtt.backoff.currentMs ≤ backoffMaxMs

/-- Besides the invariant: outside STATE_PPP_CONNECTING no session counts as started. -/
structure Recoverable (w : LoopWorld) : Prop where
  inv : w.Inv
  started : w.main.deviceState ≠ .pppConnecting → w.main.pppStarted = false
  backoff : w.Bounded

private theorem base_le_max : backoffBaseMs ≤ backoffMaxMs := by decide

theorem bounded_of_timed {α : Type} {x : LoopM α}
    (h : ∀ b t, Keeps (Reconnects.Timed b t) x) : Keeps Bounded x := by
  intro w hw
  have hsame := (h _ _ w (.self w)).1
  rw [Bounded, hsame]
  exact hw

theorem increment_le {b : Backoff} (h : b.currentMs ≤ backoffMaxMs) :
    b.increment.currentMs ≤ backoffMaxMs := by
  rw [UInt32.le_iff_toNat_le, Backoff.increment_toNat h]
  exact Nat.min_le_right _ _

theorem connect_bounded (ans : Answers) : Keeps Bounded (connect ans) := by
  intro w hw
  cases htries : Reconnects.tries ans w with
  | false =>
    have hsame := (Reconnects.connect_waits ans htries (.self w)).1
    rw [Bounded, hsame]
    exact hw
  | true =>
    have htried := (Reconnects.connect_tries ans htries (.self w)).1
    rw [Bounded, htried]
    split
    · exact base_le_max
    · exact increment_le hw

theorem loop_bounded (lib : ArduinoJson) (ans : Answers) : Keeps Bounded (MainLoop.loop lib ans) := by
  have hactivity : ∀ (now : UInt32) (activity : Reconnects.Activity),
      Keeps Bounded (activity.run lib ans now) := fun now activity =>
    bounded_of_timed fun _ _ => activity.run_timed lib ans now
  have hconnecting : ∀ now, Keeps Bounded (mqttConnecting ans now) := by
    intro now
    refine Keeps.get fun _ _ => Keeps.ite (fun _ => hactivity now .rebuildPpp) fun _ => ?_
    refine Keeps.ite (fun _ => hactivity now .rebuildPpp) fun _ => ?_
    refine Keeps.bind (connect_bounded ans) fun _ => Keeps.ite (fun _ => ?_) fun _ => Keeps.pure _
    exact hactivity now .uploadDiagnostics
  have hmillis : Keeps Bounded (millis ans) := fun _ hw => hw
  refine Keeps.bind hmillis fun now => Keeps.bind (hactivity now .processMessages) fun _ => ?_
  refine Keeps.get fun w _ => ?_
  cases w.main.deviceState with
  | modemInit => exact hactivity now .modemInit
  | pppConnecting => exact hactivity now .pppConnecting
  | pppUp => exact hactivity now .pppUp
  | mqttConnecting => exact hconnecting now
  | mqttConnected => exact hactivity now .mqttConnected

theorem notStarted_keptOverPpp : ModemLoop.KeptOverPpp fun m => m.pppStarted = false :=
  ⟨fun _ h => h, fun _ h => h, fun _ h => h⟩

/-- Whatever ends a window leaves PPP to be started. -/
theorem pppConnecting_notStarted {m : LoopState} (it : PppIteration)
    (hstate : m.deviceState = .pppConnecting)
    (hleft : (m.pppConnecting it).1.deviceState ≠ .pppConnecting) :
    (m.pppConnecting it).1.pppStarted = false := by
  have hpolled := (Recovery.poll_deviceState m it).trans hstate
  unfold LoopState.pppConnecting at hleft ⊢
  dsimp only at hleft ⊢
  split at hleft
  next hup => rw [if_pos hup]
  next hdown =>
    rw [if_neg hdown]
    split at hleft
    next hlate =>
      rw [if_pos hlate]
      unfold LoopState.expire
      dsimp only
      split <;> rfl
    next => exact absurd hpolled hleft

theorem Recoverable.iterate {w : LoopWorld} (h : w.Recoverable) (lib : ArduinoJson) (ans : Answers) :
    (w.iterate lib ans).Recoverable := by
  refine ⟨h.inv.iterate lib ans, fun hleft => ?_, ?_⟩
  · cases hstate : w.main.deviceState with
    | modemInit =>
      rw [h.inv.iterate_run lib ans (by simp [hstate]), hstate]
      have hkeeps : Keeps (fun s => s.main.pppStarted = false) (modemInit ans (ans.millis 0)) := by
        refine Keeps.get fun _ hs => Keeps.ite (fun _ => Triple.set fun _ _ => hs) fun _ => ?_
        refine Keeps.ite (fun _ => Keeps.ite (fun _ => Triple.set fun _ _ => hs) fun _ => ?_) fun _ =>
          Keeps.pure _
        exact Keeps.bind (fun _ hs => hs) fun _ => Keeps.modify fun _ hs => hs
      exact hkeeps _ (h.started (by simp [hstate]))
    | pppConnecting =>
      rw [h.inv.iterate_pppConnecting lib ans hstate] at hleft ⊢
      exact pppConnecting_notStarted _ hstate hleft
    | pppUp | mqttConnecting | mqttConnected =>
      have hnot := h.started (by simp [hstate])
      cases hrestarts : OobPoll.restarts lib w ans with
      | false =>
        exact notStarted_keptOverPpp.iterate lib ans h.inv.running hrestarts (by simp [hstate]) hnot
      | true =>
        obtain ⟨session, calls, hboot⟩ := OobPoll.iterate_reboot lib ans h.inv.running
          ((OobPoll.restarts_iff lib ans h.inv.running).mp hrestarts)
        rw [hboot]
        rfl
  · have hloop : Bounded (OobPoll.atEnd lib w ans) := loop_bounded lib ans _ h.backoff
    rw [OobPoll.iterate_eq, OobPoll.restarted]
    split
    · exact base_le_max
    · exact hloop

theorem boot_recoverable (millis : UInt32) (session : MqttSession) :
    (boot millis session []).Recoverable :=
  ⟨boot_inv millis session fun _ hc => absurd hc List.not_mem_nil, fun _ => rfl,
    base_le_max⟩

/-! ## A run that meets no more failures -/

/-- From the moment `0` on everything cooperates. An iteration takes `pace` at most, unless it waits
    for the modem in vain, and such waits last `ready` at most. -/
structure Cooperation (lib : ArduinoJson) (pace ready : Nat) (world : Nat → LoopWorld)
    (env : Nat → Answers) (time : Nat → Nat) : Prop where
  step : ∀ i, world (i + 1) = (world i).iterate lib (env i)
  cooperates : ∀ i, (env i).Cooperates
  modem : ∀ i, (world i).main.deviceState = .modemInit →
    ∃ j, i ≤ j ∧ time j ≤ time i + ready ∧ (env j).modemInit = true
  pace : ∀ i, ((world i).main.deviceState = .modemInit → (env i).modemInit = true) →
    time (i + 1) ≤ time i + pace
  -- The clock is read at the beginning of an iteration and within it.
  now : ∀ i, (env i).millis 0 = reading (time i)
  later : ∀ i k, ∃ t, time i ≤ t ∧ t < time (i + 1) ∧ (env i).millis k = reading t
  ppp : ∀ i, ∃ s t, time i ≤ s ∧ s ≤ t ∧ t < time (i + 1) ∧ (env i).pppStart = reading s ∧
    (env i).pppWait.millis = reading t

section Phases

variable {lib : ArduinoJson} {pace ready : Nat} {world : Nat → LoopWorld} {env : Nat → Answers}
  {time : Nat → Nat}

/-- The device is in this state. -/
def InState (world : Nat → LoopWorld) (d : DeviceState) (i : Nat) : Prop :=
  (world i).main.deviceState = d

/-- The device is in STATE_MQTT_CONNECTED with its session up. -/
def Online (world : Nat → LoopWorld) (i : Nat) : Prop :=
  InState world .mqttConnected i ∧ (world i).session.isUp = true

/-- A new PPP window was entered in the iteration before. -/
def WindowOpens (pace : Nat) (world : Nat → LoopWorld) (time : Nat → Nat) (i : Nat) : Prop :=
  ∃ e, e ≤ time i ∧ time i ≤ e + pace ∧ (world i).main.Afresh (reading e)

/-- PPP was started in a window that was entered at `e`, and has come so far after `d` at most. -/
def ClimbsTo (world : Nat → LoopWorld) (time : Nat → Nat) (reached : PppConnState) (d i : Nat) : Prop :=
  ∃ e s, e ≤ s ∧ s ≤ time i ∧ time i ≤ e + d ∧
    (world i).main.Climbing (reading e) (reading s) reached

/-- STATE_MQTT_CONNECTING was entered in the iteration before, with no failures counted. -/
def ConnectingOpens (pace : Nat) (world : Nat → LoopWorld) (time : Nat → Nat) (i : Nat) : Prop :=
  InState world .mqttConnecting i ∧ (world i).mqtt.mqttFailStreak = 0 ∧
    ∃ e, e ≤ time i ∧ time i ≤ e + pace ∧ (world i).main.stateEntryTime = reading e

/-- A short time after a reading the difference does not exceed a long delay. -/
theorem not_late {e t : Nat} (delay : Nat) {d : UInt32} (hd : d.toNat = delay) (het : e ≤ t)
    (ht : t ≤ e + delay) : ¬ reading t - reading e > d := by
  rw [gt_iff_lt, UInt32.lt_iff_toNat_lt, hd, Nat.not_lt]
  exact Nat.le_trans (toNat_sub_reading_le het) (by omega)

/-- Neither timer of STATE_PPP_CONNECTING runs out within a minute. -/
theorem not_expired {e t : Nat} (het : e ≤ t) (ht : t ≤ e + 60000) :
    ¬ reading t - reading e > pppTimeoutMs := not_late 60000 rfl het ht

variable (h : Cooperation lib pace ready world env time) (hworld : ∀ i, (world i).Recoverable)

include h

theorem Cooperation.lt (i : Nat) : time i < time (i + 1) := by
  obtain ⟨t, hle, hlt, -⟩ := h.later i 0
  exact Nat.lt_of_le_of_lt hle hlt

/-- The clock is read at the beginning of every iteration. -/
theorem Cooperation.clock : Samples time time := fun i => ⟨Nat.le_refl _, h.lt i⟩

theorem Cooperation.mono {i j : Nat} (hij : i ≤ j) : time i ≤ time j := h.clock.mono hij

theorem Cooperation.pace_of_state {d : DeviceState} (hd : d ≠ .modemInit) {i : Nat}
    (hi : InState world d i) : time (i + 1) ≤ time i + pace :=
  h.pace i fun hinit => absurd (hi.symm.trans hinit) hd

/-- Every iteration has a real time at which its first own clock reading is taken. -/
theorem Cooperation.samples (k : Nat) :
    ∃ sample, Samples time sample ∧ ∀ i, (env i).millis k = reading (sample i) := by
  choose sample hfrom hto hread using fun i => h.later i k
  exact ⟨sample, fun i => ⟨hfrom i, hto i⟩, hread⟩

include hworld

/-! ### The modem and PPP -/

/-- The modem is waited for until it answers. -/
theorem modem_answers {i : Nat} (hi : InState world .modemInit i) (n : Nat)
    (hready : (env (i + n)).modemInit = true) :
    ∃ k, i ≤ k ∧ k ≤ i + n ∧ InState world .modemInit k ∧ (env k).modemInit = true := by
  induction n generalizing i with
  | zero => exact ⟨i, Nat.le_refl i, Nat.le_refl i, hi, hready⟩
  | succ n ih =>
    cases hnow : (env i).modemInit with
    | true => exact ⟨i, Nat.le_refl i, Nat.le_add_right i _, hi, hnow⟩
    | false =>
      have hnext : InState world .modemInit (i + 1) := by
        rw [InState, h.step]
        exact (hworld i).inv.iterate_modemSilent lib hi hnow
      obtain ⟨k, hik, hkn, hk⟩ := ih hnext (by rwa [Nat.add_assoc, Nat.add_comm 1 n])
      exact ⟨k, by omega, by omega, hk⟩

theorem modemInit_leads :
    Within time (ready + pace) (InState world .modemInit) (WindowOpens pace world time) := by
  intro i hi
  obtain ⟨j, hij, htime, hready⟩ := h.modem i hi
  obtain ⟨n, rfl⟩ := Nat.exists_eq_add_of_le hij
  obtain ⟨k, hik, hkj, hk, hanswers⟩ := modem_answers h hworld hi n hready
  have hpace := h.pace k fun _ => hanswers
  have hbefore := h.mono hkj
  have hlt := h.lt k
  refine ⟨k + 1, by omega, by omega, time k, by omega, hpace, ?_⟩
  rw [h.step, (hworld k).inv.iterate_modemReady lib hk hanswers, h.now]
  have hidle : (world k).main.ppp.Idle := by
    cases (hworld k).inv.phase with
    | modemInit hphase => exact hphase.idle
    | pppConnecting hphase | pppUp hphase | mqttConnecting hphase | mqttConnected hphase =>
      exact absurd (hphase.state.symm.trans hk) (by simp)
  refine ⟨rfl, .inr ((hworld k).started ?_), hidle, rfl⟩
  rw [hk]
  simp

/-- A window that was entered at any time before ends within its minute. -/
theorem pppConnecting_leads (hpace : pace ≤ 7000) :
    Within time (60000 + 3 * pace) (InState world .pppConnecting) fun i =>
      InState world .pppUp i ∨ InState world .modemInit i ∨ WindowOpens pace world time i := by
  intro i hi
  refine exists_of_timer h.clock (world i).main.stateEntryTime 60000
    (fun j => InState world .pppConnecting j ∧
      (world j).main.stateEntryTime = (world i).main.stateEntryTime)
    (by omega) ⟨hi, rfl⟩ (fun j hj => h.pace_of_state (by simp) hj.1) ?_
  intro j _ _ ⟨hj, hentry⟩
  have hppp : (world j).main.ppp.Connecting := by
    cases (hworld j).inv.phase with
    | pppConnecting hphase => exact hphase.connecting
    | modemInit hphase | pppUp hphase | mqttConnecting hphase | mqttConnected hphase =>
      exact absurd (hphase.state.symm.trans hj) (by simp)
  have hcases := LoopState.pppConnecting_cases hj hppp (env j).pppIteration
  rw [← (hworld j).inv.iterate_pppConnecting lib (env j) hj, ← h.step] at hcases
  rcases hcases with hup | hinit | hafresh | ⟨hstill, hsame, hearly⟩
  · exact .inl (.inl hup)
  · exact .inl (.inr (.inl hinit))
  · rw [Answers.pppIteration, h.now] at hafresh
    exact .inl (.inr (.inr ⟨time j, Nat.le_of_lt (h.lt j), h.pace_of_state (by simp) hj, hafresh⟩))
  · refine .inr ⟨⟨hstill, hsame.trans hentry⟩, ?_⟩
    rw [Answers.pppIteration, h.now, hentry, gt_iff_lt, UInt32.lt_iff_toNat_lt, Nat.not_lt] at hearly
    exact hearly

/-- The first iteration of a window starts PPP. -/
theorem windowOpens_leads (hpace : pace ≤ 7000) :
    Within time pace (WindowOpens pace world time) (ClimbsTo world time .waitRegistration (2 * pace)) := by
  refine Within.of_next fun i ⟨e, hei, hie, hafresh⟩ => ?_
  have hnext := h.pace_of_state (by simp) hafresh.state
  obtain ⟨s, t, his, hst, htn, hstart, hwait⟩ := h.ppp i
  have hstart' : (env i).pppIteration.startMillis = reading s := hstart
  have hintime : LoopState.InTime (reading e) (env i).pppIteration.startMillis (env i).pppIteration := by
    refine ⟨?_, ?_⟩
    · rw [hstart', Answers.pppIteration, hwait]
      exact not_expired hst (by omega)
    · rw [Answers.pppIteration, h.now]
      exact not_expired hei (by omega)
  refine ⟨hnext, e, s, by omega, by omega, by omega, ?_⟩
  rw [h.step, (hworld i).inv.iterate_pppConnecting lib (env i) hafresh.state, ← hstart']
  exact hafresh.next hintime

omit hworld in
/-- Early in its window PPP is in time. -/
theorem ClimbsTo.inTime {e s i : Nat} (hes : e ≤ s) (hsi : s ≤ time i)
    (hearly : time i + pace ≤ e + 60000) (hnext : time (i + 1) ≤ time i + pace) :
    LoopState.InTime (reading e) (reading s) (env i).pppIteration := by
  obtain ⟨s', t, his, hst, htn, -, hwait⟩ := h.ppp i
  refine ⟨?_, ?_⟩
  · rw [Answers.pppIteration, hwait]
    exact not_expired (by omega) (by omega)
  · rw [Answers.pppIteration, h.now]
    exact not_expired (by omega) (by omega)

/-- The registration is asked for once a second. -/
theorem waitRegistration_leads (hpace : pace ≤ 7000) :
    Within time (999 + 3 * pace) (ClimbsTo world time .waitRegistration (2 * pace))
      (ClimbsTo world time .setApn (999 + 5 * pace)) := by
  rintro i ⟨e, s, hes, hsi, hie, hclimbing⟩
  choose start wait hstart hwait hnext _ hread using h.ppp
  have hclock : Samples time wait := fun j =>
    ⟨Nat.le_trans (hstart j) (hwait j), hnext j⟩
  obtain ⟨j, hij, htime, hj⟩ := exists_of_timer hclock
    (world i).main.ppp.lastRegCheck 999
    (fun j => (world j).main.Climbing (reading e) (reading s) .waitRegistration ∧
      (world j).main.ppp.lastRegCheck = (world i).main.ppp.lastRegCheck)
    (Q := fun j => (world j).main.Climbing (reading e) (reading s) .setApn) (i := i)
    (by omega) ⟨hclimbing, rfl⟩ (fun j hj => h.pace_of_state (by simp) hj.1.state) (by
      intro j hij htime ⟨hj, hlast⟩
      have hmono := h.mono hij
      have hintime := ClimbsTo.inTime h hes (by omega) (by omega) (h.pace_of_state (by simp) hj.state)
      have hcases := hj.waitRegistration hintime rfl (h.cooperates j).registered
      rw [← (hworld j).inv.iterate_pppConnecting lib (env j) hj.state, ← h.step] at hcases
      rcases hcases with hset | ⟨hstill, hsame, hearly⟩
      · exact .inl hset
      · refine .inr ⟨⟨hstill, hsame.trans hlast⟩, ?_⟩
        rw [Answers.pppIteration] at hearly
        rw [hread, hlast, UInt32.lt_iff_toNat_lt] at hearly
        exact Nat.le_of_lt_succ hearly)
  have hmono := h.mono hij
  exact ⟨j, hij, htime, e, s, hes, by omega, by omega, hj⟩

/-- A step of the connection that succeeds at once. -/
theorem ClimbsTo.leads {reached reached' : PppConnState} {d : Nat} (hd : d + pace ≤ 60000)
    (hstep : ∀ {m : LoopState} {e s : UInt32} {i : Nat}, m.Climbing e s reached →
      LoopState.InTime e s (env i).pppIteration →
        (m.pppConnecting (env i).pppIteration).1.Climbing e s reached') :
    Within time pace (ClimbsTo world time reached d) (ClimbsTo world time reached' (d + pace)) := by
  refine Within.of_next fun i ⟨e, s, hes, hsi, hie, hclimbing⟩ => ?_
  have hnext := h.pace_of_state (by simp) hclimbing.state
  have hlt := h.lt i
  have hintime := ClimbsTo.inTime h hes hsi (by omega) hnext
  refine ⟨hnext, e, s, hes, by omega, by omega, ?_⟩
  rw [h.step, (hworld i).inv.iterate_pppConnecting lib (env i) hclimbing.state]
  exact hstep hclimbing hintime

theorem getIp_leads {d : Nat} (hd : d + pace ≤ 60000) :
    Within time pace (ClimbsTo world time .getIp d) (InState world .pppUp) := by
  refine Within.of_next fun i ⟨e, s, hes, hsi, hie, hclimbing⟩ => ?_
  have hnext := h.pace_of_state (by simp) hclimbing.state
  refine ⟨hnext, ?_⟩
  rw [InState, h.step, (hworld i).inv.iterate_pppConnecting lib (env i) hclimbing.state]
  exact hclimbing.getIp (ClimbsTo.inTime h hes hsi (by omega) hnext) rfl (h.cooperates i).address

/-- A window brings PPP up long before its timers run out. -/
theorem window_leads (hpace : pace ≤ 7000) :
    Within time (999 + 7 * pace) (WindowOpens pace world time) (InState world .pppUp) := by
  have hsetApn : Within time pace (ClimbsTo world time .setApn (999 + 5 * pace))
      (ClimbsTo world time .activateNetwork (999 + 5 * pace + pace)) :=
    ClimbsTo.leads h hworld (by omega) fun hclimbing hintime =>
      hclimbing.setApn hintime rfl (h.cooperates _).apn
  have hactivate : Within time pace (ClimbsTo world time .activateNetwork (999 + 5 * pace + pace))
      (ClimbsTo world time .getIp (999 + 5 * pace + pace + pace)) :=
    ClimbsTo.leads h hworld (by omega) fun hclimbing hintime =>
      hclimbing.activateNetwork hintime rfl (h.cooperates _).active
  have hchain := (windowOpens_leads h hworld hpace).trans <|
    (waitRegistration_leads h hworld hpace).trans <| hsetApn.trans <|
      hactivate.trans (getIp_leads h hworld (by omega))
  exact hchain.mono (by omega) fun _ hi => hi

/-! ### The link to the broker -/

/-- The timer of STATE_PPP_UP reads zero for two iterations at most. -/
theorem pppUp_timed (hpace : pace ≤ 7000) :
    Within time (2 * pace) (InState world .pppUp) fun i =>
      InState world .pppUp i ∧ (world i).pppUpTime ≠ 0 := by
  have hstarts : ∀ i, InState world .pppUp i → (world i).pppUpTime = 0 →
      InState world .pppUp (i + 1) ∧ (world (i + 1)).pppUpTime = reading (time i) := by
    intro i hi hzero
    have hnext := (hworld i).inv.iterate_pppUp lib (env i) hi (t := (env i).millis 0) (if_pos hzero).symm
    rw [UInt32.sub_self, if_neg (by decide), ← h.step, h.now] at hnext
    exact ⟨(congrArg LoopState.deviceState hnext.1).trans hi, hnext.2⟩
  intro i hi
  by_cases hzero : (world i).pppUpTime = 0
  · obtain ⟨hi₁, htime₁⟩ := hstarts i hi hzero
    have hpace₀ := h.pace_of_state (by simp) hi
    have hpace₁ := h.pace_of_state (by simp) hi₁
    by_cases hzero₁ : (world (i + 1)).pppUpTime = 0
    · obtain ⟨hi₂, htime₂⟩ := hstarts (i + 1) hi₁ hzero₁
      refine ⟨i + 1 + 1, by omega, by omega, hi₂, fun hzero₂ => ?_⟩
      have hlt := h.lt i
      have hread₁ := congrArg UInt32.toNat (htime₁.symm.trans hzero₁)
      have hread₂ := congrArg UInt32.toNat (htime₂.symm.trans hzero₂)
      rw [toNat_reading, UInt32.toNat_zero] at hread₁ hread₂
      omega
    · exact ⟨i + 1, by omega, by omega, hi₁, hzero₁⟩
  · exact ⟨i, Nat.le_refl i, by omega, hi, hzero⟩

/-- STATE_PPP_UP lasts three seconds. -/
theorem pppUp_leads (hpace : pace ≤ 7000) :
    Within time (3000 + 5 * pace) (InState world .pppUp) (ConnectingOpens pace world time) := by
  have htimed : Within time (3000 + 3 * pace)
      (fun i => InState world .pppUp i ∧ (world i).pppUpTime ≠ 0) (ConnectingOpens pace world time) := by
    rintro i ⟨hi, hset⟩
    refine exists_of_timer h.clock (world i).pppUpTime 3000
      (fun j => InState world .pppUp j ∧ (world j).pppUpTime = (world i).pppUpTime)
      (by omega) ⟨hi, rfl⟩ (fun j hj => h.pace_of_state (by simp) hj.1) ?_
    intro j _ _ ⟨hj, hsame⟩
    have hnext := (hworld j).inv.iterate_pppUp lib (env j) hj (t := (world i).pppUpTime)
      (by rw [hsame, if_neg hset])
    rw [← h.step, h.now] at hnext
    split at hnext
    next =>
      refine .inl ⟨congrArg LoopState.deviceState hnext.1, hnext.2, time j, Nat.le_of_lt (h.lt j),
        h.pace_of_state (by simp) hj, congrArg LoopState.stateEntryTime hnext.1⟩
    next hearly =>
      refine .inr ⟨⟨(congrArg LoopState.deviceState hnext.1).trans hj, hnext.2⟩, ?_⟩
      rw [gt_iff_lt, UInt32.lt_iff_toNat_lt, Nat.not_lt] at hearly
      exact hearly
  exact ((pppUp_timed h hworld hpace).trans htimed).mono (by omega) fun _ hi => hi

/-- STATE_MQTT_CONNECTING has been given up by the iteration. -/
def GivesUp (world : Nat → LoopWorld) (env : Nat → Answers) (i : Nat) : Prop :=
  (env i).millis 0 - (world i).main.stateEntryTime > mqttConnectingMaxMs ∨
    ¬ (world i).mqtt.mqttFailStreak < mqttFailsBeforePppRebuild

omit h hworld in
/-- The backoff test of `connect` holds back for the length of the backoff. -/
theorem le_of_shouldWait {m : MqttManager} (hbackoff : m.backoff.currentMs ≤ backoffMaxMs)
    {now : UInt32} (hwait : m.shouldWait now = true) : (now - m.lastConnectAttempt).toNat ≤ 60000 := by
  rw [MqttManager.shouldWait, Bool.and_eq_true, decide_eq_true_eq, decide_eq_true_eq] at hwait
  have hlt : (now - m.lastConnectAttempt).toNat < m.backoff.currentMs.toNat :=
    UInt32.lt_iff_toNat_lt.mp hwait.2
  have hle : m.backoff.currentMs.toNat ≤ 60000 := UInt32.le_iff_toNat_le.mp hbackoff
  omega

/-- STATE_MQTT_CONNECTING waits for the backoff, and is given up on the way or ends in
    STATE_MQTT_CONNECTED. -/
theorem connecting_leads (hpace : pace ≤ 7000) {i : Nat} (hi : InState world .mqttConnecting i) :
    ∃ j, i ≤ j ∧ time j ≤ time i + (60000 + 3 * pace) ∧
      (Online world j ∨ WindowOpens pace world time j ∧ ∃ k, i ≤ k ∧
        time k ≤ time i + (60000 + 2 * pace) ∧ (world k).main = (world i).main ∧
          (world k).mqtt = (world i).mqtt ∧ GivesUp world env k) := by
  obtain ⟨sample, hsample, hread⟩ := h.samples 1
  refine exists_of_timer hsample (world i).mqtt.lastConnectAttempt 60000
    (fun j => (world j).main = (world i).main ∧ (world j).mqtt = (world i).mqtt)
    (by omega) ⟨rfl, rfl⟩ (fun j hj => ?_) fun j hij htime hj => ?_
  · exact h.pace_of_state (d := .mqttConnecting) (by simp)
      ((congrArg LoopState.deviceState hj.1).trans hi)
  obtain ⟨hmain, hmqtt⟩ := hj
  have hstate : InState world .mqttConnecting j := (congrArg LoopState.deviceState hmain).trans hi
  by_cases hgivesUp : GivesUp world env j
  · have hnext := (hworld j).inv.iterate_gaveUp lib (env j) hstate hgivesUp
    rw [← h.step, h.now] at hnext
    have hup := ((hworld j).inv.serving hstate).up
    refine .inl (.inr ⟨⟨time j, Nat.le_of_lt (h.lt j), h.pace_of_state (by simp) hstate, ?_⟩, j, hij,
      htime, hmain, hmqtt, hgivesUp⟩)
    rw [hnext]
    exact ⟨rfl, .inl rfl, hup.stop, rfl⟩
  · rw [GivesUp, not_or, not_not] at hgivesUp
    rcases (hworld j).inv.iterate_connecting lib (h.cooperates j) hstate hgivesUp.1 hgivesUp.2 with
      ⟨hnext, hup⟩ | ⟨hwait, hsame, hsame'⟩
    · rw [← h.step] at hnext hup
      exact .inl (.inl ⟨congrArg LoopState.deviceState hnext, hup⟩)
    · rw [← h.step] at hsame hsame'
      refine .inr ⟨⟨hsame.trans hmain, hsame'.trans hmqtt⟩, ?_⟩
      have hle := le_of_shouldWait (hworld j).backoff hwait
      rwa [hread, hmqtt] at hle

/-- Entered without failures, STATE_MQTT_CONNECTING is not given up. -/
theorem connectingOpens_leads (hpace : pace ≤ 7000) :
    Within time (60000 + 3 * pace) (ConnectingOpens pace world time) (Online world) := by
  rintro i ⟨hi, hstreak, e, hei, hie, hentry⟩
  obtain ⟨j, hij, htime, honline | ⟨-, k, hik, hk, hmain, hmqtt, hgivesUp⟩⟩ :=
    connecting_leads h hworld hpace hi
  · exact ⟨j, hij, htime, honline⟩
  · have hmono := h.mono hik
    rcases hgivesUp with hstuck | hfailed
    · rw [h.now, hmain, hentry] at hstuck
      exact absurd hstuck (not_late 300000 rfl (by omega) (by omega))
    · rw [hmqtt, hstreak] at hfailed
      exact absurd (by decide) hfailed

/-- The session is up, or its loss is noticed at once. -/
theorem mqttConnected_leads :
    Within time pace (InState world .mqttConnected) fun i =>
      Online world i ∨ InState world .mqttConnecting i := by
  intro i hi
  cases hup : (world i).session.isUp with
  | true => exact ⟨i, Nat.le_refl i, Nat.le_add_right _ _, .inl ⟨hi, hup⟩⟩
  | false =>
    obtain ⟨hmain, -⟩ := (hworld i).inv.iterate_connected lib (h.cooperates i) hi
    rw [← h.step, hup, if_neg Bool.false_ne_true] at hmain
    exact ⟨i + 1, Nat.le_succ i, h.pace_of_state (by simp) hi,
      .inr (congrArg LoopState.deviceState hmain)⟩

theorem Online.next {i : Nat} (hi : Online world i) :
    Online world (i + 1) ∧ (world (i + 1)).session = (world i).session := by
  obtain ⟨hmain, hsession⟩ := (hworld i).inv.iterate_connected lib (h.cooperates i) hi.1
  rw [← h.step] at hmain hsession
  rw [hi.2, if_pos rfl] at hmain
  exact ⟨⟨(congrArg LoopState.deviceState hmain).trans hi.1, hsession.symm ▸ hi.2⟩, hsession⟩

/-! ### From any state -/

/-- Every state leads to a session, over at most one window and one backoff that were begun before. -/
theorem any_leads (hpace : pace ≤ 7000) :
    Within time (124000 + 19 * pace + ready) (fun _ => True) (Online world) := by
  have hup : Within time (63000 + 8 * pace) (InState world .pppUp) (Online world) :=
    ((pppUp_leads h hworld hpace).trans (connectingOpens_leads h hworld hpace)).mono (by omega)
      fun _ hi => hi
  have hwindow : Within time (63999 + 15 * pace) (WindowOpens pace world time) (Online world) :=
    ((window_leads h hworld hpace).trans hup).mono (by omega) fun _ hi => hi
  have hinit : Within time (63999 + 16 * pace + ready) (InState world .modemInit) (Online world) :=
    ((modemInit_leads h hworld).trans hwindow).mono (by omega) fun _ hi => hi
  have hppp : Within time (124000 + 19 * pace + ready) (InState world .pppConnecting) (Online world) := by
    have hleaves : Within time (63999 + 16 * pace + ready)
        (fun i => InState world .pppUp i ∨ InState world .modemInit i ∨ WindowOpens pace world time i)
        (Online world) := by
      rintro i (hi | hi | hi)
      · exact hup.mono (by omega) (fun _ hj => hj) i hi
      · exact hinit i hi
      · exact hwindow.mono (by omega) (fun _ hj => hj) i hi
    apply ((pppConnecting_leads h hworld hpace).trans hleaves).mono (by omega)
    exact fun _ hi => hi
  have hconnecting : Within time (123999 + 18 * pace) (InState world .mqttConnecting) (Online world) := by
    have hends : Within time (60000 + 3 * pace) (InState world .mqttConnecting) fun i =>
        Online world i ∨ WindowOpens pace world time i := by
      intro i hi
      obtain ⟨j, hij, htime, hj⟩ := connecting_leads h hworld hpace hi
      exact ⟨j, hij, htime, hj.imp_right And.left⟩
    refine Within.mono (hends.trans (Within.either (.of_imp fun _ hj => hj) hwindow)) (by omega)
      fun _ hi => hi
  have hconnected : Within time (123999 + 19 * pace) (InState world .mqttConnected) (Online world) :=
    Within.mono ((mqttConnected_leads h hworld).trans
      (Within.either (.of_imp fun _ hj => hj) hconnecting)) (by omega) fun _ hi => hi
  intro i _
  cases hstate : (world i).main.deviceState with
  | modemInit => exact hinit.mono (by omega) (fun _ hj => hj) i hstate
  | pppConnecting => exact hppp i hstate
  | pppUp => exact hup.mono (by omega) (fun _ hj => hj) i hstate
  | mqttConnecting => exact hconnecting.mono (by omega) (fun _ hj => hj) i hstate
  | mqttConnected => exact hconnected.mono (by omega) (fun _ hj => hj) i hstate

end Phases

/-! ## Runs -/

theorem Cooperation.recoverable {lib : ArduinoJson} {pace ready : Nat} {world : Nat → LoopWorld}
    {env : Nat → Answers} {time : Nat → Nat} (h : Cooperation lib pace ready world env time)
    (h₀ : (world 0).Recoverable) (i : Nat) : (world i).Recoverable := by
  induction i with
  | zero => exact h₀
  | succ i ih =>
    rw [h.step]
    exact ih.iterate lib (env i)

/-- A cooperating broker does not refuse a subscription. -/
theorem Cooperation.fresh {lib : ArduinoJson} {pace ready : Nat} {world : Nat → LoopWorld}
    {env : Nat → Answers} {time : Nat → Nat} (h : Cooperation lib pace ready world env time)
    (h₀ : (world 0).Recoverable) (hfresh : (world 0).Fresh) (i : Nat) : (world i).Fresh := by
  induction i with
  | zero => exact hfresh
  | succ i ih =>
    have hkept : ¬ (world i).LosesSubscription (env i) := fun hloses =>
      absurd (hloses.leaves.refused.symm.trans (h.cooperates i).subscribes) Bool.false_ne_true
    rw [h.step]
    exact ih.iterate (h.recoverable h₀ i).inv lib hkept

/-- Whatever a run has gone through: when everything cooperates from some moment on, and no iteration
    takes longer than seven seconds, the device is in STATE_MQTT_CONNECTED with its session up after
    124 seconds, nineteen iterations and the time the modem takes, and stays there. It is subscribed
    then, unless the run had left the flag set over a session that is not. -/
theorem heals (lib : ArduinoJson) (millis : UInt32) (session : MqttSession) (run : List Answers)
    {pace ready : Nat} {world : Nat → LoopWorld} {env : Nat → Answers} {time : Nat → Nat}
    (hreached : Trace.exec (step lib) (boot millis session []) run = some (world 0))
    (h : Cooperation lib pace ready world env time) (hpace : pace ≤ 7000) :
    ∃ i, time i ≤ time 0 + (124000 + 19 * pace + ready) ∧ ∀ j, i ≤ j →
      (world j).main.deviceState = .mqttConnected ∧ (world j).session.isUp = true ∧
        ((world 0).Fresh → (world j).session = .subscribed) := by
  have h₀ : (world 0).Recoverable := by
    refine Trace.exec_invariant (J := Recoverable) (fun w ans w' hw hstep => ?_)
      (boot_recoverable millis session) hreached
    obtain rfl := Option.some.inj hstep
    exact hw.iterate lib ans
  have hworld := h.recoverable h₀
  obtain ⟨i, -, htime, honline⟩ := (any_leads h hworld hpace).stays
    (fun i hi => (hi.next h hworld).1) (i := 0) trivial
  refine ⟨i, htime, fun j hij => ⟨(honline j hij).1, (honline j hij).2, fun hfresh => ?_⟩⟩
  have hlistening := (h.fresh h₀ hfresh j).listening (hworld j).inv (honline j hij).1
  have hup := (honline j hij).2
  cases hsession : (world j).session with
  | down => simp [hsession, MqttSession.isUp] at hup
  | unsubscribed => exact absurd hsession hlistening
  | subscribed => rfl

/-- An iteration a second from that moment on, in which everything succeeds at once. -/
def secondly (w : LoopWorld) (since : Nat) : Nat → LoopWorld
  | 0     => w
  | i + 1 => (secondly w since i).iterate (.ofDocuments []) (willing (reading (since + 1000 * i)))

theorem secondly_cooperates (w : LoopWorld) (since : Nat) :
    Cooperation (.ofDocuments []) 1000 0 (secondly w since)
      (fun i => willing (reading (since + 1000 * i))) (fun i => since + 1000 * i) where
  step := fun _ => rfl
  cooperates := fun _ =>
    { registered := .inl rfl
      apn := rfl
      active := rfl
      address := ⟨fun h => absurd h (by decide : "10.0.0.1" ≠ ""),
        fun h => absurd h (by decide : "10.0.0.1" ≠ "0.0.0.0")⟩
      drops := fun _ => rfl
      connects := rfl
      subscribes := rfl
      publishes := fun _ => rfl
      uncommanded := rfl }
  modem := fun i _ => ⟨i, Nat.le_refl i, Nat.le_refl _, rfl⟩
  pace := fun i _ => by omega
  now := fun _ => rfl
  later := fun i _ => ⟨since + 1000 * i, Nat.le_refl _, by omega, rfl⟩
  ppp := fun i => ⟨since + 1000 * i, since + 1000 * i, Nat.le_refl _, Nat.le_refl _, by omega, rfl, rfl⟩

/-- The modem fails once, the network does not register within a window, and the broker refuses twice. -/
def troubled : List Answers :=
  let unregistered : UInt32 → Answers := fun t =>
    { willing t with pppWait := ⟨t, .searching, true, true, ""⟩ }
  let refused : UInt32 → Answers := fun t => { willing t with mqttConnect := (false, .kept) }
  [{ willing 31000 with modemInit := false }, willing 32000] ++
    [32010, 33100, 64000, 93000].map unregistered ++
    [124000, 125000, 126000, 127000, 128000, 129000, 130000, 131000, 132000, 133000, 134000, 135000,
      136000].map refused

theorem heals_troubled :
    ∃ w, Trace.exec (step (.ofDocuments [])) (boot 0 .down []) troubled = some w ∧
      (w.main.deviceState = .mqttConnecting ∧ w.mqtt.mqttFailStreak = 2) ∧
      ∃ i, 137000 + 1000 * i ≤ 137000 + 1000 * 0 + (124000 + 19 * 1000 + 0) ∧ ∀ j, i ≤ j →
        (secondly w 137000 j).main.deviceState = .mqttConnected ∧
          (secondly w 137000 j).session.isUp = true ∧
          (w.Fresh → (secondly w 137000 j).session = .subscribed) := by
  have htroubled : (Trace.exec (step (.ofDocuments [])) (boot 0 .down []) troubled).map
      (fun w => (w.main.deviceState, w.mqtt.mqttFailStreak)) = some (.mqttConnecting, 2) := by
    decide +kernel
  obtain ⟨w, hrun, hw⟩ := Option.map_eq_some_iff.mp htroubled
  refine ⟨w, hrun, Prod.mk.inj hw, ?_⟩
  exact heals (.ofDocuments []) 0 .down troubled hrun (secondly_cooperates w 137000) (by decide)

end LoopWorld

end Firmware
