-- SUMMARY: The PPP failure streak counts the expiries of the connection window exactly when the PPP manager's own timer runs out first.
import ParkingGate.Firmware.Recovery

/-!
# Escalation of PPP failures

Two timers run while PPP connects: the window of `loop()`, measured from
`stateEntryTime`, and the timer of `PppManager`, measured from `pppStartTime`. Only the
second one counts a failure. It is started later, so an expiry of the window counts
exactly when the poll of that iteration, or an earlier one, has seen the second timer run
out. The last theorem states this over runs from boot.
-/

namespace Firmware

open Config

/-- The loop with the history of its windows: how many expired in a row since the modem
    was initialised or PPP was last up, and the streak at the last of them. -/
structure Recovery where
  loop : LoopState
  expiries : Nat
  streakBefore : UInt8

namespace Recovery

def boot (millis : UInt32) : Recovery := ⟨LoopState.boot millis, 0, 0⟩

/-- Record an iteration in STATE_PPP_CONNECTING that ends in `s`. -/
def record (r : Recovery) (expired : Prop) [Decidable expired] (s : LoopState) : Recovery :=
  if s.deviceState ≠ .pppConnecting then ⟨s, 0, s.ppp.pppFailStreak⟩
  else if expired then ⟨s, r.expiries + 1, s.ppp.pppFailStreak⟩
  else { r with loop := s }

def step (r : Recovery) (e : LoopEvent) : Option Recovery :=
  (r.loop.step e).map fun out =>
    match e with
    | .pppConnecting it => r.record (r.loop.Expires it) out.1
    | _                 => { r with loop := out.1 }

/-- An expiry finds the streak one higher than the previous one left it, and the last
    expiry before the threshold resets the modem. -/
structure Escalates (r : Recovery) (it : PppIteration) : Prop where
  streak : r.loop.streakAtExpiry it = r.streakBefore + 1
  reset : r.expiries + 1 = pppFailsBeforeModemReset.toNat →
    .hardReset ∈ (r.loop.pppConnecting it).2 ∧
      (r.loop.pppConnecting it).1.deviceState = .modemInit

/-! ## The phases of a window -/

/-- Where a connection window stands, and how the streak relates to its start. -/
inductive Window (r : Recovery) : Prop where
  | fresh (toStart : r.loop.forcePppRestart = true ∨ r.loop.pppStarted = false)
      (idle : r.loop.ppp.Idle) (streak : r.loop.ppp.pppFailStreak = r.streakBefore)
  | polling (noForce : r.loop.forcePppRestart = false) (started : r.loop.pppStarted = true)
      (starting : r.loop.ppp.Starting) (streak : r.loop.ppp.pppFailStreak = r.streakBefore)
  | stopped (noForce : r.loop.forcePppRestart = false) (started : r.loop.pppStarted = true)
      (idle : r.loop.ppp.Idle) (streak : r.loop.ppp.pppFailStreak = r.streakBefore + 1)

/-- The invariant of the loop while every expiry so far was counted. -/
structure Inv (r : Recovery) : Prop where
  connecting : r.loop.deviceState = .pppConnecting → r.Window
  modemInit : r.loop.deviceState = .modemInit →
    r.loop.pppStarted = false ∧ r.loop.ppp.Idle
  up : r.loop.deviceState ≠ .pppConnecting → r.loop.deviceState ≠ .modemInit → r.loop.ppp.Up
  outside : r.loop.deviceState ≠ .pppConnecting →
    r.loop.ppp.pppFailStreak = 0 ∧ r.streakBefore = 0 ∧ r.expiries = 0
  counted : r.streakBefore.toNat = r.expiries
  below : r.expiries < pppFailsBeforeModemReset.toNat

/-- The loop in the middle of an iteration, after the poll: the outcomes the two timers
    leave open. -/
inductive Polled (r : Recovery) (it : PppIteration) : Bool × LoopState → Prop where
  | up (s : LoopState) (ppp : s.ppp.Up) (streak : s.ppp.pppFailStreak = 0) : Polled r it (true, s)
  | pending (s : LoopState) (noForce : s.forcePppRestart = false) (started : s.pppStarted = true)
      (starting : s.ppp.Starting) (streak : s.ppp.pppFailStreak = r.streakBefore)
      (timer : ¬ r.loop.OwnTimerExpired it) : Polled r it (false, s)
  | counted (s : LoopState) (noForce : s.forcePppRestart = false) (started : s.pppStarted = true)
      (idle : s.ppp.Idle) (streak : s.ppp.pppFailStreak = r.streakBefore + 1)
      (timer : r.loop.OwnTimerExpired it) : Polled r it (false, s)

theorem startPpp_of_started {s : LoopState} (noForce : s.forcePppRestart = false)
    (started : s.pppStarted = true) (it : PppIteration) : s.startPpp it = s := by
  cases s
  simp only at noForce started
  subst noForce started
  rfl

/-- Polling a session that has been started. -/
private theorem polled_of_starting {r : Recovery} {it : PppIteration}
    (noForce : (r.loop.startPpp it).forcePppRestart = false)
    (started : (r.loop.startPpp it).pppStarted = true)
    (starting : (r.loop.startPpp it).ppp.Starting)
    (streak : (r.loop.startPpp it).ppp.pppFailStreak = r.streakBefore)
    (timer : r.loop.OwnTimerExpired it ↔
      it.wait.millis - (r.loop.startPpp it).ppp.pppStartTime > pppTimeoutMs) :
    r.Polled it ((r.loop.startPpp it).poll it) := by
  unfold LoopState.poll
  by_cases ht : it.wait.millis - (r.loop.startPpp it).ppp.pppStartTime > pppTimeoutMs
  · rw [starting.waitForPppUp_timeout ht]
    exact .counted _ noForce started starting.stop.incrementFailStreak (by simp [streak])
      (timer.mpr ht)
  · obtain ⟨up, ppp, heq, hup | hpending⟩ := starting.waitForPppUp ht
    · obtain ⟨rfl, hppp, hstreak⟩ := hup
      rw [heq]
      exact .up _ hppp hstreak
    · obtain ⟨rfl, hppp, -, hstreak⟩ := hpending
      rw [heq]
      exact .pending _ noForce started hppp (hstreak.trans streak) (mt timer.mp ht)

theorem Window.polled {r : Recovery} (h : r.Window) (it : PppIteration) :
    r.Polled it ((r.loop.startPpp it).poll it) := by
  cases h with
  | fresh toStart idle streak =>
    obtain ⟨ppp, hstart, hstarting, htime, hstreak⟩ := idle.start it.startMillis
    have heq : r.loop.startPpp it =
        { r.loop with forcePppRestart := false, pppStarted := true, ppp := ppp } := by
      rcases toStart with h | h <;> simp [LoopState.startPpp, h, hstart]
    have htoStart : r.loop.ToStart := toStart
    refine polled_of_starting ?_ ?_ ?_ ?_ ?_ <;> rw [heq]
    · exact hstarting
    · exact hstreak.trans streak
    · simp [LoopState.OwnTimerExpired, htoStart, htime]
  | polling noForce started starting streak =>
    have heq := startPpp_of_started noForce started it
    have htoStart : ¬ r.loop.ToStart := by simp [LoopState.ToStart, noForce, started]
    refine polled_of_starting ?_ ?_ ?_ ?_ ?_ <;> rw [heq]
    · exact noForce
    · exact started
    · exact starting
    · exact streak
    · simp [LoopState.OwnTimerExpired, htoStart, starting.pppStarting]
  | stopped noForce started idle streak =>
    have heq := startPpp_of_started noForce started it
    have htoStart : ¬ r.loop.ToStart := by simp [LoopState.ToStart, noForce, started]
    rw [heq, LoopState.poll, idle.waitForPppUp]
    exact .counted _ noForce started idle streak (.inl ⟨htoStart, idle.pppStarting⟩)

/-! ## Steps -/

/-- An expiry right after the poll, for a counted and for an uncounted failure. -/
private theorem expire_of_idle {s : LoopState} (idle : s.ppp.Idle) (it : PppIteration) :
    (s.expire it).1.ppp.Idle ∧ (s.expire it).1.pppStarted = false ∧
    if pppFailsBeforeModemReset ≤ s.ppp.pppFailStreak then
      (s.expire it).1.deviceState = .modemInit ∧ (s.expire it).1.ppp.pppFailStreak = 0 ∧
        .hardReset ∈ (s.expire it).2
    else
      (s.expire it).1.deviceState = s.deviceState ∧
        (s.expire it).1.ppp.pppFailStreak = s.ppp.pppFailStreak := by
  unfold LoopState.expire
  simp only [idle.stop_eq, PppManager.shouldHardReset, decide_eq_true_eq, ge_iff_le]
  split
  · exact ⟨idle.resetPppFailStreak, rfl, rfl, rfl, by simp⟩
  · exact ⟨idle, rfl, rfl, rfl⟩

@[simp] theorem poll_deviceState (s : LoopState) (it : PppIteration) :
    ((s.startPpp it).poll it).2.deviceState = s.deviceState := by
  change (s.startPpp it).deviceState = _
  unfold LoopState.startPpp
  simp only
  split <;> split <;> rfl

@[simp] theorem poll_stateEntryTime (s : LoopState) (it : PppIteration) :
    ((s.startPpp it).poll it).2.stateEntryTime = s.stateEntryTime := by
  change (s.startPpp it).stateEntryTime = _
  unfold LoopState.startPpp
  simp only
  split <;> split <;> rfl

/-- The iteration once the poll is known. -/
theorem pppConnecting_of_up {s s' : LoopState} {it : PppIteration}
    (hp : (s.startPpp it).poll it = (true, s')) :
    s.pppConnecting it = ({ s' with
      ppp := s'.ppp.resetPppFailStreak, deviceState := .pppUp, pppStarted := false }, []) := by
  simp [LoopState.pppConnecting, hp]

theorem pppConnecting_of_expires {s s' : LoopState} {it : PppIteration}
    (hp : (s.startPpp it).poll it = (false, s')) (hexp : s.Expires it) :
    s.pppConnecting it = s'.expire it := by
  have htime : s'.stateEntryTime = s.stateEntryTime := by
    have := poll_stateEntryTime s it
    rwa [hp] at this
  simp [LoopState.pppConnecting, hp, htime, hexp.2]

theorem pppConnecting_of_not_expires {s s' : LoopState} {it : PppIteration}
    (hp : (s.startPpp it).poll it = (false, s')) (hexp : ¬ s.Expires it) :
    s.pppConnecting it = (s', []) := by
  have htime : s'.stateEntryTime = s.stateEntryTime := by
    have := poll_stateEntryTime s it
    rwa [hp] at this
  have hlate : ¬ it.now - s.stateEntryTime > pppTimeoutMs := fun h => hexp ⟨by rw [hp], h⟩
  simp [LoopState.pppConnecting, hp, htime, hlate]

/-- The streak a counted failure leaves reaches the threshold at the last expiry. -/
private theorem Inv.threshold_le_iff {r : Recovery} (h : r.Inv) :
    pppFailsBeforeModemReset ≤ r.streakBefore + 1 ↔
      r.expiries + 1 = pppFailsBeforeModemReset.toNat := by
  have hbelow := h.below
  have hcounted := h.counted
  have htwo : pppFailsBeforeModemReset.toNat = 2 := rfl
  rw [UInt8.le_iff_toNat_le, UInt8.toNat_add, UInt8.toNat_one]
  omega

/-- An expiry escalates exactly when the manager's own timer has run out. -/
theorem Inv.escalates_iff_ownTimer {r : Recovery} (h : r.Inv) {it : PppIteration}
    (hs : r.loop.deviceState = .pppConnecting) (hexp : r.loop.Expires it) :
    r.Escalates it ↔ r.loop.OwnTimerExpired it := by
  have hpolled := (h.connecting hs).polled it
  generalize hp : (r.loop.startPpp it).poll it = polled at hpolled
  have hfalse := hexp.1
  rw [hp] at hfalse
  cases hpolled with
  | up => cases hfalse
  | pending s _ _ _ streak timer =>
    refine iff_of_false (fun hesc => ?_) timer
    have hgrown := hesc.streak
    simp only [LoopState.streakAtExpiry, hp, streak] at hgrown
    have : (1 : UInt8) = 0 := by simpa using hgrown.symm
    exact absurd this (by decide)
  | counted s _ _ idle streak timer =>
    refine iff_of_true ⟨by simp [LoopState.streakAtExpiry, hp, streak], fun hlast => ?_⟩ timer
    obtain ⟨-, -, hexpire⟩ := expire_of_idle idle it
    rw [streak, if_pos (h.threshold_le_iff.mpr hlast)] at hexpire
    rw [pppConnecting_of_expires hp hexp]
    exact ⟨hexpire.2.2, hexpire.1⟩

section Record

variable {r : Recovery} {expired : Prop} [Decidable expired] {s : LoopState}

private theorem record_of_left (hs : s.deviceState ≠ .pppConnecting) :
    r.record expired s = ⟨s, 0, s.ppp.pppFailStreak⟩ := by
  simp [record, hs]

private theorem record_of_expired (hs : s.deviceState = .pppConnecting) (h : expired) :
    r.record expired s = ⟨s, r.expiries + 1, s.ppp.pppFailStreak⟩ := by
  simp [record, hs, h]

private theorem record_of_pending (hs : s.deviceState = .pppConnecting) (h : ¬ expired) :
    r.record expired s = { r with loop := s } := by
  simp [record, hs, h]

end Record

/-- The invariant outside STATE_PPP_CONNECTING, before and after a session. -/
private theorem Inv.of_idle {s : LoopState} (hs : s.deviceState = .modemInit)
    (started : s.pppStarted = false) (idle : s.ppp.Idle) (streak : s.ppp.pppFailStreak = 0) :
    Inv ⟨s, 0, 0⟩ where
  connecting := by simp [hs]
  modemInit _ := ⟨started, idle⟩
  up := by simp [hs]
  outside _ := ⟨streak, rfl, rfl⟩
  counted := rfl
  below := (by decide : 0 < pppFailsBeforeModemReset.toNat)

private theorem Inv.of_up {s : LoopState} (hs : s.deviceState ≠ .pppConnecting)
    (hs' : s.deviceState ≠ .modemInit) (up : s.ppp.Up) (streak : s.ppp.pppFailStreak = 0) :
    Inv ⟨s, 0, 0⟩ where
  connecting h := absurd h hs
  modemInit h := absurd h hs'
  up _ _ := up
  outside _ := ⟨streak, rfl, rfl⟩
  counted := rfl
  below := (by decide : 0 < pppFailsBeforeModemReset.toNat)

private theorem Inv.of_window {r : Recovery} (hs : r.loop.deviceState = .pppConnecting)
    (window : r.Window) (counted : r.streakBefore.toNat = r.expiries)
    (below : r.expiries < pppFailsBeforeModemReset.toNat) : r.Inv where
  connecting _ := window
  modemInit h := by simp [hs] at h
  up h := absurd hs h
  outside h := absurd hs h
  counted := counted
  below := below

/-- A counted expiry keeps the invariant: the next window starts, or the modem is reset. -/
private theorem Inv.expire {r : Recovery} (h : r.Inv) {it : PppIteration} {s : LoopState}
    (hs : s.deviceState = .pppConnecting) (idle : s.ppp.Idle)
    (streak : s.ppp.pppFailStreak = r.streakBefore + 1) (hexp : r.loop.Expires it) :
    (r.record (r.loop.Expires it) (s.expire it).1).Inv := by
  obtain ⟨hidle, hstarted, hrest⟩ := expire_of_idle idle it
  rw [streak] at hrest
  split at hrest
  · obtain ⟨hinit, hzero, -⟩ := hrest
    rw [record_of_left (by simp [hinit]), hzero]
    exact .of_idle hinit hstarted hidle hzero
  · rename_i hlow
    obtain ⟨hsame, hstreak⟩ := hrest
    have hne : r.expiries + 1 ≠ pppFailsBeforeModemReset.toNat := mt h.threshold_le_iff.mpr hlow
    have hbelow := h.below
    have hcounted := h.counted
    have htwo : pppFailsBeforeModemReset.toNat = 2 := rfl
    rw [record_of_expired (hsame.trans hs) hexp]
    refine .of_window (hsame.trans hs) (.fresh (.inr hstarted) hidle rfl) ?_ ?_
    · simp only
      rw [hstreak, UInt8.toNat_add, UInt8.toNat_one]
      omega
    · simp only
      omega

/-- An iteration that does not let an uncounted failure pass keeps the invariant. -/
private theorem Inv.pppConnecting {r : Recovery} (h : r.Inv) {it : PppIteration}
    (hs : r.loop.deviceState = .pppConnecting)
    (hC : r.loop.Expires it → r.loop.OwnTimerExpired it) :
    (r.record (r.loop.Expires it) (r.loop.pppConnecting it).1).Inv := by
  have hpolled := (h.connecting hs).polled it
  have hstate := (poll_deviceState r.loop it).trans hs
  generalize hp : (r.loop.startPpp it).poll it = polled at hpolled hstate
  cases hpolled with
  | up s ppp streak =>
    rw [pppConnecting_of_up hp, record_of_left (by simp)]
    exact .of_up (by simp) (by simp) ppp.resetPppFailStreak rfl
  | pending s noForce started starting streak timer =>
    have hexp : ¬ r.loop.Expires it := fun hexp => timer (hC hexp)
    rw [pppConnecting_of_not_expires hp hexp, record_of_pending hstate hexp]
    exact .of_window hstate (.polling noForce started starting streak) h.counted h.below
  | counted s noForce started idle streak timer =>
    by_cases hexp : r.loop.Expires it
    · rw [pppConnecting_of_expires hp hexp]
      exact h.expire hstate idle streak hexp
    · rw [pppConnecting_of_not_expires hp hexp, record_of_pending hstate hexp]
      exact .of_window hstate (.stopped noForce started idle streak) h.counted h.below

theorem boot_inv (millis : UInt32) : (boot millis).Inv :=
  .of_idle rfl rfl PppManager.create_idle rfl

/-- Every event keeps the invariant as long as no uncounted failure passes. -/
theorem Inv.step {r r' : Recovery} {e : LoopEvent} (h : r.Inv)
    (hC : ∀ it, e = .pppConnecting it → r.loop.Expires it → r.loop.OwnTimerExpired it)
    (hstep : r.step e = some r') : r'.Inv := by
  obtain ⟨⟨s, effects⟩, hs, rfl⟩ := Option.map_eq_some_iff.mp hstep
  obtain ⟨loop, expiries, before⟩ := r
  cases e with
  | pppConnecting it =>
    simp only [LoopState.step, Option.ite_none_right_eq_some, Option.some.injEq] at hs
    obtain ⟨hstate, heq⟩ := hs
    have := h.pppConnecting hstate (hC it rfl)
    rwa [heq] at this
  | modemReady now =>
    simp only [LoopState.step, Option.ite_none_right_eq_some, Option.some.injEq,
      Prod.mk.injEq] at hs
    obtain ⟨hstate, rfl, -⟩ := hs
    obtain ⟨hstarted, hidle⟩ := h.modemInit hstate
    obtain ⟨hstreak, hbefore, -⟩ := h.outside (by simp [hstate])
    exact .of_window rfl (.fresh (.inr hstarted) hidle (hstreak.trans hbefore.symm)) h.counted
      h.below
  | rebuildPpp now =>
    simp only [LoopState.step, Option.ite_none_right_eq_some, Option.some.injEq,
      Prod.mk.injEq] at hs
    obtain ⟨hstate, rfl, -⟩ := hs
    have hup : loop.ppp.Up := h.up (by rcases hstate with h | h <;> simp [h])
      (by rcases hstate with h | h <;> simp [h])
    obtain ⟨hstreak, hbefore, -⟩ := h.outside (by rcases hstate with h | h <;> simp [h])
    refine .of_window rfl (.fresh (.inl rfl) hup.stop ?_) h.counted h.below
    exact (PppManager.stop_pppFailStreak _).trans (hstreak.trans hbefore.symm)
  | mqttReady now | mqttUp now | mqttLost now =>
    simp only [LoopState.step, Option.ite_none_right_eq_some, Option.some.injEq,
      Prod.mk.injEq] at hs
    obtain ⟨hstate, rfl, -⟩ := hs
    have hup : loop.ppp.Up := h.up (by simp [hstate]) (by simp [hstate])
    obtain ⟨hstreak, hbefore, hexp⟩ := h.outside (by simp [hstate])
    simp only at hbefore hexp
    subst hbefore hexp
    exact .of_up (by simp [LoopState.enter]) (by simp [LoopState.enter]) hup hstreak

/-! ## Runs -/

/-- Every expiry of a run escalates exactly when at every expiry the PPP manager's own
    timer has run out. -/
theorem every_expiry_escalates_iff (millis : UInt32) (es : List LoopEvent) :
    Trace.AllSteps step
        (fun r e => ∀ it, e = .pppConnecting it → r.loop.Expires it → r.Escalates it)
        (boot millis) es ↔
      Trace.AllSteps step
        (fun r e => ∀ it, e = .pppConnecting it → r.loop.Expires it → r.loop.OwnTimerExpired it)
        (boot millis) es := by
  refine Trace.allSteps_congr (J := Inv) ?_ (fun _ _ _ h hC hstep => h.step hC hstep)
    (boot_inv millis)
  intro r e r' h hstep
  refine forall_congr' fun it => imp_congr_right fun he => imp_congr_right fun hexp => ?_
  subst he
  have hstate : r.loop.deviceState = .pppConnecting := by
    obtain ⟨_, hs, -⟩ := Option.map_eq_some_iff.mp hstep
    simp only [LoopState.step, Option.ite_none_right_eq_some] at hs
    exact hs.1
  exact h.escalates_iff_ownTimer hstate hexp

/-- A modem that does not answer the registration query. -/
def silentModem (millis : UInt32) : PppAnswers where
  millis := millis
  getRegistrationStatus := .noResult
  setNetworkAPN := false
  setNetworkActive := false
  getLocalIP := ""

/-- Two windows that expire a millisecond late: `start()` runs ten milliseconds after
    `stateEntryTime` was taken. -/
def twoExpiries : List LoopEvent :=
  [.modemReady 1000,
    .pppConnecting ⟨1010, 1011, silentModem 1012⟩,
    .pppConnecting ⟨61001, 0, silentModem 61002⟩,
    .pppConnecting ⟨61011, 61012, silentModem 61013⟩,
    .pppConnecting ⟨121002, 0, silentModem 121003⟩]

/-- Neither expiry is counted, and the device is still in STATE_PPP_CONNECTING. -/
theorem twoExpiries_not_counted :
    ((Trace.exec step (boot 0) twoExpiries).map fun r =>
      (r.loop.deviceState, r.loop.ppp.pppFailStreak, r.expiries)) = some (.pppConnecting, 0, 2) ∧
    ¬ Trace.AllSteps step
        (fun r e => ∀ it, e = .pppConnecting it → r.loop.Expires it → r.Escalates it)
        (boot 0) twoExpiries := by
  refine ⟨by decide, fun h => ?_⟩
  -- The second iteration expires and finds the streak at zero.
  have hgrown := (((h _ rfl).2 _ rfl).2 _ rfl).1 _ rfl (by decide) |>.streak
  exact absurd hgrown (by decide)

end Recovery

end Firmware
