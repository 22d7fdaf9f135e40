-- SUMMARY: When the device in STATE_MQTT_CONNECTED has a subscribed session, and the failed subscription after which it has not.
import ParkingGate.Firmware.LoopFrame
import ParkingGate.Firmware.LoopSafety

/-!
# Connected means listening

`connect` takes a shortcut: with the `connected` flag set it asks the modem for a session
and, if there is one, returns true. The flag is to say that `connect` itself has opened and
subscribed that session, and one path breaks this: a lost session that only `isConnected`
has noticed leaves the flag set, and when the next attempt opens a session, fails to
subscribe and cannot disconnect, the flag stays set over a session without subscriptions.
-/

namespace Firmware

open Config Hoare

namespace LoopWorld

/-- In STATE_MQTT_CONNECTED the session of the modem, while there is one, is subscribed to
    `MQTT_CMD_TOPIC`. -/
def Listening (w : LoopWorld) : Prop :=
  w.main.deviceState = .mqttConnected → w.session ≠ .unsubscribed

/-- The flag is set over a session that is not subscribed. -/
def Stale (w : LoopWorld) : Prop := w.mqtt.connected = true ∧ w.session = .unsubscribed

/-- `connect` from `w` finds the flag set and the session gone, opens a new session,
    cannot subscribe it and cannot disconnect it. -/
structure LeavesStale (ans : Answers) (w : LoopWorld) : Prop where
  flag : w.mqtt.connected = true
  gone : w.session = .down ∨ ans.drops w.answered = true
  due : w.mqtt.shouldWait (ans.millis w.reads) = false
  opened : ans.mqttConnect = (true, .opened)
  refused : ans.mqttSubscribe = false
  undone : ans.mqttDisconnect = false
  /-- The new session is there until `connect` returns. -/
  stays : ∀ k ∈ [2, 3, 4, 5], ans.drops (w.answered + k) = false

/-- The iteration calls `connect`, which leaves the flag set over a session that is not
    subscribed, and the failure is not the one that escalates. -/
structure LosesSubscription (w : LoopWorld) (ans : Answers) : Prop where
  state : w.main.deviceState = .mqttConnecting
  notStuck : ¬ ans.millis 0 - w.main.stateEntryTime > mqttConnectingMaxMs
  below : w.mqtt.mqttFailStreak + 1 < mqttFailsBeforePppRebuild
  leaves : LeavesStale ans { w with reads := 1, answered := 0 }

instance (ans : Answers) (w : LoopWorld) : Decidable (LeavesStale ans w) :=
  decidable_of_iff
    (w.mqtt.connected = true ∧ (w.session = .down ∨ ans.drops w.answered = true) ∧
      w.mqtt.shouldWait (ans.millis w.reads) = false ∧ ans.mqttConnect = (true, .opened) ∧
      ans.mqttSubscribe = false ∧ ans.mqttDisconnect = false ∧
      ∀ k ∈ [2, 3, 4, 5], ans.drops (w.answered + k) = false)
    ⟨fun ⟨flag, gone, due, opened, refused, undone, stays⟩ =>
      ⟨flag, gone, due, opened, refused, undone, stays⟩,
    fun h => ⟨h.flag, h.gone, h.due, h.opened, h.refused, h.undone, h.stays⟩⟩

instance (w : LoopWorld) (ans : Answers) : Decidable (w.LosesSubscription ans) :=
  decidable_of_iff
    (w.main.deviceState = .mqttConnecting ∧
      ¬ ans.millis 0 - w.main.stateEntryTime > mqttConnectingMaxMs ∧
      w.mqtt.mqttFailStreak + 1 < mqttFailsBeforePppRebuild ∧
      LeavesStale ans { w with reads := 1, answered := 0 })
    ⟨fun ⟨state, notStuck, below, leaves⟩ => ⟨state, notStuck, below, leaves⟩,
    fun h => ⟨h.state, h.notStuck, h.below, h.leaves⟩⟩

/-- The flag is set over such a session only when the next iteration rebuilds PPP, which
    lowers it. -/
def Fresh (w : LoopWorld) : Prop := w.Stale → w.mqtt.mqttFailStreak = mqttFailsBeforePppRebuild

theorem fresh_of_not_stale {w : LoopWorld} (h : ¬ w.Stale) : w.Fresh := fun hstale => absurd hstale h

theorem fresh_of_flag {w : LoopWorld} (h : w.mqtt.connected = false) : w.Fresh :=
  fresh_of_not_stale fun hstale => by simp [hstale.1] at h

theorem Fresh.not_stale {w : LoopWorld} (h : w.Fresh)
    (hstreak : w.mqtt.mqttFailStreak < mqttFailsBeforePppRebuild) : ¬ w.Stale := by
  intro hstale
  rw [h hstale] at hstreak
  exact absurd hstreak (UInt8.lt_irrefl _)

/-- Nothing but `connect` opens a session or sets the flag. -/
theorem Fresh.of_dropped {w₀ w : LoopWorld} (h : w₀.Fresh)
    (hconnected : w.mqtt.connected = true → w₀.mqtt.connected = true)
    (hsession : w.session = w₀.session ∨ w.session = .down)
    (hstreak : w.mqtt.mqttFailStreak = w₀.mqtt.mqttFailStreak) : w.Fresh := by
  intro ⟨hflag, hunsubscribed⟩
  rcases hsession with heq | hdown
  · rw [hstreak]
    exact h ⟨hconnected hflag, heq ▸ hunsubscribed⟩
  · exact absurd (hdown.symm.trans hunsubscribed) (by simp)

theorem Fresh.undisturbed {w₀ w : LoopWorld} (h : w₀.Fresh) (h' : Undisturbed w₀ w) : w.Fresh :=
  h.of_dropped h'.connected h'.session h'.streak

end LoopWorld

open LoopWorld

variable {w₀ : LoopWorld} {this : Option Nat} (ans : Answers)

namespace MqttManager

/-! ## Connecting -/

/-- During `connect` from `w₀`: if the flag is set, then it was set before, `n` calls were
    made, no failure was counted, and an unsubscribed session implies `F`. -/
structure Held (w₀ : LoopWorld) (n : Nat) (F : Prop) (w : LoopWorld) : Prop where
  modem : w.mqtt.modem = w₀.mqtt.modem
  flagged : w.mqtt.connected = true → w₀.mqtt.connected = true ∧ w.answered = w₀.answered + n ∧
    w.mqtt.mqttFailStreak = w₀.mqtt.mqttFailStreak ∧ (w.session = .unsubscribed → F)

variable {n : Nat} {F : Prop}

/-- A session that is still there after a call did not drop. -/
theorem call_held (method : ModemMethod) :
    Triple (Held w₀ n F) (TinyGsm.call ans method this) fun _ =>
      Held w₀ (n + 1) (F ∧ ans.drops (w₀.answered + n) = false) := by
  refine Triple.modify fun w h => ⟨h.modem, fun hflag => ?_⟩
  obtain ⟨hwas, hanswered, hstreak, hF⟩ := h.flagged hflag
  refine ⟨hwas, congrArg (· + 1) hanswered, hstreak, fun hsession => ?_⟩
  simp only [LoopWorld.called, hanswered] at hsession
  split at hsession
  · cases hsession
  · rename_i hkept
    exact ⟨hF hsession, Bool.eq_false_iff.mpr hkept⟩

/-- Only a new session can be without subscriptions. -/
theorem mqttConnect_held :
    Triple (Held w₀ n False) (TinyGsm.mqttConnect ans this) fun r =>
      Held w₀ (n + 1) (r = ans.mqttConnect.1 ∧ ans.mqttConnect.2 = .opened) := by
  refine Triple.bind (call_held ans .mqttConnect) fun _ => ?_
  refine Triple.bind (Q := fun _ => Held w₀ (n + 1) (ans.mqttConnect.2 = .opened)) ?_ fun _ => ?_
  · refine Triple.modify fun w h => ⟨h.modem, fun hflag => ?_⟩
    obtain ⟨hwas, hanswered, hstreak, hF⟩ := h.flagged hflag
    refine ⟨hwas, hanswered, hstreak, fun hsession => ?_⟩
    cases hchange : ans.mqttConnect.2 with
    | kept =>
      simp only [hchange, SessionChange.apply] at hsession
      exact absurd (hF hsession).1 not_false
    | lost =>
      simp only [hchange, SessionChange.apply] at hsession
      cases hsession
    | opened => rfl
  · refine Triple.pure fun w h => ⟨h.modem, fun hflag => ?_⟩
    obtain ⟨hwas, hanswered, hstreak, hF⟩ := h.flagged hflag
    exact ⟨hwas, hanswered, hstreak, fun hsession => ⟨rfl, hF hsession⟩⟩

theorem confirmed_held (success : Bool) :
    Triple (Held w₀ n F) (confirmed ans this success) fun r w =>
      r = true → success = true ∧ Held w₀ (n + 1) (F ∧ ans.drops (w₀.answered + n) = false) w := by
  refine Triple.ite (fun hsuccess => ?_) fun _ => Triple.pure fun _ _ hfalse => nomatch hfalse
  refine Triple.bind (call_held ans .mqttConnected) fun _ => Triple.get_eq fun w h => ?_
  exact Triple.pure fun s hs _ => ⟨hsuccess, hs ▸ h⟩

/-- A successful subscription is to a session that is subscribed from then on, or gone. -/
theorem mqttSubscribe_held :
    Triple (Held w₀ n F) (TinyGsm.mqttSubscribe ans this) fun r w =>
      if r then w.session ≠ .unsubscribed
      else Held w₀ (n + 1)
        ((F ∧ ans.drops (w₀.answered + n) = false) ∧ ans.mqttSubscribe = false) w := by
  refine Triple.bind (call_held ans .mqttSubscribe) fun _ => ?_
  refine Triple.bind (Q := fun _ w => if ans.mqttSubscribe then w.session ≠ .unsubscribed
    else Held w₀ (n + 1) (F ∧ ans.drops (w₀.answered + n) = false) w) ?_ fun _ => ?_
  · refine Triple.modify fun w h => ?_
    by_cases hok : ans.mqttSubscribe
    · simp only [hok, if_true, true_and]
      cases w.session <;> decide
    · simp only [hok]
      exact ⟨h.modem, h.flagged⟩
  · refine Triple.pure fun w h => ?_
    split
    · rename_i hok
      rwa [if_pos hok] at h
    · rename_i hrefused
      rw [if_neg hrefused] at h
      exact ⟨h.modem, fun hflag => (h.flagged hflag).imp_right fun hrest =>
        ⟨hrest.1, hrest.2.1, fun hsession => ⟨hrest.2.2 hsession, Bool.eq_false_iff.mpr hrefused⟩⟩⟩

theorem mqttDisconnect_held :
    Triple (Held w₀ n F) (TinyGsm.mqttDisconnect ans this) fun _ =>
      Held w₀ (n + 1)
        ((F ∧ ans.drops (w₀.answered + n) = false) ∧ ans.mqttDisconnect = false) := by
  refine Triple.bind (call_held ans .mqttDisconnect) fun _ => Triple.modify fun w h => ?_
  refine ⟨h.modem, fun hflag => ?_⟩
  obtain ⟨hwas, hanswered, hstreak, hF⟩ := h.flagged hflag
  refine ⟨hwas, hanswered, hstreak, fun hsession => ?_⟩
  split at hsession
  · cases hsession
  · rename_i hundone
    exact ⟨hF hsession, Bool.eq_false_iff.mpr hundone⟩

/-- What is known once `connect` has failed to subscribe and to disconnect, and what it
    counts. -/
def SubscribeFailed (ans : Answers) (w₀ : LoopWorld) (n : Nat) (F : Prop) (w : LoopWorld) : Prop :=
  w.Stale → w₀.mqtt.connected = true ∧
    w.mqtt.mqttFailStreak = w₀.mqtt.mqttFailStreak + 1 ∧ F ∧
    ans.mqttSubscribe = false ∧ ans.mqttDisconnect = false ∧
    ∀ k < 3, ans.drops (w₀.answered + n + k) = false

theorem subscribeToCommands_stale :
    Triple (Held w₀ n F) (subscribeToCommands ans this) fun _ => SubscribeFailed ans w₀ n F := by
  refine Triple.bind (call_held ans .mqttSetCallback) fun _ => ?_
  refine Triple.bind (mqttSubscribe_held ans) fun subscribed => Triple.ite (fun hok => ?_) fun hok => ?_
  · refine Triple.bind (Q := fun _ w => w.session ≠ .unsubscribed) ?_ fun _ => ?_
    · refine Triple.modify fun w h => ?_
      rwa [if_pos hok] at h
    · exact Triple.pure fun w h hstale => absurd hstale.2 h
  · simp only [hok]
    refine Triple.bind (mqttDisconnect_held ans) fun _ => ?_
    refine Triple.bind (Q := fun _ => SubscribeFailed ans w₀ n F) ?_ fun _ => Triple.pure fun _ h => h
    refine Triple.modify fun w h hstale => ?_
    obtain ⟨hwas, -, hstreak, hF⟩ := h.flagged hstale.1
    obtain ⟨⟨⟨⟨⟨hF, hfirst⟩, hsecond⟩, hrefused⟩, hthird⟩, hundone⟩ := hF hstale.2
    refine ⟨hwas, congrArg (· + 1) hstreak, hF, hrefused, hundone, fun k hk => ?_⟩
    match k, hk with
    | 0, _ => exact hfirst
    | 1, _ => exact hsecond
    | 2, _ => exact hthird

/-- The other failure path lowers the flag. -/
theorem connectionFailed_not_stale :
    Triple (fun _ => True) connectionFailed fun _ w => ¬ w.Stale := by
  have hflag : Triple (fun _ => True) (modifyMqtt fun m => { m with connected := false })
      fun _ w => w.mqtt.connected = false :=
    Triple.modify fun _ _ => rfl
  have hcount : Keeps (fun w => w.mqtt.connected = false) countFailure := Keeps.modify fun _ h => h
  refine Triple.bind hflag fun _ => Triple.bind hcount fun _ => Triple.pure fun w h hstale => ?_
  simp [hstale.1] at h

/-- What `mqtt_connect` and the modem's confirmation of it must have been. -/
def SessionOpened (ans : Answers) (w₀ : LoopWorld) (n : Nat) : Prop :=
  ans.mqttConnect = (true, .opened) ∧ ans.drops (w₀.answered + n) = false

theorem connectToBroker_stale :
    Triple (Held w₀ n False) (connectToBroker ans this) fun _ =>
      SubscribeFailed ans w₀ (n + 2) (SessionOpened ans w₀ (n + 1)) := by
  refine Triple.bind (mqttConnect_held ans) fun success => ?_
  refine Triple.bind (confirmed_held ans success) fun up => Triple.ite (fun hup => ?_) fun _ => ?_
  · intro w h hstale
    obtain ⟨hsuccess, hheld⟩ := h hup
    obtain ⟨hwas, hstreak, ⟨⟨hreturned, hopened⟩, hkept⟩, hrest⟩ :=
      subscribeToCommands_stale ans w hheld hstale
    exact ⟨hwas, hstreak, ⟨Prod.ext (hreturned.symm.trans hsuccess) hopened, hkept⟩, hrest⟩
  · exact connectionFailed_not_stale.conseq (fun _ _ => trivial) fun _ _ h hstale => absurd hstale h

/-- Under a set flag the shortcut is taken on a session that is up, and the session is gone
    when it is not taken. -/
theorem alreadyConnected_held (hsome : w₀.mqtt.modem.isSome) (hstale : ¬ w₀.Stale) (reads : Nat) :
    Triple (fun w => w = { w₀ with reads := reads }) (alreadyConnected ans) fun r w =>
      w.mqtt = w₀.mqtt ∧ if r then ¬ w.Stale
        else Held w₀ 1 False w ∧
          (w₀.mqtt.connected = true → w₀.session = .down ∨ ans.drops w₀.answered = true) := by
  rintro w rfl
  rw [alreadyConnected_run]
  cases hflag : w₀.mqtt.connected with
  | false =>
    have hunset : w₀.mqtt.connected = true → False := fun hset => by simp [hset] at hflag
    exact ⟨rfl, ⟨rfl, fun hset => (hunset hset).elim⟩, by rintro ⟨⟩⟩
  | true =>
    have hnot : w₀.session ≠ .unsubscribed := fun hunsubscribed => hstale ⟨hflag, hunsubscribed⟩
    rw [hsome]
    refine ⟨rfl, ?_⟩
    cases hdrops : ans.drops w₀.answered with
    | true =>
      simp only [Bool.and_self, if_true, LoopWorld.called, hdrops]
      exact ⟨⟨rfl, fun _ => ⟨hflag, rfl, rfl, by rintro ⟨⟩⟩⟩, fun _ => .inr trivial⟩
    | false =>
      simp only [Bool.and_self, if_true, LoopWorld.called, hdrops, Bool.false_eq_true, if_false]
      cases hsession : w₀.session with
      | down =>
        exact ⟨⟨rfl, fun _ => ⟨hflag, rfl, rfl, by rintro ⟨⟩⟩⟩, fun _ => .inl rfl⟩
      | unsubscribed => exact absurd hsession hnot
      | subscribed =>
        intro hstale
        cases hstale.2

/-- An attempt that leaves the flag set over a session that is not subscribed is one that
    `LeavesStale` describes, and it is counted. -/
theorem connect_stale (hsome : w₀.mqtt.modem.isSome) (hstale : ¬ w₀.Stale) :
    Triple (fun w => w = w₀) (connect ans) fun _ w =>
      w.Stale → LeavesStale ans w₀ ∧ w.mqtt.mqttFailStreak = w₀.mqtt.mqttFailStreak + 1 := by
  have hmillis : Triple (fun w => w = w₀) (millis ans) fun now w =>
      now = ans.millis w₀.reads ∧ w = { w₀ with reads := w₀.reads + 1 } := by
    rintro w rfl
    exact ⟨rfl, rfl⟩
  refine Triple.bind hmillis fun now => Triple.assume fun hnow => ?_
  refine Triple.bind (alreadyConnected_held ans hsome hstale _) fun already => ?_
  refine Triple.ite (fun hup => Triple.pure fun w h hleft => ?_) fun hup => ?_
  · exact absurd hleft (by simpa only [hup, if_true] using h.2)
  refine Triple.get_eq fun w h => ?_
  simp only [hup, Bool.false_eq_true, if_false] at h
  obtain ⟨hmqtt, hheld, hgone⟩ := h
  refine Triple.ite (fun _ => Triple.pure fun s hs hleft => ?_) fun hwait => ?_
  · obtain ⟨-, -, -, hF⟩ := hheld.flagged (hs ▸ hleft.1)
    exact (hF (hs ▸ hleft.2)).elim
  · refine Triple.bind (Q := fun _ => Held w₀ 1 False) ?_ fun _ => ?_
    · exact Triple.modify fun s hs => ⟨hs ▸ hheld.modem, hs ▸ hheld.flagged⟩
    refine Triple.get fun s hs => Triple.ite (fun hnone => ?_) fun _ s hs hleft => ?_
    · rw [hs.modem] at hnone
      simp [Option.isNone_iff_eq_none.mp hnone] at hsome
    obtain ⟨hflag, hstreak, ⟨hopened, hconfirmed⟩, hrefused, hundone, hkept⟩ :=
      connectToBroker_stale ans s hs hleft
    refine ⟨⟨hflag, hgone hflag, ?_, hopened, hrefused, hundone, ?_⟩, hstreak⟩
    · rw [← hnow, ← hmqtt]
      exact Bool.eq_false_iff.mpr hwait
    · intro k hk
      simp only [List.mem_cons, List.not_mem_nil, or_false] at hk
      rcases hk with rfl | rfl | rfl | rfl
      · exact hconfirmed
      · exact hkept 0 (by decide)
      · exact hkept 1 (by decide)
      · exact hkept 2 (by decide)

end MqttManager

namespace LoopWorld

open MqttManager

/-- Under these conditions the attempt does leave the flag set over such a session. -/
theorem LeavesStale.connect_run {ans : Answers} {w : LoopWorld} (h : LeavesStale ans w)
    (hsome : w.mqtt.modem.isSome) :
    ((connect ans).run w).1 = false ∧ ((connect ans).run w).2.Stale ∧
      ((connect ans).run w).2.mqtt.mqttFailStreak = w.mqtt.mqttFailStreak + 1 := by
  obtain ⟨i, hmodem⟩ := Option.isSome_iff_exists.mp hsome
  have hkept : ∀ k ∈ [2, 3, 4, 5], ans.drops (w.answered + k) = false := h.stays
  simp only [List.forall_mem_cons] at hkept
  have hgone : (if ans.drops w.answered = true then MqttSession.down else w.session) = .down := by
    rcases h.gone with hdown | hdrops
    · rw [hdown, ite_self]
    · exact if_pos hdrops
  simp [connect, millis, alreadyConnected, attemptConnection, connectToBroker, confirmed,
    subscribeToCommands, countFailure, incrementFailStreak, modifyMqtt, TinyGsm.call,
    TinyGsm.mqttConnected, TinyGsm.mqttConnect, TinyGsm.mqttSubscribe, TinyGsm.mqttDisconnect,
    called, SessionChange.apply, MqttSession.isUp, Stale, Nat.add_assoc, hmodem, hgone, hkept, h.flag,
    h.due, h.opened, h.refused, h.undone]
  exact ⟨rfl, ⟨rfl, rfl⟩, rfl⟩

/-- The shortcut on a stale flag. -/
theorem Stale.connect_run {ans : Answers} {w : LoopWorld} (h : w.Stale)
    (hsome : w.mqtt.modem.isSome) (hkept : ans.drops w.answered = false) :
    ((connect ans).run w).1 = true ∧ ((connect ans).run w).2.session = .unsubscribed := by
  simp [connect, millis, alreadyConnected, TinyGsm.mqttConnected, TinyGsm.call, called,
    MqttSession.isUp, h.1, h.2, hsome, hkept]
  exact ⟨rfl, rfl⟩

end LoopWorld

namespace MainLoop

open MqttManager

/-! ## The rest of the loop -/

theorem fresh_ignoresLoop : IgnoresLoop Fresh where
  outside := fun h hmqtt hsession =>
    h.of_dropped (fun hflag => hmqtt ▸ hflag) hsession (congrArg MqttManager.mqttFailStreak hmqtt)
  linked := fun _ _ h => h

/-- Rebuilding PPP lowers the flag, whether or not `mqtt_disconnect` takes effect. -/
theorem rebuildPpp_fresh (now : UInt32) :
    Triple (fun w => w.mqtt.modem.isSome) (rebuildPpp ans now) fun _ => Fresh := by
  let Lowered (w : LoopWorld) : Prop := w.mqtt.connected = false
  have hdisconnect : Triple (fun w => w.mqtt.modem.isSome) (disconnect ans) fun _ => Lowered := by
    refine Triple.get_eq fun w hsome => Triple.ite (fun _ => ?_) fun hguard => ?_
    · exact Triple.bind (Q := fun _ _ => True) (fun _ _ => trivial) fun _ => Triple.modify fun _ _ => rfl
    · refine Triple.pure fun s hs => hs ▸ ?_
      simpa [hsome] using hguard
  have hreset : Keeps Lowered (modifyMqtt resetMqttFailStreak) := Keeps.modify fun _ h => h
  have hstop : Keeps Lowered (pppStopCalls ans) := fun w h =>
    (congrArg MqttManager.connected (pppStopCalls_calls ans w).mqtt).trans h
  refine Triple.bind hdisconnect fun _ => Triple.bind hreset fun _ => Triple.bind hstop fun _ => ?_
  exact Triple.modify fun w h => fresh_of_flag h

/-! ## The MQTT states -/

/-- What STATE_MQTT_CONNECTED keeps besides: the pointer is not null. -/
def Tracked (w : LoopWorld) : Prop := w.mqtt.modem.isSome ∧ w.Fresh

theorem Tracked.undisturbed {w w' : LoopWorld} (h : Tracked w) (h' : Undisturbed w w') :
    Tracked w' := ⟨h'.modem ▸ h.1, h.2.undisturbed h'⟩

theorem tracked_of_undisturbed {α : Type} {x : LoopM α} (h : ∀ w, Keeps (Undisturbed w) x) :
    Keeps Tracked x := fun w hw => hw.undisturbed (h w w (.refl w))

theorem call_tracked (method : ModemMethod) : Keeps Tracked (TinyGsm.call ans method this) :=
  fun w h => ⟨h.1, fresh_ignoresLoop.call ans method _ w h.2⟩

theorem applyOobAction_fresh (action : OobAction) (now : UInt32) :
    Triple Tracked (applyOobAction ans action now) fun r w => r = true ∧ w.Fresh := by
  cases action with
  | reboot =>
    refine Triple.bind (Q := fun _ => Fresh) (Triple.modify fun _ h => h.2) fun _ => ?_
    exact Triple.pure fun _ h => ⟨rfl, h⟩
  | rebuildPpp =>
    have hrebuild : Triple Tracked (rebuildPpp ans now) fun _ => Fresh :=
      (rebuildPpp_fresh ans now).conseq (fun _ h => h.1) fun _ _ h => h
    exact Triple.bind hrebuild fun _ => Triple.pure fun _ h => ⟨rfl, h⟩

/-- A poll that did not act on a command leaves the pointer as it was. -/
def PollKept (acted : Bool) (w : LoopWorld) : Prop := if acted then w.Fresh else Tracked w

theorem pollOob_fresh (now : UInt32) : Triple Tracked (pollOob ans now) PollKept := by
  have hidle : Triple Tracked (pure false : LoopM Bool) PollKept := Triple.pure fun _ h => h
  have hacts : ∀ action, Triple Tracked (applyOobAction ans action now) PollKept :=
    fun action => (applyOobAction_fresh ans action now).conseq (fun _ h => h) fun acted w h => by
      rw [PollKept, if_pos h.1]
      exact h.2
  have hpoll : Triple Tracked (pollOobCommandViaModem ans now) PollKept := by
    refine Triple.get fun w _ => Triple.ite (fun _ => hidle) fun _ => ?_
    refine Triple.bind (call_tracked ans .httpsBegin) fun _ => ?_
    refine Triple.bind (call_tracked ans .httpsSetUrl) fun _ => Triple.ite (fun _ => ?_) fun _ => ?_
    · exact Triple.bind (call_tracked ans .httpsEnd) fun _ => hidle
    · refine Triple.bind (Keeps.forM fun method _ => call_tracked ans method) fun _ => ?_
      exact Triple.ite (fun _ => hacts .reboot) fun _ =>
        Triple.ite (fun _ => hacts .rebuildPpp) fun _ => hidle
  refine Triple.get fun w h => Triple.ite (fun _ => ?_) fun _ => hidle
  exact Triple.bind (Q := fun _ => Tracked) (Triple.set fun _ _ => h) fun _ => hpoll

theorem mqttConnected_fresh (now : UInt32) :
    Triple Tracked (mqttConnected ans now) fun _ => Fresh := by
  have hstatus : Keeps Tracked (publishStatus ans) :=
    tracked_of_undisturbed fun _ => publishStatus_keeps ans
  have hconnected : Keeps Tracked (isConnected ans) :=
    tracked_of_undisturbed fun _ => undisturbed_of_calls fun _ => isConnected_keeps ans
  refine Triple.bind (pollOob_fresh ans now) fun acted => Triple.ite (fun hacted => ?_) fun hacted => ?_
  · refine Triple.pure fun w h => ?_
    rwa [PollKept, if_pos hacted] at h
  · have htracked : ∀ w, PollKept acted w → Tracked w := by
      intro w h
      rwa [PollKept, if_neg hacted] at h
    refine Triple.conseq (Triple.bind hstatus fun _ => ?_) htracked fun _ _ h => h
    refine Triple.bind hconnected fun r => Triple.ite (fun _ => Triple.pure fun _ h => h.2) fun _ => ?_
    exact Triple.modify fun _ h => h.2

theorem processMessages_fresh (lib : ArduinoJson) : Keeps Fresh (processMessages lib ans) := by
  refine Keeps.get fun w _ => Keeps.ite (fun _ => ?_) fun _ => Keeps.pure _
  intro s hs
  rcases MqttManager.loop_spec ans lib s rfl with hsame | ⟨w₁, -, heq⟩
  · exact hs.undisturbed hsame
  · rw [heq]
    exact fresh_of_flag rfl

/-- Past its two escalations the case calls `connect`. -/
theorem mqttConnecting_run {ans : Answers} {now : UInt32} {w : LoopWorld}
    (hstuck : ¬ now - w.main.stateEntryTime > mqttConnectingMaxMs)
    (hbelow : w.mqtt.mqttFailStreak < mqttFailsBeforePppRebuild) :
    (mqttConnecting ans now).run w =
      (fun r : Bool × LoopWorld => (if r.1 then do
          modifyMqtt fun m => { m with commandCallback := true }
          uploadDiagnostics ans ans.diagnosticBatches
          modifyMain fun s => s.enter .mqttConnected now
        else return () : LoopM Unit).run r.2) ((connect ans).run w) := by
  have hkeep : ¬ w.mqtt.shouldRebuildPpp = true := by
    simpa [MqttManager.shouldRebuildPpp, UInt8.not_le] using hbelow
  have hcase : (mqttConnecting ans now).run w =
      (if now - w.main.stateEntryTime > mqttConnectingMaxMs then rebuildPpp ans now
        else if w.mqtt.shouldRebuildPpp then rebuildPpp ans now
        else _ : LoopM Unit).run w := rfl
  rw [hcase, if_neg hstuck, if_neg hkeep]
  rfl

/-- The iteration that calls `connect`, unless it loses the subscription. -/
theorem mqttConnecting_fresh {w : LoopWorld} (hw : w.Serving)
    (hstate : w.main.deviceState = .mqttConnecting) (h : w.Fresh)
    (hkept : ¬ w.LosesSubscription ans) :
    Triple (fun s => s = { w with reads := 1, answered := 0 })
      (mqttConnecting ans (ans.millis 0)) fun _ => Fresh := by
  let start : LoopWorld := { w with reads := 1, answered := 0 }
  have hsome : start.mqtt.modem.isSome := hw.modem
  have hrebuild : Triple (fun s => s = start) (rebuildPpp ans (ans.millis 0)) fun _ => Fresh :=
    (rebuildPpp_fresh ans _).conseq (fun s hs => hs ▸ hsome) fun _ _ hs => hs
  refine Triple.get_eq fun s hs => ?_
  obtain rfl : s = start := hs
  refine Triple.ite (fun _ => hrebuild) fun hstuck => Triple.ite (fun _ => hrebuild) fun hstreak => ?_
  have hlt : start.mqtt.mqttFailStreak < mqttFailsBeforePppRebuild := lt_of_not_shouldRebuild hstreak
  have hconnect : Triple (fun s => s = start) (connect ans) fun _ => Fresh := by
    refine (connect_stale ans hsome (Fresh.not_stale h hlt)).conseq (fun _ hs => hs) ?_
    intro r s hs hstale
    obtain ⟨hleaves, hcounted⟩ := hs hstale
    have hnot : ¬ start.mqtt.mqttFailStreak + 1 < mqttFailsBeforePppRebuild := fun hbelow =>
      hkept ⟨hstate, hstuck, hbelow, hleaves⟩
    rw [hcounted]
    exact UInt8.le_antisymm (succ_le_threshold hlt) (UInt8.not_lt.mp hnot)
  have hupload : Keeps Fresh (uploadDiagnostics ans ans.diagnosticBatches) :=
    fresh_ignoresLoop.uploadDiagnostics ans _
  refine Triple.bind hconnect fun ok => Triple.ite (fun _ => ?_) fun _ => Triple.pure fun _ hs => hs
  refine Triple.bind (Q := fun _ => Fresh) (Triple.modify fun _ hs => hs) fun _ => ?_
  exact Triple.bind hupload fun _ => fresh_ignoresLoop.modifyMain _

theorem processMessages_main (lib : ArduinoJson) (w : LoopWorld) :
    ((processMessages lib ans).run w).2.main = w.main := by
  have hkeeps : Keeps (fun s => s.main = w.main) (processMessages lib ans) := by
    refine Keeps.get fun _ _ => Keeps.ite (fun _ s hs => ?_) fun _ => Keeps.pure _
    rcases MqttManager.loop_spec ans lib s rfl with hsame | ⟨w₁, hsame, heq⟩
    · exact hsame.main.trans hs
    · rw [heq]
      exact hsame.main.trans hs
  exact hkeeps w rfl

theorem runState_fresh (now : UInt32) {w : LoopWorld} (h : AtSwitch w) (hfresh : w.Fresh)
    (hstate : w.main.deviceState ≠ .mqttConnecting) :
    ((runState ans now w.main.deviceState).run w).2.Fresh := by
  cases h with
  | modemInit h inv =>
    rw [h.state]
    exact fresh_ignoresLoop.modemInit ans now w hfresh
  | pppConnecting h =>
    rw [h.1.state]
    exact fresh_ignoresLoop.pppConnecting ans now w hfresh
  | pppUp h =>
    rw [h.1.state]
    exact fresh_ignoresLoop.pppUp ans now w hfresh
  | mqttConnecting state h => exact absurd state hstate
  | mqttConnected h =>
    rw [h.state]
    exact mqttConnected_fresh ans now w ⟨h.serving.modem, hfresh⟩

end MainLoop

/-! ## Runs -/

namespace LoopWorld

open MqttManager

/-- An iteration that does not lose the subscription keeps the flag fresh. -/
theorem Fresh.iterate {w : LoopWorld} (h : w.Fresh) (hinv : w.Inv) (lib : ArduinoJson)
    {ans : Answers} (hkept : ¬ w.LosesSubscription ans) : (w.iterate lib ans).Fresh := by
  have hloop : ((MainLoop.loop lib ans).run { w with reads := 0, answered := 0 }).2.Fresh := by
    let start : LoopWorld := { w with reads := 1, answered := 0 }
    by_cases hstate : w.main.deviceState = .mqttConnecting
    · rw [loop_run_connecting lib ans hstate]
      exact MainLoop.mqttConnecting_fresh ans (hinv.serving hstate) hstate h hkept start rfl
    · have hinv : start.Inv := MainLoop.inv_counters hinv 1 0
      have hswitch := MainLoop.processMessages_spec ans lib start hinv
      have hfresh := MainLoop.processMessages_fresh ans lib start h
      have hmain : ((MainLoop.processMessages lib ans).run start).2.main.deviceState ≠
          .mqttConnecting := by
        rw [MainLoop.processMessages_main]
        exact hstate
      exact MainLoop.runState_fresh ans (ans.millis 0) hswitch hfresh hmain
  unfold LoopWorld.iterate
  simp only
  split
  · exact fresh_of_flag rfl
  · exact hloop

section Connecting

variable {w : LoopWorld} {ans : Answers} (lib : ArduinoJson) (hrunning : w.restarting = false)
  (hstate : w.main.deviceState = .mqttConnecting)
  (hstuck : ¬ ans.millis 0 - w.main.stateEntryTime > mqttConnectingMaxMs)
  (hbelow : w.mqtt.mqttFailStreak < mqttFailsBeforePppRebuild)

include hrunning hstate hstuck hbelow

/-- An iteration that connects in vain does nothing else. -/
private theorem iterate_refused
    (hrefused : ((connect ans).run { w with reads := 1, answered := 0 }).1 = false) :
    w.iterate lib ans = ((connect ans).run { w with reads := 1, answered := 0 }).2 := by
  let start : LoopWorld := { w with reads := 1, answered := 0 }
  have hframed := connect_spec ans start (.refl start)
  have hloop : ((MainLoop.loop lib ans).run { w with reads := 0, answered := 0 }).2 =
      ((connect ans).run start).2 := by
    rw [loop_run_connecting lib ans hstate, MainLoop.mqttConnecting_run (w := start) hstuck hbelow]
    beta_reduce
    rw [if_neg (by rw [hrefused]; simp)]
    rfl
  simp only [LoopWorld.iterate, hloop, hframed.restarting]
  exact if_neg (by simp [start, hrunning])

/-- An iteration that connects enters STATE_MQTT_CONNECTED with the session of `connect`. -/
private theorem iterate_connected (hbatches : ans.diagnosticBatches = 0)
    (hup : ((connect ans).run { w with reads := 1, answered := 0 }).1 = true) :
    (w.iterate lib ans).main.deviceState = .mqttConnected ∧ (w.iterate lib ans).session =
      ((connect ans).run { w with reads := 1, answered := 0 }).2.session := by
  let start : LoopWorld := { w with reads := 1, answered := 0 }
  have hframed := connect_spec ans start (.refl start)
  have hloop : ((MainLoop.loop lib ans).run { w with reads := 0, answered := 0 }).2 =
      { ((connect ans).run start).2 with
        mqtt := { ((connect ans).run start).2.mqtt with commandCallback := true }
        main := ((connect ans).run start).2.main.enter .mqttConnected (ans.millis 0) } := by
    rw [loop_run_connecting lib ans hstate, MainLoop.mqttConnecting_run (w := start) hstuck hbelow]
    beta_reduce
    rw [if_pos hup, hbatches]
    rfl
  have hrun : start.restarting = false := hrunning
  simp only [LoopWorld.iterate, hloop, hframed.restarting, hrun]
  exact ⟨rfl, rfl⟩

end Connecting

/-- Such an iteration does leave the flag set over a session that is not subscribed, and
    another one may follow that enters STATE_MQTT_CONNECTED with it. -/
theorem LosesSubscription.reaches {w : LoopWorld} {ans : Answers} (h : w.LosesSubscription ans)
    (hinv : w.Inv) (lib : ArduinoJson) :
    ∃ ans', ¬ ((w.iterate lib ans).iterate lib ans').Listening := by
  let start : LoopWorld := { w with reads := 1, answered := 0 }
  have hserving : w.Serving := hinv.serving h.state
  have hsome : w.mqtt.modem.isSome := hserving.modem
  obtain ⟨hrefused, hstale, hstreak⟩ := h.leaves.connect_run hsome
  have hframed := connect_spec ans start (.refl start)
  have hlt : start.mqtt.mqttFailStreak < mqttFailsBeforePppRebuild := by
    refine UInt8.lt_of_le_of_ne hserving.streak fun heq => ?_
    have hbelow := h.below
    rw [heq] at hbelow
    exact absurd hbelow (by decide)
  rw [iterate_refused lib hinv.running h.state h.notStuck hlt hrefused]
  generalize ((connect ans).run start).2 = left at hstale hstreak hframed
  have hstate : left.main.deviceState = .mqttConnecting := hframed.main ▸ h.state
  have hbelow : left.mqtt.mqttFailStreak < mqttFailsBeforePppRebuild := hstreak ▸ h.below
  -- A modem that keeps the session is asked at once.
  let next : Answers := { ans with
    millis := fun _ => left.main.stateEntryTime
    drops := fun _ => false
    diagnosticBatches := 0 }
  let start' : LoopWorld := { left with reads := 1, answered := 0 }
  have hstale' : start'.Stale := hstale
  have hkept : next.drops start'.answered = false := rfl
  obtain ⟨hup, hsession⟩ := hstale'.connect_run (hframed.modem ▸ hsome) hkept
  have hstuck : ¬ next.millis 0 - left.main.stateEntryTime > mqttConnectingMaxMs := by
    simp [next]
  obtain ⟨hconnected, hkeeps⟩ := iterate_connected lib (hframed.restarting.trans hinv.running)
    hstate hstuck hbelow rfl hup
  exact ⟨next, fun hlistening => hlistening hconnected (hkeeps.trans hsession)⟩

/-- A state that is fresh is a listening one. -/
theorem Fresh.listening {w : LoopWorld} (h : w.Fresh) (hinv : w.Inv) : w.Listening := by
  intro hstate hunsubscribed
  cases hinv.phase with
  | mqttConnected hphase => exact h.not_stale hphase.streak ⟨hphase.connected, hunsubscribed⟩
  | modemInit hphase | pppConnecting hphase | pppUp hphase | mqttConnecting hphase =>
    exact absurd (hphase.state.symm.trans hstate) (by simp)

/-- Connected means listening, in every run that loses no subscription. -/
theorem listening_of_keeps_subscription (lib : ArduinoJson) (millis : UInt32)
    (session : MqttSession) (run : List Answers)
    (h : Trace.AllSteps (step lib) (fun w ans => ¬ w.LosesSubscription ans)
      (boot millis session []) run) :
    Trace.AllStates (step lib) Listening (boot millis session []) run := by
  have hfresh : Trace.AllStates (step lib) (fun w => w.Inv ∧ w.Fresh) (boot millis session []) run := by
    refine Trace.allStates_of_allSteps ?_ ⟨?_, fresh_of_flag rfl⟩ h
    · rintro w ans w' ⟨hinv, hw⟩ hkept hstep
      obtain rfl := Option.some.inj hstep
      exact ⟨hinv.iterate lib ans, hw.iterate hinv lib hkept⟩
    · exact boot_inv millis session fun c hc => absurd hc List.not_mem_nil
  exact hfresh.mono fun w hw => hw.2.listening hw.1

/-- The session drops after the last status message, before `isConnected` looks at it. -/
def lostUnseen : Answers := { willing 5400 with drops := (· == 5) }

/-- After the loss the next attempt subscribes. -/
def recovers : List Answers := startUp ++ [lostUnseen, willing 20000]

theorem recovers_listening :
    Trace.AllStates (step (.ofDocuments [])) Listening (boot 0 .down []) recovers ∧
      (Trace.exec (step (.ofDocuments [])) (boot 0 .down []) recovers).map
        (fun w => (w.main.deviceState, w.session)) = some (.mqttConnected, .subscribed) :=
  ⟨listening_of_keeps_subscription (.ofDocuments []) 0 .down recovers (by decide +kernel),
    by decide +kernel⟩

/-- After the loss the next attempt can neither subscribe nor disconnect, and the one after
    it takes the shortcut. -/
def losesSubscription : List Answers :=
  startUp ++
    [lostUnseen, { willing 20000 with mqttSubscribe := false, mqttDisconnect := false },
      willing 20100]

theorem connected_and_not_listening :
    ¬ Trace.AllStates (step (.ofDocuments [])) Listening (boot 0 .down []) losesSubscription := by
  intro h
  have hreached : (Trace.exec (step (.ofDocuments [])) (boot 0 .down []) losesSubscription).map
      (fun w => (w.main.deviceState, w.session)) = some (.mqttConnected, .unsubscribed) := by
    decide +kernel
  obtain ⟨w, hexec, hw⟩ := Option.map_eq_some_iff.mp hreached
  obtain ⟨hstate, hsession⟩ := Prod.mk.inj hw
  exact h.last hexec hstate hsession

end LoopWorld

end Firmware
