-- SUMMARY: The attempts of the MQTT manager to connect are spaced by the backoff in real time, except after an attempt at clock reading zero.
import ParkingGate.Firmware.LoopFrame

/-!
# Reconnecting

`connect` is called again and again, and may try only when the delay of the backoff has passed
since it last tried. The delay is doubled by every failure, up to a maximum, and goes back to
the base with a success. Everything else the main loop does, PPP rebuilds included, leaves the
backoff and the time of the last attempt alone.

`lastConnectAttempt` is the clock reading of the last attempt, and `0` stands for "none yet".
After an attempt whose reading was `0` the next one is not held back.
-/

namespace Firmware

open Config Hoare

namespace Backoff

/-- Below the maximum nothing overflows. -/
theorem increment_toNat {b : Backoff} (h : b.currentMs ≤ backoffMaxMs) :
    b.increment.currentMs.toNat = min (2 * b.currentMs.toNat) backoffMaxMs.toNat := by
  have hle : b.currentMs.toNat ≤ 60000 := UInt32.le_iff_toNat_le.mp h
  have hdouble : (b.currentMs * 2).toNat = 2 * b.currentMs.toNat := by
    rw [UInt32.toNat_mul]
    change b.currentMs.toNat * 2 % 2 ^ 32 = _
    omega
  unfold increment
  dsimp only
  split
  next hgt =>
    rw [gt_iff_lt, UInt32.lt_iff_toNat_lt, hdouble] at hgt
    exact (Nat.min_eq_right (Nat.le_of_lt hgt)).symm
  next hngt =>
    rw [gt_iff_lt, UInt32.lt_iff_toNat_lt, hdouble, Nat.not_lt] at hngt
    rw [hdouble, Nat.min_eq_left hngt]

end Backoff

namespace Reconnects

open MqttManager MainLoop

/-! ## Attempts -/

/-- A call of `connect` that got past the backoff test. -/
structure Attempt where
  time : Nat
  succeeded : Bool
  deriving DecidableEq, Repr

/-- The number of failed attempts since the last successful one. -/
def failures (attempts : List Attempt) : Nat :=
  (attempts.reverse.takeWhile fun a => !a.succeeded).length

/-- How long to wait after these attempts. -/
def wait (attempts : List Attempt) : Nat :=
  min (backoffBaseMs.toNat * 2 ^ failures attempts) backoffMaxMs.toNat

theorem failures_snoc (attempts : List Attempt) (a : Attempt) :
    failures (attempts ++ [a]) = if a.succeeded then 0 else failures attempts + 1 := by
  cases h : a.succeeded with
  | true => simp [failures, h]
  | false => simp [failures, h]

/-- What the backoff keeps as its delay. -/
theorem wait_snoc {attempts : List Attempt} {b : Backoff} (h : b.currentMs.toNat = wait attempts)
    (a : Attempt) :
    (if a.succeeded then b.reset else b.increment).currentMs.toNat = wait (attempts ++ [a]) := by
  rw [wait, failures_snoc]
  cases a.succeeded with
  | true => rfl
  | false =>
    have hle : b.currentMs ≤ backoffMaxMs := by
      rw [UInt32.le_iff_toNat_le, h]
      exact Nat.min_le_right _ _
    simp only [Bool.false_eq_true, if_false]
    rw [Backoff.increment_toNat hle, h, wait, Nat.pow_succ, ← Nat.mul_assoc]
    omega

/-! ## What the loop does -/

/-- The backoff and the time of the last attempt. -/
def Timed (b : Backoff) (t : UInt32) (w : LoopWorld) : Prop :=
  w.mqtt.backoff = b ∧ w.mqtt.lastConnectAttempt = t

theorem Timed.self (w : LoopWorld) : Timed w.mqtt.backoff w.mqtt.lastConnectAttempt w := ⟨rfl, rfl⟩

theorem Timed.of_mqtt {b : Backoff} {t : UInt32} {w w' : LoopWorld} (h : Timed b t w)
    (hmqtt : w'.mqtt = w.mqtt) : Timed b t w' :=
  ⟨(congrArg MqttManager.backoff hmqtt).trans h.1,
    (congrArg MqttManager.lastConnectAttempt hmqtt).trans h.2⟩

section Frame

variable {b : Backoff} {t : UInt32} (ans : Answers)

theorem timed_ignoresLoop : IgnoresLoop (Timed b t) where
  outside := fun h hmqtt _ => h.of_mqtt hmqtt
  linked := fun _ _ h => h

theorem call_timed (method : ModemMethod) (this : Option Nat) :
    Keeps (Timed b t) (TinyGsm.call ans method this) := timed_ignoresLoop.call ans method this

theorem disconnect_timed : Keeps (Timed b t) (disconnect ans) := by
  refine Keeps.get fun w _ => Keeps.ite (fun _ => ?_) fun _ => Keeps.pure _
  have hcall : Keeps (Timed b t) (TinyGsm.mqttDisconnect ans w.mqtt.modem) :=
    Keeps.bind (call_timed ans _ _) fun _ => Keeps.modify fun _ h => h
  exact Keeps.bind hcall fun _ => Keeps.modify fun _ h => h

theorem publishStatus_timed : Keeps (Timed b t) (publishStatus ans) := by
  refine Keeps.bind (timed_ignoresLoop.calls fun _ => isConnected_keeps ans) fun _ =>
    Keeps.ite (fun _ => ?_) fun _ => Keeps.pure _
  refine Keeps.bind (timed_ignoresLoop.millis ans) fun now => Keeps.get fun w _ => ?_
  refine Keeps.ite (fun _ => Keeps.pure _) fun _ => Keeps.bind (Keeps.modify fun _ h => h) fun _ => ?_
  refine Keeps.bind (timed_ignoresLoop.calls fun _ => publish_keeps ans) fun _ => ?_
  exact Keeps.ite (fun _ => Keeps.pure _) fun _ => Keeps.modify fun _ h => h

theorem loop_timed (lib : ArduinoJson) : Keeps (Timed b t) (MqttManager.loop lib ans) := by
  refine Triple.get_eq fun w hw => Triple.ite (fun _ => Triple.pure fun _ h => h ▸ hw) fun hguard => ?_
  rw [Bool.or_eq_true, not_or] at hguard
  have hsome : w.mqtt.modem.isSome :=
    Option.isSome_iff_ne_none.mpr (mt Option.isNone_iff_eq_none.mpr hguard.2)
  have hhandle : Triple (fun s => s = w) (mqttHandle lib ans w.mqtt.modem) fun _ => Timed b t := by
    rintro s rfl
    exact hw.of_mqtt (mqttHandle_keeps ans lib hsome s (.refl _ s)).mqtt
  have hconnected : Keeps (Timed b t) (TinyGsm.mqttConnected ans w.mqtt.modem) :=
    Keeps.bind (call_timed ans _ _) fun _ => Keeps.get fun _ _ => Keeps.pure _
  refine Triple.bind hhandle fun _ => Keeps.bind hconnected fun _ => ?_
  exact Keeps.ite (fun _ => Keeps.pure _) fun _ => Keeps.modify fun _ h => h

theorem rebuildPpp_timed (now : UInt32) : Keeps (Timed b t) (rebuildPpp ans now) := by
  have hreset : Keeps (Timed b t) (modifyMqtt resetMqttFailStreak) := Keeps.modify fun _ h => h
  exact Keeps.bind (disconnect_timed ans) fun _ => Keeps.bind hreset fun _ =>
    Keeps.bind (timed_ignoresLoop.pppStopCalls ans) fun _ => timed_ignoresLoop.modifyMain _

theorem pollOob_timed (now : UInt32) : Keeps (Timed b t) (pollOob ans now) := by
  have hact : ∀ action, Keeps (Timed b t) (applyOobAction ans action now) := by
    intro action
    cases action with
    | reboot => exact Keeps.bind (Keeps.modify fun _ h => h) fun _ => Keeps.pure _
    | rebuildPpp => exact Keeps.bind (rebuildPpp_timed ans now) fun _ => Keeps.pure _
  have hpoll : Keeps (Timed b t) (pollOobCommandViaModem ans now) := by
    refine Keeps.get fun w _ => Keeps.ite (fun _ => Keeps.pure _) fun _ => ?_
    refine Keeps.bind (call_timed ans _ _) fun _ => Keeps.bind (call_timed ans _ _) fun _ => ?_
    refine Keeps.ite (fun _ => Keeps.bind (call_timed ans _ _) fun _ => Keeps.pure _) fun _ => ?_
    refine Keeps.bind (Keeps.forM fun method _ => call_timed ans method _) fun _ => ?_
    exact Keeps.ite (fun _ => hact .reboot) fun _ =>
      Keeps.ite (fun _ => hact .rebuildPpp) fun _ => Keeps.pure _
  refine Keeps.get fun w h => Keeps.ite (fun _ => ?_) fun _ => Keeps.pure _
  exact Keeps.bind (Triple.set fun _ _ => h) fun _ => hpoll

theorem mqttConnected_timed (now : UInt32) : Keeps (Timed b t) (mqttConnected ans now) := by
  refine Keeps.bind (pollOob_timed ans now) fun _ => Keeps.ite (fun _ => Keeps.pure _) fun _ => ?_
  refine Keeps.bind (publishStatus_timed ans) fun _ => ?_
  refine Keeps.bind (timed_ignoresLoop.calls fun _ => isConnected_keeps ans) fun _ => ?_
  exact Keeps.ite (fun _ => Keeps.pure _) fun _ => timed_ignoresLoop.modifyMain _

end Frame

/-! ## How `connect` ends -/

section Connect

variable {b : Backoff} {t : UInt32} (ans : Answers)

/-- An attempt moves the backoff by its outcome. -/
def Tried (b : Backoff) (t : UInt32) (succeeded : Bool) : LoopWorld → Prop :=
  Timed (if succeeded then b.reset else b.increment) t

theorem countFailure_tried : Triple (Timed b t) countFailure fun _ => Tried b t false :=
  Triple.modify fun _ h => ⟨congrArg Backoff.increment h.1, h.2⟩

theorem subscribeToCommands_tried (this : Option Nat) :
    Triple (Timed b t) (subscribeToCommands ans this) (Tried b t) := by
  have hsubscribe : Keeps (Timed b t) (TinyGsm.mqttSubscribe ans this) :=
    Keeps.bind (call_timed ans _ _) fun _ => Keeps.bind (Keeps.modify fun _ h => h) fun _ => Keeps.pure _
  have hdisconnect : Keeps (Timed b t) (TinyGsm.mqttDisconnect ans this) :=
    Keeps.bind (call_timed ans _ _) fun _ => Keeps.modify fun _ h => h
  refine Triple.bind (call_timed ans _ _) fun _ => ?_
  refine Triple.bind hsubscribe fun subscribed => Triple.ite (fun _ => ?_) fun _ => ?_
  · refine Triple.bind (Q := fun _ => Tried b t true) ?_ fun _ => Triple.pure fun _ h => h
    exact Triple.modify fun _ h => ⟨rfl, h.2⟩
  · refine Triple.bind hdisconnect fun _ => ?_
    exact Triple.bind countFailure_tried fun _ => Triple.pure fun _ h => h

theorem connectToBroker_tried (this : Option Nat) :
    Triple (Timed b t) (connectToBroker ans this) (Tried b t) := by
  have hconnect : Keeps (Timed b t) (TinyGsm.mqttConnect ans this) :=
    Keeps.bind (call_timed ans _ _) fun _ => Keeps.bind (Keeps.modify fun _ h => h) fun _ => Keeps.pure _
  have hconnected : Keeps (Timed b t) (TinyGsm.mqttConnected ans this) :=
    Keeps.bind (call_timed ans _ _) fun _ => Keeps.get fun _ _ => Keeps.pure _
  have hconfirmed : ∀ success, Keeps (Timed b t) (confirmed ans this success) :=
    fun success => Keeps.ite (fun _ => hconnected) fun _ => Keeps.pure false
  have hfailed : Triple (Timed b t) connectionFailed (Tried b t) :=
    Triple.bind (Keeps.modify fun _ h => h) fun _ =>
      Triple.bind countFailure_tried fun _ => Triple.pure fun _ h => h
  refine Triple.bind hconnect fun success => Triple.bind (hconfirmed success) fun up => ?_
  exact Triple.ite (fun _ => subscribeToCommands_tried ans this) fun _ => hfailed

theorem attemptConnection_tried : Triple (Timed b t) (attemptConnection ans) (Tried b t) := by
  refine Triple.get fun w h => Triple.ite (fun _ => ?_) fun _ => connectToBroker_tried ans _
  exact Triple.bind countFailure_tried fun _ => Triple.pure fun _ h => h

/-- The call of `connect` finds the session of an earlier call still up. -/
def findsSession (w : LoopWorld) : Bool := ((alreadyConnected ans).run w).1

/-- The call of `connect` gets past the backoff test. -/
def tries (w : LoopWorld) : Bool := !findsSession ans w && !w.mqtt.shouldWait (ans.millis w.reads)

/-- The world in which `connect` makes the backoff test. -/
def beforeTest (w : LoopWorld) : LoopWorld :=
  ((alreadyConnected ans).run { w with reads := w.reads + 1 }).2

theorem beforeTest_mqtt (w : LoopWorld) : (beforeTest ans w).mqtt = w.mqtt := by
  rw [beforeTest, alreadyConnected_run]
  split <;> rfl

theorem connect_run (w : LoopWorld) :
    (connect ans).run w =
      if findsSession ans w then (true, beforeTest ans w)
      else if w.mqtt.shouldWait (ans.millis w.reads) then (false, beforeTest ans w)
      else (attemptConnection ans).run
        { beforeTest ans w with mqtt := { w.mqtt with lastConnectAttempt := ans.millis w.reads } } := by
  have hfinds : ((alreadyConnected ans).run { w with reads := w.reads + 1 }).1 = findsSession ans w := by
    rw [findsSession, alreadyConnected_run, alreadyConnected_run]
    simp only [apply_ite Prod.fst]
    rfl
  have hrun : (connect ans).run w =
      (if ((alreadyConnected ans).run { w with reads := w.reads + 1 }).1 then return true
        else do
          let m := (← get).mqtt
          if m.shouldWait (ans.millis w.reads) then return false
          else
            modifyMqtt fun m => { m with lastConnectAttempt := ans.millis w.reads }
            attemptConnection ans : LoopM Bool).run (beforeTest ans w) := rfl
  rw [hrun, hfinds]
  split
  · rfl
  · have htest : ((do
          let m := (← get).mqtt
          if m.shouldWait (ans.millis w.reads) then return false
          else
            modifyMqtt fun m => { m with lastConnectAttempt := ans.millis w.reads }
            attemptConnection ans : LoopM Bool).run (beforeTest ans w)) =
        (if (beforeTest ans w).mqtt.shouldWait (ans.millis w.reads) then return false
          else do
            modifyMqtt fun m => { m with lastConnectAttempt := ans.millis w.reads }
            attemptConnection ans : LoopM Bool).run (beforeTest ans w) := rfl
    rw [htest, ← beforeTest_mqtt ans w]
    split <;> rfl

theorem connect_waits {w : LoopWorld} (h : tries ans w = false) (hw : Timed b t w) :
    Timed b t ((connect ans).run w).2 := by
  have hkept : Timed b t (beforeTest ans w) := hw.of_mqtt (beforeTest_mqtt ans w)
  rw [connect_run]
  split
  · exact hkept
  next hfinds =>
    have hwait : w.mqtt.shouldWait (ans.millis w.reads) = true := by simpa [tries, hfinds] using h
    rw [if_pos hwait]
    exact hkept

theorem connect_tries {w : LoopWorld} (h : tries ans w = true) (hw : Timed b t w) :
    Tried b (ans.millis w.reads) ((connect ans).run w).1 ((connect ans).run w).2 := by
  simp only [tries, Bool.and_eq_true, Bool.not_eq_true'] at h
  rw [connect_run, if_neg (Bool.eq_false_iff.mp h.1), if_neg (Bool.eq_false_iff.mp h.2)]
  exact attemptConnection_tried ans _ ⟨hw.1, rfl⟩

end Connect

/-! ## Runs -/

/-- What the main loop does besides calling `connect`. -/
inductive Activity where
  | modemInit | pppConnecting | pppUp | processMessages | rebuildPpp
  /-- STATE_MQTT_CONNECTING after a call that returned `true`. -/
  | uploadDiagnostics
  | mqttConnected
  deriving DecidableEq, Repr

def Activity.run (lib : ArduinoJson) (ans : Answers) (now : UInt32) : Activity → LoopM Unit
  | modemInit         => MainLoop.modemInit ans now
  | pppConnecting     => MainLoop.pppConnecting ans now
  | pppUp             => MainLoop.pppUp ans now
  | processMessages   => MainLoop.processMessages lib ans
  | rebuildPpp        => MainLoop.rebuildPpp ans now
  | uploadDiagnostics => do
    modifyMqtt fun m => { m with commandCallback := true }
    MainLoop.uploadDiagnostics ans ans.diagnosticBatches
    modifyMain fun s => s.enter .mqttConnected now
  | mqttConnected     => MainLoop.mqttConnected ans now

theorem Activity.run_timed {b : Backoff} {t : UInt32} (lib : ArduinoJson) (ans : Answers)
    (now : UInt32) (activity : Activity) : Keeps (Timed b t) (activity.run lib ans now) := by
  cases activity with
  | modemInit => exact timed_ignoresLoop.modemInit ans now
  | pppConnecting => exact timed_ignoresLoop.pppConnecting ans now
  | pppUp => exact timed_ignoresLoop.pppUp ans now
  | processMessages =>
    exact Keeps.get fun _ _ => Keeps.ite (fun _ => loop_timed ans lib) fun _ => Keeps.pure _
  | rebuildPpp => exact rebuildPpp_timed ans now
  | uploadDiagnostics =>
    refine Keeps.bind (Keeps.modify fun _ h => h) fun _ => ?_
    exact Keeps.bind (timed_ignoresLoop.uploadDiagnostics ans _) fun _ => timed_ignoresLoop.modifyMain _
  | mqttConnected => exact mqttConnected_timed ans now

/-- `elapsed` is the real time since the event before. -/
inductive Event where
  | connect (elapsed : Nat) (ans : Answers)
  | other (elapsed : Nat) (ans : Answers) (now : UInt32) (activity : Activity)

/-- The device with its real time, and the attempts so far. -/
structure Run where
  world : LoopWorld
  clock : Nat
  attempts : List Attempt

/-- The answers at this real time. -/
def answersAt (ans : Answers) (clock : Nat) : Answers :=
  { ans with millis := fun _ => Clock32.reading clock }

def start (bootedAt : Nat) (session : MqttSession) : Run where
  world := LoopWorld.boot (Clock32.reading bootedAt) session []
  clock := bootedAt
  attempts := []

def step (lib : ArduinoJson) (s : Run) : Event → Option Run
  | .connect elapsed ans =>
    let clock := s.clock + elapsed
    let ans := answersAt ans clock
    let result := (MqttManager.connect ans).run s.world
    some {
      world := result.2
      clock
      attempts := if tries ans s.world then s.attempts ++ [⟨clock, result.1⟩] else s.attempts }
  | .other elapsed ans now activity =>
    some { s with
      world := ((activity.run lib ans now).run s.world).2
      clock := s.clock + elapsed }

/-! ## Spacing -/

/-- Every attempt comes at least the wait after the one before. -/
def AttemptsSpaced (s : Run) : Prop :=
  ∀ i a b, s.attempts[i]? = some a → s.attempts[i + 1]? = some b →
    a.time + wait (s.attempts.take (i + 1)) ≤ b.time

/-- A call of `connect` that finds no session comes too early, and `millis()` read `0` at the last
    attempt. -/
def EarlyAfterZeroReading (s : Run) : Event → Prop
  | .connect elapsed ans => findsSession ans s.world = false ∧
    ∃ last, s.attempts.getLast? = some last ∧ Clock32.reading last.time = 0 ∧
      s.clock + elapsed < last.time + wait s.attempts
  | .other ..            => False

/-- The manager knows the wait and the reading at the last attempt. -/
structure BackoffInv (s : Run) : Prop where
  spaced : AttemptsSpaced s
  past : ∀ a ∈ s.attempts, a.time ≤ s.clock
  delay : s.world.mqtt.backoff.currentMs.toNat = wait s.attempts
  last : s.world.mqtt.lastConnectAttempt =
    match s.attempts.getLast? with
    | none      => 0
    | some last => Clock32.reading last.time

theorem AttemptsSpaced.snoc {w w' : LoopWorld} {clock clock' : Nat} {attempts : List Attempt}
    (h : AttemptsSpaced ⟨w, clock, attempts⟩) {b : Attempt}
    (hlast : ∀ last, attempts.getLast? = some last → last.time + wait attempts ≤ b.time) :
    AttemptsSpaced ⟨w', clock', attempts ++ [b]⟩ := by
  intro i a a' ha ha'
  simp only at ha ha' ⊢
  have hi : i + 1 < attempts.length + 1 := by
    have := (List.getElem?_eq_some_iff.mp ha').1
    simpa using this
  rw [List.getElem?_append_left (by omega)] at ha
  rw [List.take_append_of_le_length (by omega)]
  by_cases hend : i + 1 < attempts.length
  · rw [List.getElem?_append_left hend] at ha'
    exact h i a a' ha ha'
  · have hlength : attempts.length = i + 1 := by omega
    rw [← hlength, List.getElem?_concat_length, Option.some.injEq] at ha'
    rw [← hlength, List.take_length]
    refine ha' ▸ hlast a ?_
    rw [List.getLast?_eq_getElem?, hlength, Nat.add_sub_cancel, ha]

/-- The last two attempts of a spaced run. -/
theorem AttemptsSpaced.last {w : LoopWorld} {clock : Nat} {attempts : List Attempt} {a b : Attempt}
    (h : AttemptsSpaced ⟨w, clock, attempts ++ [b]⟩) (ha : attempts.getLast? = some a) :
    a.time + wait attempts ≤ b.time := by
  have hne : attempts ≠ [] := fun hnil => by simp [hnil] at ha
  have hlength : attempts.length = attempts.length - 1 + 1 :=
    (Nat.succ_pred_eq_of_pos (List.length_pos_iff.mpr hne)).symm
  have hspaced := h (attempts.length - 1) a b
  simp only [← hlength, List.getElem?_concat_length, List.take_left', forall_const] at hspaced
  apply hspaced
  rw [List.getElem?_append_left (by omega), ← List.getLast?_eq_getElem?, ha]

namespace BackoffInv

theorem start (bootedAt : Nat) (session : MqttSession) : BackoffInv (start bootedAt session) where
  spaced := fun _ _ _ ha _ => nomatch ha
  past := fun _ ha => nomatch ha
  delay := rfl
  last := rfl

/-- Nothing but an attempt matters to it. -/
theorem of_timed {s : Run} (h : BackoffInv s) {w : LoopWorld} {clock : Nat}
    (hw : Timed s.world.mqtt.backoff s.world.mqtt.lastConnectAttempt w) (hclock : s.clock ≤ clock) :
    BackoffInv { s with world := w, clock } where
  spaced := h.spaced
  past := fun a ha => Nat.le_trans (h.past a ha) hclock
  delay := by rw [hw.1]; exact h.delay
  last := hw.2.trans h.last

/-- The backoff test against the last attempt, in real time. -/
theorem wait_elapsed {s : Run} (h : BackoffInv s) {clock : Nat} (hclock : s.clock ≤ clock)
    (htest : s.world.mqtt.shouldWait (Clock32.reading clock) = false) {last : Attempt}
    (hlast : s.attempts.getLast? = some last) (hne : Clock32.reading last.time ≠ 0) :
    last.time + wait s.attempts ≤ clock := by
  have hreading : s.world.mqtt.lastConnectAttempt = Clock32.reading last.time := by
    simpa [hlast] using h.last
  have hle : last.time ≤ clock := Nat.le_trans (h.past last (List.mem_of_getLast? hlast)) hclock
  have hpos : 0 < Clock32.reading last.time := UInt32.pos_iff_ne_zero.mpr hne
  simp only [MqttManager.shouldWait, hreading, gt_iff_lt, hpos, decide_true, Bool.true_and,
    decide_eq_false_iff_not, UInt32.not_lt, UInt32.le_iff_toNat_le, Backoff.getNextDelay,
    h.delay] at htest
  have hsub := Clock32.toNat_sub_reading_le hle
  omega

/-- A new attempt, not too early. -/
theorem snoc {s : Run} (h : BackoffInv s) {w : LoopWorld} {b : Attempt} (hclock : s.clock ≤ b.time)
    (hw : Tried s.world.mqtt.backoff (Clock32.reading b.time) b.succeeded w)
    (hlast : ∀ last, s.attempts.getLast? = some last → last.time + wait s.attempts ≤ b.time) :
    BackoffInv ⟨w, b.time, s.attempts ++ [b]⟩ where
  spaced := AttemptsSpaced.snoc h.spaced hlast
  past := by
    intro a ha
    rcases List.mem_append.mp ha with ha | ha
    · exact Nat.le_trans (h.past a ha) hclock
    · rw [List.mem_singleton.mp ha]
  delay := by
    rw [hw.1]
    exact wait_snoc h.delay b
  last := by simpa using hw.2

theorem step {lib : ArduinoJson} {s s' : Run} {e : Event} (h : BackoffInv s)
    (hC : ¬ EarlyAfterZeroReading s e) (hstep : Reconnects.step lib s e = some s') : BackoffInv s' := by
  cases e with
  | other elapsed ans now activity =>
    obtain rfl := Option.some.inj hstep
    exact h.of_timed (activity.run_timed lib ans now _ (.self _)) (Nat.le_add_right _ _)
  | connect elapsed ans =>
    obtain rfl := Option.some.inj hstep
    have hle : s.clock ≤ s.clock + elapsed := Nat.le_add_right _ _
    cases htries : tries (answersAt ans (s.clock + elapsed)) s.world with
    | false =>
      simp only [Bool.false_eq_true, if_false]
      exact h.of_timed (connect_waits _ htries (.self _)) hle
    | true =>
      simp only [if_true]
      refine h.snoc (b := ⟨s.clock + elapsed, _⟩) hle (connect_tries _ htries (.self _)) ?_
      simp only [tries, Bool.and_eq_true, Bool.not_eq_true'] at htries
      intro last hlast
      by_cases hzero : Clock32.reading last.time = 0
      · by_contra hearly
        exact hC ⟨htries.1, last, hlast, hzero, Nat.lt_of_not_le hearly⟩
      · exact h.wait_elapsed hle htries.2 hlast hzero

/-- After an attempt at reading `0` the test is skipped. -/
theorem breaks {lib : ArduinoJson} {s s' : Run} {e : Event} (h : BackoffInv s)
    (hbad : EarlyAfterZeroReading s e) (hstep : Reconnects.step lib s e = some s') :
    ¬ AttemptsSpaced s' := by
  cases e with
  | other => exact hbad.elim
  | connect elapsed ans =>
    obtain ⟨hsession, last, hlast, hzero, hearly⟩ := hbad
    obtain rfl := Option.some.inj hstep
    have hreading : s.world.mqtt.lastConnectAttempt = 0 := by simpa [hlast, hzero] using h.last
    have htries : tries (answersAt ans (s.clock + elapsed)) s.world = true := by
      simp only [tries, Bool.and_eq_true, Bool.not_eq_true']
      exact ⟨hsession, by simp [MqttManager.shouldWait, hreading]⟩
    intro hspaced
    simp only [htries, if_true] at hspaced
    exact absurd (hspaced.last hlast) (Nat.not_le_of_lt hearly)

end BackoffInv

/-- The attempts of a run are spaced by the backoff exactly when `connect` is not called too early
    after an attempt at clock reading `0`. -/
theorem attempts_spaced_iff (lib : ArduinoJson) (bootedAt : Nat) (session : MqttSession)
    (events : List Event) :
    Trace.AllStates (step lib) AttemptsSpaced (start bootedAt session) events ↔
      Trace.AllSteps (step lib) (fun s e => ¬ EarlyAfterZeroReading s e) (start bootedAt session)
        events :=
  Trace.allStates_iff_allSteps (J := BackoffInv) (fun _ h => h.spaced)
    (fun _ _ _ h hC hstep => h.step hC hstep)
    (fun _ _ _ h hC hstep => h.breaks (not_not.mp hC) hstep)
    (BackoffInv.start bootedAt session)

/-- The network is there, and the broker does not answer. -/
def unanswered (t : UInt32) : Answers where
  millis := fun _ => t
  drops := fun _ => false
  modemInit := true
  pppStart := t
  pppWait := ⟨t, .okHome, true, true, "10.0.0.1"⟩
  mqttConnect := (false, .kept)
  mqttSubscribe := false
  mqttDisconnect := true
  mqttPublish := fun _ => false
  mqttHandle := []
  httpsSetUrl := true
  httpsGet := 204
  diagnosticBatches := 0
  bootMillis := 0

/-- The manager is linked to the modem. The first attempt fails when the clock reads `0` after a
    full turn, and the next call comes a millisecond later. -/
def turnOfClock : List Event :=
  [.other 1000 (unanswered 1000) 1000 .pppConnecting, .other 10 (unanswered 1010) 1010 .pppUp,
    .other 1100 (unanswered 2110) 2110 .pppUp, .connect (2 ^ 32 - 2110) (unanswered 0),
    .connect 1 (unanswered 1)]

/-- Both calls try. -/
theorem attempts_not_spaced_at_turn :
    ¬ Trace.AllStates (step (.ofDocuments [])) AttemptsSpaced (start 0 .down) turnOfClock := by
  intro h
  have hrun : (Trace.exec (step (.ofDocuments [])) (start 0 .down) turnOfClock).map
      (fun s => (s.attempts, s.world.mqtt.modem.isSome)) =
        some ([⟨2 ^ 32, false⟩, ⟨2 ^ 32 + 1, false⟩], true) := by
    decide +kernel
  obtain ⟨s, hexec, hs⟩ := Option.map_eq_some_iff.mp hrun
  have hattempts := (Prod.mk.inj hs).1
  have hspaced := h.last hexec 0 ⟨2 ^ 32, false⟩ ⟨2 ^ 32 + 1, false⟩
  rw [hattempts] at hspaced
  exact absurd (hspaced rfl rfl) (by decide)

end Reconnects

end Firmware
