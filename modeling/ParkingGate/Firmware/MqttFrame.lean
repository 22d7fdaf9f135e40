-- SUMMARY: What the MQTT manager leaves alone: a frame for the calls it makes, a frame for its methods between two connection attempts, and how `connect` ends.
import ParkingGate.Firmware.MqttManager

/-!
# The frame of the MQTT manager

Most methods only make calls on the instance their pointer names, and these can lose the
session: `Calls` says this once, and every such method keeps it. The others also lower the
`connected` flag. `connect` is the exception: it moves the failure streak, and how it ends
is a statement of its own.
-/

namespace Firmware

open Config Hoare

/-! ## Sound calls -/

/-- A call on the instance that `PppManager` owns, with the failure streak within its bound,
    and below it when the broker is to be connected. -/
structure ModemCall.Sound (c : ModemCall) : Prop where
  current : c.through = c.owned
  notNull : c.through.isSome
  streak : c.mqttFailStreak ≤ mqttFailsBeforePppRebuild
  attempt : c.method = .mqttConnect → c.mqttFailStreak < mqttFailsBeforePppRebuild

namespace LoopWorld

def CallsSound (w : LoopWorld) : Prop := ∀ c ∈ w.calls, c.Sound

/-- The connection attempts so far. -/
def attempts (w : LoopWorld) : List ModemCall := w.calls.filter (·.method = .mqttConnect)

theorem CallsSound.called {w : LoopWorld} (h : w.CallsSound) {ans : Answers}
    {method : ModemMethod} {this : Option Nat} (hthis : this = w.main.ppp.tinyGsmModem)
    (hsome : this.isSome) (hstreak : w.mqtt.mqttFailStreak ≤ mqttFailsBeforePppRebuild)
    (hattempt : method = .mqttConnect → w.mqtt.mqttFailStreak < mqttFailsBeforePppRebuild) :
    (w.called ans method this).CallsSound := by
  intro c hc
  rcases List.mem_append.mp hc with hc | hc
  · exact h c hc
  · obtain rfl := List.mem_singleton.mp hc
    exact ⟨hthis, hsome, hstreak, hattempt⟩

/-- The pointer of the MQTT manager is the instance that `PppManager` owns. -/
def Linked (w : LoopWorld) : Prop := w.mqtt.modem = w.main.ppp.tinyGsmModem

/-! ## Frames -/

/-- What is the same throughout the MQTT states. -/
structure Framed (w₀ w : LoopWorld) : Prop where
  main : w.main = w₀.main
  mqttSetup : w.mqttSetup = w₀.mqttSetup
  mqttInitialized : w.mqttInitialized = w₀.mqttInitialized
  restarting : w.restarting = w₀.restarting
  modem : w.mqtt.modem = w₀.mqtt.modem

/-- Since `w₀` there were calls through the pointer `this`, and no connection attempt. -/
structure Calls (this : Option Nat) (w₀ w : LoopWorld) : Prop where
  main : w.main = w₀.main
  mqttSetup : w.mqttSetup = w₀.mqttSetup
  mqttInitialized : w.mqttInitialized = w₀.mqttInitialized
  restarting : w.restarting = w₀.restarting
  mqtt : w.mqtt = w₀.mqtt
  session : w.session = w₀.session ∨ w.session = .down
  attempts : w.attempts = w₀.attempts
  calls : this = w₀.main.ppp.tinyGsmModem →
    w₀.mqtt.mqttFailStreak ≤ mqttFailsBeforePppRebuild → w₀.CallsSound → w.CallsSound

theorem Calls.refl (this : Option Nat) (w : LoopWorld) : Calls this w w :=
  ⟨rfl, rfl, rfl, rfl, rfl, .inl rfl, rfl, fun _ _ h => h⟩

theorem Calls.framed {this : Option Nat} {w₀ w : LoopWorld} (h : Calls this w₀ w) : Framed w₀ w :=
  ⟨h.main, h.mqttSetup, h.mqttInitialized, h.restarting, congrArg MqttManager.modem h.mqtt⟩

theorem Calls.called {this : Option Nat} {w₀ w : LoopWorld} (h : Calls this w₀ w) (ans : Answers)
    {method : ModemMethod} (hsome : this.isSome) (hmethod : method ≠ .mqttConnect) :
    Calls this w₀ (w.called ans method this) := by
  refine ⟨h.main, h.mqttSetup, h.mqttInitialized, h.restarting, h.mqtt, ?_, ?_, ?_⟩
  · simp only [LoopWorld.called]
    split
    · exact .inr rfl
    · exact h.session
  · rw [← h.attempts]
    simp [LoopWorld.attempts, LoopWorld.called, hmethod]
  · intro hthis hstreak hsound
    apply (h.calls hthis hstreak hsound).called
    · rw [hthis, h.main]
    · exact hsome
    · rw [h.mqtt]
      exact hstreak
    · exact fun hconnect => absurd hconnect hmethod

/-- What the MQTT manager can have changed since `w₀` without attempting to connect. -/
structure Undisturbed (w₀ w : LoopWorld) : Prop extends Framed w₀ w where
  streak : w.mqtt.mqttFailStreak = w₀.mqtt.mqttFailStreak
  connected : w.mqtt.connected = true → w₀.mqtt.connected = true
  session : w.session = w₀.session ∨ w.session = .down
  attempts : w.attempts = w₀.attempts
  calls : w₀.Linked → w₀.mqtt.mqttFailStreak ≤ mqttFailsBeforePppRebuild → w₀.CallsSound →
    w.CallsSound

theorem Undisturbed.refl (w : LoopWorld) : Undisturbed w w :=
  ⟨⟨rfl, rfl, rfl, rfl, rfl⟩, rfl, id, .inl rfl, rfl, fun _ _ h => h⟩

theorem Undisturbed.linked {w₀ w : LoopWorld} (h : Undisturbed w₀ w) (hlinked : w₀.Linked) :
    w.Linked := by
  rw [Linked, h.modem, h.main]
  exact hlinked

theorem Undisturbed.then_calls {w₀ w w' : LoopWorld} (h : Undisturbed w₀ w)
    (h' : Calls w.mqtt.modem w w') : Undisturbed w₀ w' where
  main := h'.main.trans h.main
  mqttSetup := h'.mqttSetup.trans h.mqttSetup
  mqttInitialized := h'.mqttInitialized.trans h.mqttInitialized
  restarting := h'.restarting.trans h.restarting
  modem := h'.framed.modem.trans h.modem
  streak := h'.mqtt ▸ h.streak
  connected := h'.mqtt ▸ h.connected
  session := by
    rcases h'.session with heq | hdown
    · exact heq ▸ h.session
    · exact .inr hdown
  attempts := h'.attempts.trans h.attempts
  calls := fun hlinked hstreak hsound =>
    h'.calls (h.linked hlinked) (h.streak ▸ hstreak) (h.calls hlinked hstreak hsound)

/-- A change of the manager that keeps the pointer and the streak and does not raise the
    flag. -/
theorem Undisturbed.modifyMqtt {w₀ w : LoopWorld} (h : Undisturbed w₀ w) {m : MqttManager}
    (hmodem : m.modem = w.mqtt.modem) (hstreak : m.mqttFailStreak = w.mqtt.mqttFailStreak)
    (hconnected : m.connected = true → w.mqtt.connected = true) :
    Undisturbed w₀ { w with mqtt := m } where
  toFramed := ⟨h.main, h.mqttSetup, h.mqttInitialized, h.restarting, hmodem.trans h.modem⟩
  streak := hstreak.trans h.streak
  connected := fun hm => h.connected (hconnected hm)
  session := h.session
  attempts := h.attempts
  calls := h.calls

/-- A computation that only makes calls disturbs nothing else. -/
theorem undisturbed_of_calls {α : Type} {w₀ : LoopWorld} {x : LoopM α}
    (h : ∀ w, Keeps (Calls w.mqtt.modem w) x) : Keeps (Undisturbed w₀) x :=
  fun w hw => hw.then_calls (h w w (.refl _ w))

/-- The same through a given pointer, if it is that of the manager. -/
theorem undisturbed_of_calls_through {α : Type} {w₀ : LoopWorld} {this : Option Nat}
    {x : LoopM α} (hthis : this = w₀.mqtt.modem) (h : ∀ w, Keeps (Calls this w) x) :
    Keeps (Undisturbed w₀) x := by
  intro w hw
  have hpointer : this = w.mqtt.modem := hthis.trans hw.modem.symm
  exact hw.then_calls (hpointer ▸ h w w (.refl this w))

end LoopWorld

open LoopWorld

variable {w₀ : LoopWorld} {this : Option Nat} (ans : Answers)

/-! ## Methods that only make calls -/

theorem millis_keeps : Keeps (Calls this w₀) (millis ans) :=
  fun _ h => ⟨h.main, h.mqttSetup, h.mqttInitialized, h.restarting, h.mqtt, h.session, h.attempts,
    h.calls⟩

namespace TinyGsm

theorem call_keeps {method : ModemMethod} (hsome : this.isSome) (hmethod : method ≠ .mqttConnect) :
    Keeps (Calls this w₀) (call ans method this) :=
  Keeps.modify fun _ h => h.called ans hsome hmethod

theorem mqttConnected_keeps (hsome : this.isSome) :
    Keeps (Calls this w₀) (mqttConnected ans this) :=
  Keeps.bind (call_keeps ans hsome (by simp)) fun _ => Keeps.get fun _ _ => Keeps.pure _

theorem mqttDisconnect_keeps (hsome : this.isSome) :
    Keeps (Calls this w₀) (mqttDisconnect ans this) := by
  refine Keeps.bind (call_keeps ans hsome (by simp)) fun _ => Keeps.modify fun w h => ?_
  refine ⟨h.main, h.mqttSetup, h.mqttInitialized, h.restarting, h.mqtt, ?_, h.attempts,
    h.calls⟩
  simp only
  split
  · exact .inr rfl
  · exact h.session

theorem mqttPublish_keeps (hsome : this.isSome) : Keeps (Calls this w₀) (mqttPublish ans this) :=
  Keeps.get fun _ _ => Keeps.bind (call_keeps ans hsome (by simp)) fun _ => Keeps.pure _

end TinyGsm

namespace MqttManager

theorem isConnected_keeps : Keeps (Calls w₀.mqtt.modem w₀) (isConnected ans) := by
  refine Keeps.get fun w h => Keeps.ite (fun _ => Keeps.pure _) fun _ => ?_
  rw [h.mqtt]
  exact Keeps.ite (TinyGsm.mqttConnected_keeps ans) fun _ => Keeps.pure _

/-- Only a set flag makes it report a connection. -/
theorem isConnected_spec :
    Triple (fun w => w = w₀) (isConnected ans) fun r w =>
      Calls w₀.mqtt.modem w₀ w ∧ (r = true → w.mqtt.connected = true) := by
  have hstart : Calls w₀.mqtt.modem w₀ w₀ := .refl _ w₀
  refine Triple.get_eq fun w hw => Triple.ite (fun _ => ?_) fun hflag => Triple.ite (fun hsome => ?_) ?_
  · exact Triple.pure fun s hs => ⟨(hs.trans hw) ▸ hstart, fun hfalse => nomatch hfalse⟩
  · rintro s rfl
    obtain rfl := hw
    have hcalls := TinyGsm.mqttConnected_keeps ans hsome s hstart
    have hconnected : s.mqtt.connected = true := by simpa using hflag
    exact ⟨hcalls, fun _ => (congrArg MqttManager.connected hcalls.mqtt).trans hconnected⟩
  · refine fun _ => Triple.pure fun s hs => ⟨(hs.trans hw) ▸ hstart, fun hset => hs ▸ hset⟩

theorem initializeModemMqtt_keeps : Keeps (Calls w₀.mqtt.modem w₀) (initializeModemMqtt ans) := by
  refine Keeps.get fun w h => ?_
  rw [h.mqtt]
  refine Keeps.ite (fun _ => Keeps.pure _) fun hguard => ?_
  have hsome : w₀.mqtt.modem.isSome :=
    Option.isSome_iff_ne_none.mpr (mt Option.isNone_iff_eq_none.mpr hguard)
  exact Keeps.bind (TinyGsm.call_keeps ans hsome (by simp)) fun _ => Keeps.pure _

theorem publish_keeps : Keeps (Calls w₀.mqtt.modem w₀) (publish ans) := by
  refine Keeps.bind (isConnected_keeps ans) fun connected => Keeps.get fun w h => ?_
  rw [h.mqtt]
  refine Keeps.ite (fun _ => Keeps.pure _) fun hguard => TinyGsm.mqttPublish_keeps ans ?_
  cases hmodem : w₀.mqtt.modem with
  | none => simp [hmodem] at hguard
  | some i => rfl

theorem perform_keeps (effect : Effect) : Keeps (Calls w₀.mqtt.modem w₀) (perform ans effect) := by
  cases effect with
  | pulse requestId nowMs => exact Keeps.pure _
  | publishAck json => exact Keeps.bind (publish_keeps ans) fun _ => Keeps.pure _

theorem staticMqttCallback_keeps (lib : ArduinoJson) (payload : CString) :
    Keeps (Calls w₀.mqtt.modem w₀) (staticMqttCallback lib ans payload) := by
  refine Keeps.get fun w _ => Keeps.ite (fun _ => ?_) fun _ => Keeps.pure _
  refine Keeps.bind (isConnected_keeps ans) fun connected => ?_
  refine Keeps.bind (millis_keeps ans) fun now => Keeps.get fun w _ => Keeps.bind ?_ fun _ => ?_
  · exact Keeps.modify fun _ h =>
      ⟨h.main, h.mqttSetup, h.mqttInitialized, h.restarting, h.mqtt, h.session, h.attempts,
    h.calls⟩
  · exact Keeps.forM fun effect _ => perform_keeps ans effect

theorem mqttHandle_keeps (lib : ArduinoJson) (hsome : w₀.mqtt.modem.isSome) :
    Keeps (Calls w₀.mqtt.modem w₀) (mqttHandle lib ans w₀.mqtt.modem) :=
  Keeps.bind (TinyGsm.call_keeps ans hsome (by simp)) fun _ =>
    Keeps.forM fun payload _ => staticMqttCallback_keeps ans lib payload

/-! ## Methods that lower the flag -/

theorem publishStatus_keeps : Keeps (Undisturbed w₀) (publishStatus ans) := by
  have hconnected : Keeps (Undisturbed w₀) (isConnected ans) :=
    undisturbed_of_calls fun _ => isConnected_keeps ans
  have hpublish : Keeps (Undisturbed w₀) (publish ans) :=
    undisturbed_of_calls fun _ => publish_keeps ans
  have hmillis : Keeps (Undisturbed w₀) (millis ans) := undisturbed_of_calls fun _ => millis_keeps ans
  refine Keeps.bind hconnected fun connected => Keeps.ite (fun _ => ?_) fun _ => Keeps.pure _
  refine Keeps.bind hmillis fun now => Keeps.get fun w _ => ?_
  refine Keeps.ite (fun _ => Keeps.pure _) fun _ => Keeps.bind ?_ fun _ => ?_
  · exact Keeps.modify fun w h => h.modifyMqtt rfl rfl id
  · refine Keeps.bind hpublish fun published => Keeps.ite (fun _ => Keeps.pure _) fun _ => ?_
    exact Keeps.modify fun w h => h.modifyMqtt rfl rfl fun hfalse => nomatch hfalse

theorem disconnect_keeps : Keeps (Undisturbed w₀) (disconnect ans) := by
  refine Keeps.get fun w hw => Keeps.ite (fun hguard => ?_) fun _ => Keeps.pure _
  have hsome : w.mqtt.modem.isSome := (Bool.and_eq_true_iff.mp hguard).2
  have hdisconnect : Keeps (Undisturbed w₀) (TinyGsm.mqttDisconnect ans w.mqtt.modem) :=
    undisturbed_of_calls_through hw.modem fun _ => TinyGsm.mqttDisconnect_keeps ans hsome
  refine Keeps.bind hdisconnect fun _ => Keeps.modify fun w h => ?_
  exact h.modifyMqtt rfl rfl fun hfalse => nomatch hfalse

/-- `loop` counts a failure when it finds the session gone, and lowers the flag. -/
theorem loop_calls (lib : ArduinoJson) :
    Triple (fun w => w = w₀) (loop lib ans) fun _ w =>
      Calls w₀.mqtt.modem w₀ w ∨ ∃ w₁, Calls w₀.mqtt.modem w₀ w₁ ∧
        w = { w₁ with mqtt := { w₁.mqtt.incrementFailStreak with connected := false } } := by
  have hstart : ∀ w, w = w₀ → Calls w₀.mqtt.modem w₀ w := by
    rintro w rfl
    exact .refl _ w
  refine Triple.get_eq fun w hw => Triple.ite (fun _ => ?_) fun hguard => ?_
  · exact Triple.pure fun s hs => .inl (hstart s (hs.trans hw))
  · obtain rfl := hw
    rw [Bool.or_eq_true, not_or] at hguard
    have hsome : w.mqtt.modem.isSome :=
      Option.isSome_iff_ne_none.mpr (mt Option.isNone_iff_eq_none.mpr hguard.2)
    have hhandle : Triple (fun s => s = w) (mqttHandle lib ans w.mqtt.modem) fun _ =>
        Calls w.mqtt.modem w :=
      (mqttHandle_keeps ans lib hsome).conseq hstart fun _ _ h => h
    have hconnected : Keeps (Calls w.mqtt.modem w) (TinyGsm.mqttConnected ans w.mqtt.modem) :=
      TinyGsm.mqttConnected_keeps ans hsome
    refine Triple.bind hhandle fun _ => Triple.bind hconnected fun up => Triple.ite ?_ ?_
    · exact fun _ => Triple.pure fun _ h => .inl h
    · exact fun _ => Triple.modify fun s h => .inr ⟨s, h, rfl⟩

theorem loop_spec (lib : ArduinoJson) :
    Triple (fun w => w = w₀) (loop lib ans) fun _ w =>
      Undisturbed w₀ w ∨ ∃ w₁, Undisturbed w₀ w₁ ∧
        w = { w₁ with mqtt := { w₁.mqtt.incrementFailStreak with connected := false } } := by
  refine (loop_calls ans lib).conseq (fun _ h => h) fun _ w h => ?_
  rcases h with hcalls | ⟨w₁, hcalls, hw⟩
  · exact .inl ((Undisturbed.refl w₀).then_calls hcalls)
  · exact .inr ⟨w₁, (Undisturbed.refl w₀).then_calls hcalls, hw⟩

/-! ## Connecting -/

/-- During `connect`, before the attempt is counted. -/
structure Trying (w₀ w : LoopWorld) : Prop extends Framed w₀ w where
  streak : w.mqtt.mqttFailStreak = w₀.mqtt.mqttFailStreak
  calls : w₀.Linked → w₀.mqtt.mqttFailStreak < mqttFailsBeforePppRebuild → w₀.CallsSound →
    w.CallsSound

/-- How `connect` leaves the world when it returns `r`. -/
structure Connects (w₀ : LoopWorld) (r : Bool) (w : LoopWorld) : Prop extends Framed w₀ w where
  calls : w₀.Linked → w₀.mqtt.mqttFailStreak < mqttFailsBeforePppRebuild → w₀.CallsSound →
    w.CallsSound
  success : r = true → w.mqtt.connected = true ∧
    (w.mqtt.mqttFailStreak = 0 ∨ w.mqtt.mqttFailStreak = w₀.mqtt.mqttFailStreak)
  failure : r = false → w.mqtt.mqttFailStreak = w₀.mqtt.mqttFailStreak ∨
    w.mqtt.mqttFailStreak = w₀.mqtt.mqttFailStreak + 1

/-- How an attempt leaves the world: besides, it starts the streak anew or counts a failure. -/
structure Tried (w₀ : LoopWorld) (r : Bool) (w : LoopWorld) : Prop extends Connects w₀ r w where
  counted : w.mqtt.mqttFailStreak = if r then 0 else w₀.mqtt.mqttFailStreak + 1

theorem Trying.of_undisturbed {w : LoopWorld} (h : Undisturbed w₀ w) : Trying w₀ w :=
  ⟨h.toFramed, h.streak, fun hlinked hstreak => h.calls hlinked (UInt8.le_of_lt hstreak)⟩

/-- Any call is sound during the attempt, the connection attempt included. -/
theorem Trying.called {w : LoopWorld} (h : Trying w₀ w) (method : ModemMethod)
    (hthis : this = w₀.mqtt.modem) (hsome : this.isSome) :
    Trying w₀ (w.called ans method this) := by
  refine ⟨⟨h.main, h.mqttSetup, h.mqttInitialized, h.restarting, h.modem⟩, h.streak, ?_⟩
  intro hlinked hstreak hsound
  have hlt : w.mqtt.mqttFailStreak < mqttFailsBeforePppRebuild := h.streak ▸ hstreak
  refine (h.calls hlinked hstreak hsound).called ?_ hsome (UInt8.le_of_lt hlt) fun _ => hlt
  rw [hthis, h.main]
  exact hlinked

theorem call_keeps_trying (method : ModemMethod) (hthis : this = w₀.mqtt.modem)
    (hsome : this.isSome) : Keeps (Trying w₀) (TinyGsm.call ans method this) :=
  Keeps.modify fun _ h => h.called ans method hthis hsome

/-- The session does not matter to `Trying`. -/
theorem modifySession_keeps_trying (f : LoopWorld → MqttSession) :
    Keeps (Trying w₀) (modify fun w => { w with session := f w } : LoopM PUnit) :=
  Keeps.modify fun _ h =>
    ⟨⟨h.main, h.mqttSetup, h.mqttInitialized, h.restarting, h.modem⟩, h.streak, h.calls⟩

theorem countFailure_spec : Triple (Trying w₀) countFailure fun _ => Tried w₀ false :=
  Triple.modify fun _ h =>
    ⟨⟨⟨h.main, h.mqttSetup, h.mqttInitialized, h.restarting, h.modem⟩, h.calls,
      (fun hfalse => nomatch hfalse), fun _ => .inr (congrArg (· + 1) h.streak)⟩,
      congrArg (· + 1) h.streak⟩

theorem subscribeToCommands_spec (hthis : this = w₀.mqtt.modem) (hsome : this.isSome) :
    Triple (Trying w₀) (subscribeToCommands ans this) (Tried w₀) := by
  have hsubscribe : Keeps (Trying w₀) (TinyGsm.mqttSubscribe ans this) :=
    Keeps.bind (call_keeps_trying ans .mqttSubscribe hthis hsome) fun _ =>
      Keeps.bind (modifySession_keeps_trying _) fun _ => Keeps.pure _
  have hdisconnect : Keeps (Trying w₀) (TinyGsm.mqttDisconnect ans this) :=
    Keeps.bind (call_keeps_trying ans .mqttDisconnect hthis hsome) fun _ =>
      modifySession_keeps_trying _
  refine Triple.bind (call_keeps_trying ans .mqttSetCallback hthis hsome) fun _ => ?_
  refine Triple.bind hsubscribe fun subscribed => Triple.ite (fun _ => ?_) fun _ => ?_
  · refine Triple.bind (Q := fun _ => Tried w₀ true) ?_ fun _ => Triple.pure fun _ h => h
    exact Triple.modify fun w h =>
      ⟨⟨⟨h.main, h.mqttSetup, h.mqttInitialized, h.restarting, h.modem⟩, h.calls,
        fun _ => ⟨rfl, .inl rfl⟩, fun hfalse => nomatch hfalse⟩, rfl⟩
  · refine Triple.bind hdisconnect fun _ => ?_
    exact Triple.bind countFailure_spec fun _ => Triple.pure fun _ h => h

theorem connectionFailed_spec : Triple (Trying w₀) connectionFailed (Tried w₀) := by
  have hflag : Keeps (Trying w₀) (modifyMqtt fun m => { m with connected := false }) :=
    Keeps.modify fun _ h =>
      ⟨⟨h.main, h.mqttSetup, h.mqttInitialized, h.restarting, h.modem⟩, h.streak, h.calls⟩
  exact Triple.bind hflag fun _ =>
    Triple.bind countFailure_spec fun _ => Triple.pure fun _ h => h

theorem connectToBroker_spec (hthis : this = w₀.mqtt.modem) (hsome : this.isSome) :
    Triple (Trying w₀) (connectToBroker ans this) (Tried w₀) := by
  have hconnect : Keeps (Trying w₀) (TinyGsm.mqttConnect ans this) :=
    Keeps.bind (call_keeps_trying ans .mqttConnect hthis hsome) fun _ =>
      Keeps.bind (modifySession_keeps_trying _) fun _ => Keeps.pure _
  have hconnected : Keeps (Trying w₀) (TinyGsm.mqttConnected ans this) :=
    Keeps.bind (call_keeps_trying ans .mqttConnected hthis hsome) fun _ =>
      Keeps.get fun _ _ => Keeps.pure _
  have hconfirmed : ∀ success, Keeps (Trying w₀) (confirmed ans this success) :=
    fun success => Keeps.ite (fun _ => hconnected) fun _ => Keeps.pure false
  refine Triple.bind hconnect fun success => Triple.bind (hconfirmed success) fun up => ?_
  exact Triple.ite (fun _ => subscribeToCommands_spec ans hthis hsome) fun _ =>
    connectionFailed_spec

theorem attemptConnection_spec : Triple (Trying w₀) (attemptConnection ans) (Tried w₀) := by
  refine Triple.get fun w h => Triple.ite (fun _ => ?_) fun hguard => ?_
  · exact Triple.bind countFailure_spec fun _ => Triple.pure fun _ h => h
  · have hsome : w.mqtt.modem.isSome :=
      Option.isSome_iff_ne_none.mpr (mt Option.isNone_iff_eq_none.mpr hguard)
    exact connectToBroker_spec ans h.modem hsome

/-- The shortcut looks at the flag and then, with one call, at the session. -/
theorem alreadyConnected_run (w : LoopWorld) :
    (alreadyConnected ans).run w =
      if w.mqtt.connected && w.mqtt.modem.isSome then
        ((w.called ans .mqttConnected w.mqtt.modem).session.isUp,
          w.called ans .mqttConnected w.mqtt.modem)
      else (false, w) := by
  have hrun : (alreadyConnected ans).run w =
      (if w.mqtt.connected && w.mqtt.modem.isSome then TinyGsm.mqttConnected ans w.mqtt.modem
        else return false : LoopM Bool).run w := rfl
  rw [hrun]
  split <;> rfl

theorem alreadyConnected_spec :
    Triple (Undisturbed w₀) (alreadyConnected ans) fun r w =>
      Undisturbed w₀ w ∧ (r = true → w.mqtt.connected = true) := by
  intro w h
  rw [alreadyConnected_run]
  split
  · rename_i hguard
    obtain ⟨hconnected, hsome⟩ := Bool.and_eq_true_iff.mp hguard
    have hcall : Calls w.mqtt.modem w (w.called ans .mqttConnected w.mqtt.modem) :=
      (Calls.refl _ w).called ans hsome (by simp)
    exact ⟨h.then_calls hcall, fun _ => hconnected⟩
  · exact ⟨h, fun hfalse => nomatch hfalse⟩

theorem connect_spec : Triple (Undisturbed w₀) (connect ans) (Connects w₀) := by
  have hmillis : Keeps (Undisturbed w₀) (millis ans) := undisturbed_of_calls fun _ => millis_keeps ans
  refine Triple.bind hmillis fun now => Triple.bind (alreadyConnected_spec ans) fun already => ?_
  refine Triple.ite (fun hup => ?_) fun _ => Triple.get fun w _ => Triple.ite (fun _ => ?_) ?_
  · refine Triple.pure fun w h => ⟨h.1.toFramed, (Trying.of_undisturbed h.1).calls, ?_, ?_⟩
    · exact fun _ => ⟨h.2 hup, .inr h.1.streak⟩
    · exact fun hfalse => nomatch hfalse
  · refine Triple.pure fun w h => ⟨h.1.toFramed, (Trying.of_undisturbed h.1).calls, ?_, ?_⟩
    · exact fun hfalse => nomatch hfalse
    · exact fun _ => .inl h.1.streak
  · intro _
    refine Triple.bind (Q := fun _ => Trying w₀) ?_ fun _ =>
      (attemptConnection_spec ans).conseq (fun _ h => h) fun _ _ h => h.toConnects
    exact Triple.modify fun w h => .of_undisturbed (h.1.modifyMqtt rfl rfl id)

end MqttManager

end Firmware
