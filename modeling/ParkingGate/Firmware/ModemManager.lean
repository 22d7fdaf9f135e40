-- SUMMARY: The modem manager (`ModemManager.cpp`) under the main loop: PPP is only ever started over a modem that has answered since it was last powered or reset.
import Mathlib.Data.List.Infix
import Mathlib.Data.Nat.Find
import ParkingGate.Base.CString
import ParkingGate.Base.Prompt
import ParkingGate.Firmware.Listening
import ParkingGate.Firmware.OobPoll

/-!
# The modem manager

`init()` takes one step of the initialisation at each call: it powers the modem, waits, and sends
the AT commands one after the other. The main loop calls it in STATE_MODEM_INIT, power cycles the
modem when it takes too long, and hard resets it when PPP keeps failing.

The answers of the modem come over a serial line, in pieces. The main loop's own model takes the
result of `init()` from its environment; here it is computed.
-/

namespace Firmware

open Config Hoare MainLoop OobPoll

/-! ## AT commands -/

namespace Serial

/-- `response.indexOf(text) >= 0`, which looks at the response up to its first NUL. -/
def indexOf (response : List UInt8) (text : String) : Bool :=
  ascii text <:+: (CString.ofBytes response).bytes

/-- How a response is judged after each byte. -/
def judge (expectedResponse : String) (response : List UInt8) : Option Bool :=
  if indexOf response expectedResponse then some true
  else if indexOf response "ERROR" then some false
  else none

/-- `waitForResponse`; `serial` is what each look at the line finds until the timeout. -/
def waitForResponse (expectedResponse : String) (serial : List (List UInt8)) : Bool :=
  (Prompt.await (judge expectedResponse) [] serial).getD false

/-- Some prefix of the bytes contains the text, and no shorter one contains `ERROR`. -/
def Accepts (expectedResponse : String) (received : List UInt8) : Prop :=
  ∃ n, n < received.length ∧ indexOf (received.take (n + 1)) expectedResponse = true ∧
    ∀ m < n, indexOf (received.take (m + 1)) "ERROR" = false

theorem judge_eq_true_iff {expectedResponse : String} {response : List UInt8} :
    judge expectedResponse response = some true ↔ indexOf response expectedResponse = true := by
  unfold judge
  split
  next h => simp [h]
  next h => split <;> simp [h]

theorem judge_eq_none_iff {expectedResponse : String} {response : List UInt8} :
    judge expectedResponse response = none ↔
      indexOf response expectedResponse = false ∧ indexOf response "ERROR" = false := by
  unfold judge
  split
  next h => simp [h]
  next h => split <;> simp_all

/-- The verdict depends on the bytes alone, not on when they come. -/
theorem waitForResponse_iff (expectedResponse : String) (serial : List (List UInt8)) :
    waitForResponse expectedResponse serial = true ↔ Accepts expectedResponse serial.flatten := by
  have hawait : waitForResponse expectedResponse serial = true ↔
      Prompt.read (judge expectedResponse) [] serial.flatten = .inl true := by
    rw [waitForResponse, Prompt.await_eq_read_flatten]
    rcases Prompt.read (judge expectedResponse) [] serial.flatten with verdict | seen <;> simp
  rw [hawait, Prompt.read_eq_inl_iff]
  simp only [List.nil_append]
  constructor
  · rintro ⟨n, hn, hverdict, hbefore⟩
    exact ⟨n, hn, judge_eq_true_iff.mp hverdict, fun m hm => (judge_eq_none_iff.mp (hbefore m hm)).2⟩
  · rintro ⟨n, hn, hexpected, hnoError⟩
    have hexists : ∃ k, indexOf (serial.flatten.take (k + 1)) expectedResponse = true := ⟨n, hexpected⟩
    have hle : Nat.find hexists ≤ n := Nat.find_min' hexists hexpected
    refine ⟨Nat.find hexists, hle.trans_lt hn, judge_eq_true_iff.mpr (Nat.find_spec hexists),
      fun m hm => judge_eq_none_iff.mpr ⟨?_, hnoError m (hm.trans_le hle)⟩⟩
    exact Bool.eq_false_iff.mpr (Nat.find_min hexists hm)

end Serial

/-! ## The manager -/

inductive AtCommand where
  | at | ate0 | ccid | creg | csq
  deriving DecidableEq, Repr

def AtCommand.text : AtCommand → String
  | .at   => "AT"
  | .ate0 => "ATE0"
  | .ccid => "AT+CCID"
  | .creg => "AT+CREG?"
  | .csq  => "AT+CSQ"

inductive InitState where
  | powerOn | waitPower | atHandshake | disableEcho | querySim | queryNetwork | queryRssi | complete
  deriving DecidableEq, Repr

/-- What is done to the modem, and what it is asked with the bytes that came back. -/
inductive ModemEvent where
  /-- The pins are driven through the power-up sequence of INIT_POWER_ON. -/
  | powerUp
  | command (cmd : AtCommand) (received : List UInt8)
  | powerCycle
  | hardReset
  /-- The ESP32 restarts, and with it the manager. -/
  | restart
  deriving DecidableEq, Repr

structure ModemManager where
  ready : Bool
  initStartTime : UInt32
  initState : InitState
  deriving Repr

namespace ModemManager

def create : ModemManager := ⟨false, 0, .powerOn⟩

/-- `powerCycle` and `hardReset`, as far as the manager goes. -/
def reset (m : ModemManager) : ModemManager :=
    { m with ready := false, initState := .powerOn, initStartTime := 0 }

def enter (m : ModemManager) (initState : InitState) : ModemManager := { m with initState := initState }

/-- One call of `init()`. -/
def init (m : ModemManager) (now : UInt32) (serial : List (List UInt8)) :
    Bool × ModemManager × List ModemEvent :=
  let ok := Serial.waitForResponse "OK" serial
  let asked := fun cmd => [ModemEvent.command cmd serial.flatten]
  match m.initState with
  | .powerOn      => (false, { m with initState := .waitPower, initStartTime := now }, [.powerUp])
  | .waitPower    =>
    if now - m.initStartTime > 5000 then
      (false, { m with initState := .atHandshake, initStartTime := now }, [])
    else (false, m, [])
  | .atHandshake  =>
    if ok then (false, m.enter .disableEcho, asked .at)
    else if now - m.initStartTime > atInitTimeoutMs then (false, m.enter .powerOn, asked .at)
    else (false, m, asked .at)
  | .disableEcho  => (false, m.enter (if ok then .querySim else .powerOn), asked .ate0)
  -- The queries may fail.
  | .querySim     => (false, m.enter .queryNetwork, asked .ccid)
  | .queryNetwork => (false, m.enter .queryRssi, asked .creg)
  | .queryRssi    => (false, m.enter .complete, asked .csq)
  | .complete     => (true, { m with ready := true }, [])

end ModemManager

/-! ## The modem under the main loop -/

structure ModemLoop where
  world : LoopWorld
  modem : ModemManager
  history : List ModemEvent

/-- The environment of one iteration: the reading of the clock in `init()` and what the serial line
    brings take the place of its result. -/
structure ModemAnswers where
  ans : Answers
  initMillis : UInt32
  serial : List (List UInt8)

namespace ModemLoop

def boot (millis : UInt32) (session : MqttSession) : ModemLoop :=
  ⟨LoopWorld.boot millis session [], ModemManager.create, [.restart]⟩

/-- The branch of STATE_MODEM_INIT that power cycles the modem. -/
def powerCycles (w : LoopWorld) (ans : Answers) (ok : Bool) : Bool :=
  !ok && (ans.millis 0 - w.main.stateEntryTime > atInitTimeoutMs && w.modemInitRetries <
    modemInitMaxRetries)

/-- The branch of STATE_PPP_CONNECTING that resets the modem. -/
def hardResets (w : LoopWorld) (ans : Answers) : Bool :=
  (w.main.pppConnecting ⟨ans.millis 0, ans.pppStart, ans.pppWait⟩).2.contains .hardReset

/-- One iteration of `loop()`, and `setup()` again if it restarts the device. -/
def iterate (lib : ArduinoJson) (s : ModemLoop) (a : ModemAnswers) : ModemLoop :=
  match s.world.main.deviceState with
  | .modemInit =>
    let result := s.modem.init a.initMillis a.serial
    let cycles := powerCycles s.world a.ans result.1
    { world := s.world.iterate lib { a.ans with modemInit := result.1 }
      modem := if cycles then result.2.1.reset else result.2.1
      history := s.history ++ result.2.2 ++ if cycles then [.powerCycle] else [] }
  | .pppConnecting =>
    let resets := hardResets s.world a.ans
    { world := s.world.iterate lib a.ans
      modem := if resets then s.modem.reset else s.modem
      history := s.history ++ if resets then [.hardReset] else [] }
  | .pppUp | .mqttConnecting | .mqttConnected =>
    let restarts := restarts lib s.world a.ans
    { world := s.world.iterate lib a.ans
      modem := if restarts then ModemManager.create else s.modem
      history := s.history ++ if restarts then [.restart] else [] }

def step (lib : ArduinoJson) (s : ModemLoop) (a : ModemAnswers) : Option ModemLoop :=
  some (s.iterate lib a)

end ModemLoop

/-! ## What has been answered -/

/-- The modem has accepted the command. -/
def Answered (cmd : AtCommand) (events : List ModemEvent) : Prop :=
  ∃ received, .command cmd received ∈ events ∧ Serial.Accepts "OK" received

/-- Since the modem was last powered up nothing but commands came, and they are in `P`. -/
def SincePowerUp (P : List ModemEvent → Prop) (history : List ModemEvent) : Prop :=
  ∃ before after, history = before ++ .powerUp :: after ∧
    (∀ e ∈ after, ∃ cmd received, e = .command cmd received) ∧ P after

/-- The modem has accepted the one command, and later the other. -/
def AnsweredBoth (cmd cmd' : AtCommand) (events : List ModemEvent) : Prop :=
  ∃ before after, events = before ++ after ∧ Answered cmd before ∧ Answered cmd' after

/-- The modem has been powered up, and has answered the handshake and then turned its echo off, since
    anything else was last done to it. -/
def Awake (history : List ModemEvent) : Prop := SincePowerUp (AnsweredBoth .at .ate0) history

/-- What is known in each state of the initialisation. -/
def Reached (history : List ModemEvent) : InitState → Prop
  | .powerOn                                         => True
  | .waitPower | .atHandshake                        => SincePowerUp (fun _ => True) history
  | .disableEcho                                     => SincePowerUp (Answered .at) history
  | .querySim | .queryNetwork | .queryRssi | .complete => Awake history

section History

variable {history : List ModemEvent} {P Q : List ModemEvent → Prop} {cmd cmd' : AtCommand}
  {received : List UInt8}

theorem Answered.append {events : List ModemEvent} (h : Answered cmd events) (rest : List ModemEvent) :
    Answered cmd (events ++ rest) :=
  h.imp fun _ hmem => ⟨List.mem_append_left rest hmem.1, hmem.2⟩

theorem answered_snoc (h : Serial.Accepts "OK" received) (events : List ModemEvent) :
    Answered cmd (events ++ [.command cmd received]) :=
  ⟨received, List.mem_append_right events (List.mem_singleton_self _), h⟩

theorem Answered.then {events : List ModemEvent} (h : Answered cmd events)
    (hreceived : Serial.Accepts "OK" received) :
    AnsweredBoth cmd cmd' (events ++ [.command cmd' received]) :=
  ⟨events, [.command cmd' received], rfl, h, received, List.mem_singleton_self _, hreceived⟩

theorem AnsweredBoth.append {events : List ModemEvent} (h : AnsweredBoth cmd cmd' events)
    (rest : List ModemEvent) : AnsweredBoth cmd cmd' (events ++ rest) := by
  obtain ⟨before, after, rfl, hbefore, hafter⟩ := h
  exact ⟨before, after ++ rest, List.append_assoc _ _ _, hbefore, hafter.append rest⟩

theorem sincePowerUp_powerUp : SincePowerUp (fun _ => True) (history ++ [.powerUp]) :=
  ⟨history, [], rfl, by simp, trivial⟩

theorem SincePowerUp.command (h : SincePowerUp P history) (cmd : AtCommand) (received : List UInt8)
    (hP : ∀ events, P events → Q (events ++ [.command cmd received])) :
    SincePowerUp Q (history ++ [.command cmd received]) := by
  obtain ⟨before, after, rfl, hcommands, hafter⟩ := h
  refine ⟨before, after ++ [.command cmd received], by simp, fun e he => ?_, hP after hafter⟩
  rcases List.mem_append.mp he with he | he
  · exact hcommands e he
  · exact ⟨cmd, received, List.mem_singleton.mp he⟩

theorem Awake.command (h : Awake history) (cmd : AtCommand) (received : List UInt8) :
    Awake (history ++ [.command cmd received]) :=
  SincePowerUp.command h cmd received fun _ hevents => hevents.append _

end History

/-- One call of `init()` keeps what its state stands for, and reports success in the last one. -/
theorem ModemManager.init_reached {m : ModemManager} {history : List ModemEvent} (now : UInt32)
    (serial : List (List UInt8)) (h : Reached history m.initState) :
    Reached (history ++ (m.init now serial).2.2) (m.init now serial).2.1.initState ∧
      ((m.init now serial).1 = true → (m.init now serial).2.1.initState = .complete) := by
  unfold init
  cases hstate : m.initState with
  | powerOn => exact ⟨sincePowerUp_powerUp, fun hfalse => absurd hfalse Bool.false_ne_true⟩
  | waitPower =>
    rw [hstate] at h
    dsimp only
    split
    · exact ⟨by simpa [Reached] using h, fun hfalse => absurd hfalse Bool.false_ne_true⟩
    · exact ⟨by simpa [hstate] using h, fun hfalse => absurd hfalse Bool.false_ne_true⟩
  | atHandshake =>
    rw [hstate] at h
    have hasked : SincePowerUp (fun _ => True) (history ++ [.command .at serial.flatten]) :=
      SincePowerUp.command h .at serial.flatten fun _ _ => trivial
    dsimp only
    split
    next hok =>
      refine ⟨?_, fun hfalse => absurd hfalse Bool.false_ne_true⟩
      have haccepts := (Serial.waitForResponse_iff "OK" serial).mp hok
      exact SincePowerUp.command h .at serial.flatten fun events _ => answered_snoc haccepts events
    next =>
      split
      · exact ⟨trivial, fun hfalse => absurd hfalse Bool.false_ne_true⟩
      · refine ⟨?_, fun hfalse => absurd hfalse Bool.false_ne_true⟩
        rw [hstate]
        exact hasked
  | disableEcho =>
    rw [hstate] at h
    refine ⟨?_, fun hfalse => absurd hfalse Bool.false_ne_true⟩
    dsimp only [enter]
    split
    next hok =>
      have haccepts := (Serial.waitForResponse_iff "OK" serial).mp hok
      exact SincePowerUp.command h .ate0 serial.flatten fun _ hevents => hevents.then haccepts
    next => trivial
  | querySim =>
    rw [hstate] at h
    exact ⟨h.command .ccid serial.flatten, fun hfalse => absurd hfalse Bool.false_ne_true⟩
  | queryNetwork =>
    rw [hstate] at h
    exact ⟨h.command .creg serial.flatten, fun hfalse => absurd hfalse Bool.false_ne_true⟩
  | queryRssi =>
    rw [hstate] at h
    exact ⟨h.command .csq serial.flatten, fun hfalse => absurd hfalse Bool.false_ne_true⟩
  | complete =>
    rw [hstate] at h
    exact ⟨by simpa using h, fun _ => rfl⟩

/-! ## The main loop -/

namespace ModemLoop

/-- A property of the PPP part that the states over a PPP session keep. -/
structure KeptOverPpp (I : LoopState → Prop) : Prop where
  connecting : ∀ {m : LoopState} (now : UInt32), I m → I (m.enter .mqttConnecting now)
  connected : ∀ {m : LoopState} (now : UInt32), I m → I (m.enter .mqttConnected now)
  rebuilt : ∀ {m : LoopState} (now : UInt32), I m → I (m.rebuildPpp now)

namespace KeptOverPpp

variable {I : LoopState → Prop} (hI : KeptOverPpp I) (ans : Answers) (now : UInt32)

theorem ignoresMqtt (I : LoopState → Prop) : IgnoresMqtt fun w => I w.main where
  of_same := fun h hsame => hsame.main.symm ▸ h

include hI

theorem rebuildPpp : Keeps (fun w => I w.main) (MainLoop.rebuildPpp ans now) := by
  refine Keeps.bind ((ignoresMqtt I).disconnect ans) fun _ => ?_
  refine Keeps.bind ((ignoresMqtt I).modifyMqtt _) fun _ => ?_
  exact Keeps.bind ((ignoresMqtt I).pppStopCalls ans) fun _ => Keeps.modify fun _ h => hI.rebuilt now h

theorem pppUp : Keeps (fun w => I w.main) (MainLoop.pppUp ans now) := by
  have hlink : Keeps (fun w => I w.main) (linkMqtt now) :=
    Keeps.get fun _ _ => Keeps.ite (fun _ => Keeps.bind (ignoresMqtt I).setPppManager fun _ =>
      Keeps.bind ((ignoresMqtt I).modifyMqtt _) fun _ => Keeps.modify fun _ h => h) fun _ => Keeps.pure _
  have hinitialize : Keeps (fun w => I w.main) (initializeMqtt ans now) := by
    refine Keeps.get fun _ _ => Keeps.ite (fun _ => ?_) fun _ => Keeps.pure _
    refine Keeps.bind ((ignoresMqtt I).initializeModemMqtt ans) fun _ => ?_
    exact Keeps.ite (fun _ => Keeps.modify fun _ h => h) fun _ => Keeps.pure _
  refine Keeps.bind (Keeps.modify fun _ h => h) fun _ => Keeps.bind hlink fun _ => ?_
  refine Keeps.bind hinitialize fun _ => Keeps.get fun _ h => ?_
  exact Keeps.ite (fun _ => Triple.set fun _ _ => hI.connecting now h) fun _ => Keeps.pure _

theorem mqttConnecting : Keeps (fun w => I w.main) (MainLoop.mqttConnecting ans now) := by
  refine Keeps.get fun _ _ => Keeps.ite (fun _ => hI.rebuildPpp ans now) fun _ => ?_
  refine Keeps.ite (fun _ => hI.rebuildPpp ans now) fun _ => ?_
  refine Keeps.bind ((ignoresMqtt I).connect ans) fun _ => Keeps.ite (fun _ => ?_) fun _ => Keeps.pure _
  refine Keeps.bind ((ignoresMqtt I).modifyMqtt _) fun _ => ?_
  refine Keeps.bind ((ignoresMqtt I).uploadDiagnostics ans _) fun _ => ?_
  exact Keeps.modify fun _ h => hI.connected now h

theorem mqttConnected : Keeps (fun w => I w.main) (MainLoop.mqttConnected ans now) := by
  have hact : ∀ action, Keeps (fun w => I w.main) (applyOobAction ans action now) := fun action => by
    cases action with
    | reboot => exact Keeps.bind (Keeps.modify fun _ h => h) fun _ => Keeps.pure _
    | rebuildPpp => exact Keeps.bind (hI.rebuildPpp ans now) fun _ => Keeps.pure _
  have hcall : ∀ method this, Keeps (fun w => I w.main) (TinyGsm.call ans method this) :=
    fun method this => Keeps.modify fun _ h => h
  have hrequest : Keeps (fun w => I w.main) (pollOobCommandViaModem ans now) := by
    refine Keeps.get fun _ _ => Keeps.ite (fun _ => Keeps.pure _) fun _ => ?_
    refine Keeps.bind (hcall _ _) fun _ => Keeps.bind (hcall _ _) fun _ => ?_
    refine Keeps.ite (fun _ => Keeps.bind (hcall _ _) fun _ => Keeps.pure _) fun _ => ?_
    refine Keeps.bind (Keeps.forM fun method _ => hcall method _) fun _ => ?_
    exact Keeps.ite (fun _ => hact .reboot) fun _ =>
      Keeps.ite (fun _ => hact .rebuildPpp) fun _ => Keeps.pure _
  have hpoll : Keeps (fun w => I w.main) (pollOob ans now) :=
    Keeps.get fun _ h => Keeps.ite (fun _ => Keeps.bind (Triple.set fun _ _ => h) fun _ => hrequest)
      fun _ => Keeps.pure _
  refine Keeps.bind hpoll fun _ => Keeps.ite (fun _ => Keeps.pure _) fun _ => ?_
  refine Keeps.bind ((ignoresMqtt I).publishStatus ans) fun _ => ?_
  refine Keeps.bind ((ignoresMqtt I).isConnected ans) fun _ => ?_
  exact Keeps.ite (fun _ => Keeps.pure _) fun _ => Keeps.modify fun _ h => hI.connecting now h

end KeptOverPpp

/-- The device has left STATE_MODEM_INIT. -/
theorem left_keptOverPpp : KeptOverPpp fun m => m.deviceState ≠ .modemInit where
  connecting := fun _ _ => by simp [LoopState.enter]
  connected := fun _ _ => by simp [LoopState.enter]
  rebuilt := fun _ _ => by simp [LoopState.rebuildPpp]

section Iterate

variable {w : LoopWorld} (lib : ArduinoJson) (ans : Answers)

theorem restarts_false (h : w.restarting = false) (hstate : w.main.deviceState ≠ .mqttConnected) :
    restarts lib w ans = false := by
  refine Bool.eq_false_iff.mpr fun hrestarts => hstate ?_
  exact connected_of_due (due_of_polls (polls_of_commanded ((restarts_iff lib _ h).mp hrestarts)))

theorem iterate_main (h : w.restarting = false) (hrestarts : restarts lib w ans = false) :
    ∃ w₁, Since w.main w.lastOobPollTime w.fetches w₁ ∧ (w.iterate lib ans).main =
      ((runState ans (ans.millis 0) w.main.deviceState).run w₁).2.main := by
  obtain ⟨w₁, hw₁, hend⟩ := atEnd_eq lib ans h
  refine ⟨w₁, hw₁, ?_⟩
  have hrunning : (atEnd lib w ans).restarting = false := hrestarts
  rw [iterate_eq, restarted_of_running hrunning, hend]

/-- STATE_MODEM_INIT is left when `init()` reports success. -/
theorem modemInit_main (ans : Answers) {m : LoopState} (now : UInt32) :
    Triple (fun w => w.main = m) (modemInit ans now) fun _ w =>
      w.main.deviceState = if ans.modemInit then .pppConnecting else m.deviceState := by
  refine Triple.get_eq fun w hw => Triple.ite (fun hinit => ?_) fun hinit => ?_
  · exact Triple.set fun _ _ => (if_pos hinit).symm
  · rw [if_neg hinit]
    have hsame : w.main.deviceState = m.deviceState := congrArg LoopState.deviceState hw
    refine Triple.ite (fun _ => Triple.ite (fun _ => Triple.set fun _ _ => hsame) fun _ => ?_) fun _ => ?_
    · have hmillis : Triple (fun s => s = w) (millis ans) fun _ s => s.main = m := fun s hs => hs ▸ hw
      refine Triple.bind hmillis fun _ => Triple.modify fun s (hs : s.main = m) => ?_
      change s.main.deviceState = m.deviceState
      rw [hs]
    · exact Triple.pure fun s hs => hs ▸ hsame

theorem iterate_modemInit (h : w.restarting = false) (hstate : w.main.deviceState = .modemInit) :
    (w.iterate lib ans).main.deviceState = if ans.modemInit then .pppConnecting else .modemInit := by
  obtain ⟨w₁, hw₁, hmain⟩ := iterate_main lib ans h (restarts_false lib _ h (by simp [hstate]))
  have hstays := modemInit_main ans (ans.millis 0) w₁ hw₁.1
  rw [hstate] at hstays
  rw [hmain, hstate]
  exact hstays

/-- The rest of STATE_PPP_CONNECTING is the part of it that `LoopState` has. -/
theorem pppConnecting_main (ans : Answers) {m : LoopState} (now : UInt32) :
    Triple (fun w => w.main = m) (pppConnecting ans now) fun _ w =>
      w.main = (m.pppConnecting ⟨now, ans.pppStart, ans.pppWait⟩).1 := by
  have hcalls : ∀ {m' : LoopState} (methods : List ModemMethod),
      Keeps (fun w => w.main = m') (pppCalls ans methods) := fun methods =>
    Keeps.get fun _ _ => Keeps.forM fun method _ => Keeps.modify fun _ h => h
  have hmodify : ∀ {m' : LoopState} (f : LoopState → LoopState),
      Triple (fun w => w.main = m') (modifyMain f) fun _ w => w.main = f m' := fun f =>
    Triple.modify fun _ h => congrArg f h
  have hpoll : ∀ {m' : LoopState} (it : PppIteration), Triple (fun w => w.main = m') (pollPpp it)
      fun up w => up = (m'.poll it).1 ∧ w.main = (m'.poll it).2 := fun it w hw => by
    subst hw
    exact ⟨rfl, rfl⟩
  unfold LoopState.pppConnecting
  dsimp only
  refine Triple.bind (hmodify _) fun _ => Triple.bind (Keeps.get fun _ _ => hcalls _) fun _ => ?_
  refine Triple.bind (hpoll _) fun up => Triple.assume fun hup => ?_
  rw [← hup]
  refine Triple.ite (fun htrue => ?_) fun hfalse => Triple.get fun w hw => ?_
  · rw [if_pos htrue]
    exact hmodify _
  · rw [if_neg hfalse, hw]
    refine Triple.ite (fun hlate => ?_) fun hlate => ?_
    · rw [if_pos hlate]
      exact Triple.bind (Keeps.get fun _ _ => hcalls _) fun _ => hmodify _
    · rw [if_neg hlate]
      exact Triple.pure fun _ h => h

theorem pppConnecting_deviceState {s : LoopState} (it : PppIteration)
    (hstate : s.deviceState = .pppConnecting) :
    (s.pppConnecting it).1.deviceState = .modemInit ↔ .hardReset ∈ (s.pppConnecting it).2 := by
  have hstart : (s.startPpp it).deviceState = .pppConnecting := by
    rw [← hstate, LoopState.startPpp]
    dsimp only
    split <;> split <;> rfl
  have hpoll : ((s.startPpp it).poll it).2.deviceState = .pppConnecting := hstart
  unfold LoopState.pppConnecting
  dsimp only
  split
  next => simp
  next =>
    split
    next =>
      unfold LoopState.expire
      dsimp only
      split
      · simp
      · simp [hpoll]
    next => simp [hpoll]

/-- STATE_PPP_CONNECTING goes back to STATE_MODEM_INIT with a hard reset, and only so. -/
theorem iterate_pppConnecting (h : w.restarting = false) (hstate : w.main.deviceState = .pppConnecting) :
    (w.iterate lib ans).main.deviceState = .modemInit ↔ hardResets w ans = true := by
  obtain ⟨w₁, hw₁, hmain⟩ := iterate_main lib ans h (restarts_false lib _ h (by simp [hstate]))
  have hafter := pppConnecting_main ans (ans.millis 0) w₁ hw₁.1
  have hiterate : (w.iterate lib ans).main =
      (w.main.pppConnecting ⟨ans.millis 0, ans.pppStart, ans.pppWait⟩).1 := by
    rw [hmain, hstate]
    exact hafter
  rw [hiterate, pppConnecting_deviceState _ hstate, hardResets, List.contains_iff_mem]

/-- An iteration in a state over a PPP session, restarts aside. -/
theorem KeptOverPpp.iterate {I : LoopState → Prop} (hI : KeptOverPpp I) (h : w.restarting = false)
    (hrestarts : restarts lib w ans = false)
    (hstate : w.main.deviceState = .pppUp ∨ w.main.deviceState = .mqttConnecting ∨
      w.main.deviceState = .mqttConnected) (hmain : I w.main) : I (w.iterate lib ans).main := by
  obtain ⟨w₁, hw₁, hiterate⟩ := iterate_main lib ans h hrestarts
  have hmain₁ : I w₁.main := hw₁.1.symm ▸ hmain
  rw [hiterate]
  rcases hstate with hstate | hstate | hstate <;> rw [hstate]
  · exact hI.pppUp ans (ans.millis 0) w₁ hmain₁
  · exact hI.mqttConnecting ans (ans.millis 0) w₁ hmain₁
  · exact hI.mqttConnected ans (ans.millis 0) w₁ hmain₁

end Iterate

/-! ## Runs -/

/-- PPP and everything above it runs over a modem that has been powered up and has answered. -/
def StandsOnModem (s : ModemLoop) : Prop := s.world.main.deviceState ≠ .modemInit → Awake s.history

structure Inv (s : ModemLoop) : Prop where
  running : s.world.restarting = false
  reached : Reached s.history s.modem.initState
  complete : s.world.main.deviceState ≠ .modemInit → s.modem.initState = .complete

namespace Inv

variable {s : ModemLoop}

theorem standsOnModem (h : Inv s) : StandsOnModem s := fun hstate => by
  have hreached := h.reached
  rwa [h.complete hstate] at hreached

/-- The modem is left alone, or touched while the device goes back to STATE_MODEM_INIT. -/
theorem touch (h : Inv s) {world : LoopWorld} {modem : ModemManager} {e : ModemEvent} {touched : Bool}
    (hrunning : world.restarting = false) (hmodem : modem.initState = .powerOn)
    (hstate : s.world.main.deviceState ≠ .modemInit)
    (hback : world.main.deviceState = .modemInit ↔ touched = true) :
    Inv ⟨world, if touched then modem else s.modem, s.history ++ if touched then [e] else []⟩ := by
  cases touched with
  | true =>
    refine ⟨hrunning, ?_, fun hne => absurd (hback.mpr rfl) hne⟩
    rw [if_pos rfl, hmodem]
    trivial
  | false =>
    refine ⟨hrunning, ?_, fun _ => h.complete hstate⟩
    simpa using h.reached

/-- A state over a PPP session, which is left for STATE_MODEM_INIT by a restart only. -/
theorem serving (lib : ArduinoJson) (ans : Answers) (h : Inv s)
    (hstate : s.world.main.deviceState = .pppUp ∨ s.world.main.deviceState = .mqttConnecting ∨
      s.world.main.deviceState = .mqttConnected) :
    Inv ⟨s.world.iterate lib ans,
      if restarts lib s.world ans then ModemManager.create else s.modem,
      s.history ++ if restarts lib s.world ans then [.restart] else []⟩ := by
  have hne : s.world.main.deviceState ≠ .modemInit := by
    rcases hstate with hstate | hstate | hstate <;> simp [hstate]
  refine h.touch (iterate_running lib _) rfl hne ⟨fun hback => ?_, fun hrestarts => ?_⟩
  · by_contra hkept
    exact left_keptOverPpp.iterate lib _ h.running (Bool.eq_false_iff.mpr hkept) hstate hne hback
  · obtain ⟨session, calls, hboot⟩ :=
      iterate_reboot lib _ h.running ((restarts_iff lib _ h.running).mp hrestarts)
    rw [hboot]
    rfl

theorem iterate (lib : ArduinoJson) (a : ModemAnswers) (h : Inv s) : Inv (s.iterate lib a) := by
  unfold ModemLoop.iterate
  split
  next hstate =>
    dsimp only
    obtain ⟨hreached, hcomplete⟩ := ModemManager.init_reached a.initMillis a.serial h.reached
    generalize s.modem.init a.initMillis a.serial = result at hreached hcomplete
    have hafter := iterate_modemInit lib { a.ans with modemInit := result.1 } h.running hstate
    refine ⟨iterate_running lib _, ?_, fun hleft => ?_⟩
    · split
      · trivial
      · simpa using hreached
    · rw [hafter] at hleft
      have hok : result.1 = true := by
        by_contra hfalse
        exact hleft (if_neg hfalse)
      have hcycles : powerCycles s.world a.ans result.1 = false := by simp [powerCycles, hok]
      rw [hcycles]
      exact hcomplete hok
  next hstate =>
    exact h.touch (iterate_running lib _) rfl (by simp [hstate])
      (iterate_pppConnecting lib _ h.running hstate)
  next hstate => exact h.serving lib a.ans (.inl hstate)
  next hstate => exact h.serving lib a.ans (.inr (.inl hstate))
  next hstate => exact h.serving lib a.ans (.inr (.inr hstate))

end Inv

/-- Whatever the modem answers and whenever, the device never leaves STATE_MODEM_INIT over a modem
    that has not accepted `AT` and then `ATE0` since it was last powered up, and stays over it only as
    long as nothing resets the modem. -/
theorem stands_on_modem (lib : ArduinoJson) (millis : UInt32) (session : MqttSession)
    (run : List ModemAnswers) :
    Trace.AllStates (step lib) StandsOnModem (boot millis session) run := by
  refine Trace.allStates_iff.mpr fun _ _ _ hrun => ?_
  refine (Trace.exec_invariant (J := Inv) (fun s a s' h hstep => ?_) ?_ hrun).standsOnModem
  · obtain rfl := Option.some.inj hstep
    exact h.iterate lib a
  · exact ⟨rfl, trivial, fun hne => absurd rfl hne⟩

/-- The queries after `ATE0` may fail, and the answers may come in pieces. -/
def sampleRun : List ModemAnswers :=
  [(0, []), (7200, []), (7210, [ascii "AT\r", [], ascii "\r\nO", ascii "K\r\n"]),
    (7240, [ascii "\r\nOK\r\n"]), (7260, [ascii "\r\nERROR\r\n"]), (7280, []), (12280, []),
    (17280, [])].map fun a => ⟨LoopWorld.willing a.1, a.1 + 1, a.2⟩

example :
    (Trace.exec (step (.ofDocuments [])) (boot 0 .down) sampleRun).map
      (fun s => s.world.main.deviceState) = some .pppConnecting := by decide +kernel

end ModemLoop

end Firmware
