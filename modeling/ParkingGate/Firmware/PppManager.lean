-- SUMMARY: The PPP manager (`PppManager.cpp`): starting, polling and stopping the modem session, and its failure streak.
import ParkingGate.Firmware.Config

/-!
# The PPP manager

`waitForPppUp` is a poll: each call looks at the clock and takes at most one step of the
connection. What it reads of the clock and of the modem is passed in as `PppAnswers`.
The instance behind `tinyGsmModem` is named by the number it was created under.

A manager is idle, starting or up. The lemmas at the end say what each operation does to
a manager in one of these phases, and the later modules use nothing else.
-/

namespace Firmware

open Config

inductive PppConnState where
  | init | waitSim | waitRegistration | setApn | activateNetwork | getIp | connected
  deriving DecidableEq

inductive RegStatus where
  | unregistered | searching | noResult | denied | okHome | okRoaming | unknown

/-- The clock and the modem during one call of `waitForPppUp`. -/
structure PppAnswers where
  millis : UInt32
  getRegistrationStatus : RegStatus
  setNetworkAPN : Bool
  setNetworkActive : Bool
  getLocalIP : String

structure PppManager where
  pppUp : Bool
  pppFailStreak : UInt8
  pppStartTime : UInt32
  pppStarting : Bool
  tinyGsmModem : Option Nat
  /-- The number of modem instances created so far. -/
  instances : Nat
  -- The static variables of the file and of `waitForPppUp`.
  connState : PppConnState
  lastRegCheck : UInt32
  retryCount : Nat
  ipRetry : Nat

namespace PppManager

def create : PppManager where
  pppUp := false
  pppFailStreak := 0
  pppStartTime := 0
  pppStarting := false
  tinyGsmModem := none
  instances := 0
  connState := .init
  lastRegCheck := 0
  retryCount := 0
  ipRetry := 0

def resetPppFailStreak (p : PppManager) : PppManager := { p with pppFailStreak := 0 }

def incrementFailStreak (p : PppManager) : PppManager :=
  { p with pppFailStreak := p.pppFailStreak + 1 }

def shouldHardReset (p : PppManager) : Bool := p.pppFailStreak ≥ pppFailsBeforeModemReset

/-- The serial port always exists and `new` does not return null, so this succeeds. -/
def initializeTinyGsm (p : PppManager) : Bool × PppManager :=
  match p.tinyGsmModem with
  | some _ => (true, p)
  | none   => (true, { p with tinyGsmModem := some p.instances, instances := p.instances + 1 })

def deinitializeTinyGsm (p : PppManager) : PppManager := { p with tinyGsmModem := none }

def start (p : PppManager) (millis : UInt32) : Bool × PppManager :=
  if p.pppStarting || p.pppUp then (p.pppUp, p)
  else
    let (ok, p) := p.initializeTinyGsm
    if !ok then (false, p.incrementFailStreak)
    else (true, { p with connState := .init, pppStarting := true, pppStartTime := millis })

def stop (p : PppManager) : PppManager :=
  if !p.pppUp && !p.pppStarting then p
  else { p.deinitializeTinyGsm with connState := .init, pppUp := false, pppStarting := false }

/-- The state machine inside `waitForPppUp`. -/
def advance (p : PppManager) (a : PppAnswers) : Bool × PppManager :=
  match p.connState with
  | .init | .waitSim => (false, { p with connState := .waitRegistration })
  | .waitRegistration =>
    if a.millis - p.lastRegCheck < 1000 then (false, p)
    else
      let p := { p with lastRegCheck := a.millis }
      match a.getRegistrationStatus with
      | .okHome | .okRoaming => (false, { p with connState := .setApn })
      | .unregistered | .searching | .noResult | .denied | .unknown => (false, p)
  | .setApn =>
    if a.setNetworkAPN then (false, { p with connState := .activateNetwork }) else (false, p)
  | .activateNetwork =>
    if a.setNetworkActive then (false, { p with connState := .getIp, retryCount := 0 })
    else (false, { p with retryCount := if p.retryCount + 1 ≥ 3 then 0 else p.retryCount + 1 })
  | .getIp =>
    if a.getLocalIP ≠ "" ∧ a.getLocalIP ≠ "0.0.0.0" then
      (true, { p with connState := .connected, pppUp := true, pppStarting := false }.resetPppFailStreak)
    else (false, { p with ipRetry := if p.ipRetry + 1 ≥ 5 then 0 else p.ipRetry + 1 })
  | .connected => (true, p)

def waitForPppUp (p : PppManager) (timeoutMs : UInt32) (a : PppAnswers) : Bool × PppManager :=
  if p.pppUp then (true, p)
  else if !p.pppStarting || p.tinyGsmModem.isNone then (false, p)
  else if a.millis - p.pppStartTime > timeoutMs then (false, p.stop.incrementFailStreak)
  else p.advance a

/-! ## Phases -/

structure Idle (p : PppManager) : Prop where
  pppUp : p.pppUp = false
  pppStarting : p.pppStarting = false
  modem : p.tinyGsmModem = none

structure Starting (p : PppManager) : Prop where
  pppUp : p.pppUp = false
  pppStarting : p.pppStarting = true
  modem : p.tinyGsmModem.isSome
  connState : p.connState ≠ .connected

structure Up (p : PppManager) : Prop where
  pppUp : p.pppUp = true
  pppStarting : p.pppStarting = false
  modem : p.tinyGsmModem.isSome

theorem create_idle : create.Idle := ⟨rfl, rfl, rfl⟩

@[simp] theorem incrementFailStreak_pppFailStreak (p : PppManager) :
    p.incrementFailStreak.pppFailStreak = p.pppFailStreak + 1 := rfl

theorem Idle.incrementFailStreak {p : PppManager} (h : p.Idle) : p.incrementFailStreak.Idle :=
  ⟨h.pppUp, h.pppStarting, h.modem⟩

theorem Idle.resetPppFailStreak {p : PppManager} (h : p.Idle) : p.resetPppFailStreak.Idle :=
  ⟨h.pppUp, h.pppStarting, h.modem⟩

theorem Up.resetPppFailStreak {p : PppManager} (h : p.Up) : p.resetPppFailStreak.Up :=
  ⟨h.pppUp, h.pppStarting, h.modem⟩

@[simp] theorem stop_pppFailStreak (p : PppManager) :
    p.stop.pppFailStreak = p.pppFailStreak := by
  unfold stop
  split <;> rfl

theorem Idle.stop_eq {p : PppManager} (h : p.Idle) : p.stop = p := by
  simp [stop, h.pppUp, h.pppStarting]

theorem Starting.stop {p : PppManager} (h : p.Starting) : p.stop.Idle := by
  simp only [PppManager.stop, h.pppUp, h.pppStarting, Bool.not_false, Bool.not_true,
    Bool.and_false, Bool.false_eq_true, if_false]
  exact ⟨rfl, rfl, rfl⟩

theorem Up.stop {p : PppManager} (h : p.Up) : p.stop.Idle := by
  simp only [PppManager.stop, h.pppUp, h.pppStarting, Bool.not_false, Bool.not_true,
    Bool.and_true, Bool.false_eq_true, if_false]
  exact ⟨rfl, rfl, rfl⟩

/-- Starting an idle manager succeeds and starts its timer. -/
theorem Idle.start {p : PppManager} (h : p.Idle) (millis : UInt32) :
    ∃ p', p.start millis = (true, p') ∧ p'.Starting ∧ p'.pppStartTime = millis ∧
      p'.pppFailStreak = p.pppFailStreak := by
  simp only [PppManager.start, h.pppStarting, h.pppUp, Bool.or_self, Bool.false_eq_true, if_false,
    initializeTinyGsm, h.modem, Bool.not_true]
  exact ⟨_, rfl, ⟨rfl, rfl, rfl, by simp⟩, rfl, rfl⟩

/-- One step of the connection either brings PPP up or changes nothing but the step. -/
private theorem Starting.advance {p : PppManager} (h : p.Starting) (a : PppAnswers) :
    ((p.advance a).1 = true ∧ (p.advance a).2.Up ∧ (p.advance a).2.pppFailStreak = 0) ∨
    ((p.advance a).1 = false ∧ (p.advance a).2.Starting ∧
      (p.advance a).2.pppStartTime = p.pppStartTime ∧
      (p.advance a).2.pppFailStreak = p.pppFailStreak) := by
  have pending : ∀ p' : PppManager, p'.pppUp = p.pppUp → p'.pppStarting = p.pppStarting →
      p'.tinyGsmModem = p.tinyGsmModem → p'.connState ≠ .connected → p'.Starting :=
    fun p' h₁ h₂ h₃ h₄ => ⟨h₁ ▸ h.pppUp, h₂ ▸ h.pppStarting, h₃ ▸ h.modem, h₄⟩
  unfold PppManager.advance
  cases hc : p.connState with
  | init | waitSim => exact .inr ⟨rfl, pending _ rfl rfl rfl (by simp), rfl, rfl⟩
  | waitRegistration =>
    simp only
    split
    · exact .inr ⟨rfl, h, rfl, rfl⟩
    · cases a.getRegistrationStatus with
      | okHome | okRoaming => exact .inr ⟨rfl, pending _ rfl rfl rfl (by simp), rfl, rfl⟩
      | unregistered | searching | noResult | denied | unknown =>
        exact .inr ⟨rfl, pending _ rfl rfl rfl (by simp), rfl, rfl⟩
  | setApn =>
    simp only
    split
    · exact .inr ⟨rfl, pending _ rfl rfl rfl (by simp), rfl, rfl⟩
    · exact .inr ⟨rfl, h, rfl, rfl⟩
  | activateNetwork =>
    simp only
    split
    · exact .inr ⟨rfl, pending _ rfl rfl rfl (by simp), rfl, rfl⟩
    · exact .inr ⟨rfl, pending _ rfl rfl rfl (by simp), rfl, rfl⟩
  | getIp =>
    simp only
    split
    · exact .inl ⟨rfl, ⟨rfl, rfl, h.modem⟩, rfl⟩
    · exact .inr ⟨rfl, pending _ rfl rfl rfl (by simp), rfl, rfl⟩
  | connected => exact absurd hc h.connState

theorem Idle.waitForPppUp {p : PppManager} (h : p.Idle) (timeoutMs : UInt32) (a : PppAnswers) :
    p.waitForPppUp timeoutMs a = (false, p) := by
  simp [PppManager.waitForPppUp, h.pppUp, h.pppStarting]

/-- The manager's own timer ran out: it stops and counts a failure. -/
theorem Starting.waitForPppUp_timeout {p : PppManager} (h : p.Starting) {timeoutMs : UInt32}
    {a : PppAnswers} (ht : a.millis - p.pppStartTime > timeoutMs) :
    p.waitForPppUp timeoutMs a = (false, p.stop.incrementFailStreak) := by
  have hmodem : p.tinyGsmModem ≠ none := Option.isSome_iff_ne_none.mp h.modem
  simp [PppManager.waitForPppUp, h.pppUp, h.pppStarting, hmodem, ht]

/-- Before the manager's timer runs out, a poll brings PPP up or leaves it starting. -/
theorem Starting.waitForPppUp {p : PppManager} (h : p.Starting) {timeoutMs : UInt32}
    {a : PppAnswers} (ht : ¬ a.millis - p.pppStartTime > timeoutMs) :
    ∃ up p', p.waitForPppUp timeoutMs a = (up, p') ∧
      ((up = true ∧ p'.Up ∧ p'.pppFailStreak = 0) ∨
       (up = false ∧ p'.Starting ∧ p'.pppStartTime = p.pppStartTime ∧
         p'.pppFailStreak = p.pppFailStreak)) := by
  have hmodem : p.tinyGsmModem ≠ none := Option.isSome_iff_ne_none.mp h.modem
  have heq : p.waitForPppUp timeoutMs a = p.advance a := by
    simp [PppManager.waitForPppUp, h.pppUp, h.pppStarting, hmodem, ht]
  exact ⟨_, _, heq, h.advance a⟩

end PppManager

end Firmware
