-- SUMMARY: The cooldown in real time: it keeps pulses apart except after a pulse at clock reading zero, and it comes back after every full turn of the clock.
import ParkingGate.Firmware.CommandHandler

/-!
# Spacing of relay pulses

`lastOpenAtMs` holds the clock reading of the last pulse and uses `0` for "no pulse
yet". A difference of readings never exceeds the elapsed real time, so a pulse that
passes the cooldown check against a nonzero reading comes late enough. After a pulse
whose reading was `0` the check is skipped. This is the only way to come too early, and
the first theorem below says so: the pulses of a run are spaced exactly when no fresh
command arrives within the cooldown after a pulse at reading `0`.

The check errs on the other side too. A whole number of turns of the clock after a pulse the
difference of the readings is small again, and commands are refused as if the gate had just
opened.
-/

namespace Firmware

open Config

/-- The readings for any two pulses were taken at least the cooldown apart. -/
def PulsesSpaced (d : Device) : Prop :=
  d.pulses.Pairwise fun p q => p.2 + gateCooldownMs.toNat ≤ q.2

/-- A fresh `open` command arrives within the cooldown after a pulse whose clock
    reading was `0`. -/
def FreshAfterZeroReading (lib : ArduinoJson) (d : Device) (m : Delivery) : Prop :=
  ∃ cmd last, OpenCommand lib (d.env m) m.payload cmd ∧
    d.gate.wasProcessed (some cmd.requestId) = false ∧
    d.pulses.getLast? = some last ∧ Clock32.reading last.2 = 0 ∧
    d.clock + m.elapsed < last.2 + gateCooldownMs.toNat

/-- The stored reading is that of the last pulse, and pulses lie in the past. -/
structure LastPulse (d : Device) : Prop where
  past : ∀ p ∈ d.pulses, p.2 ≤ d.clock
  reading : d.gate.lastOpenAtMs =
    match d.pulses.getLast? with
    | none      => 0
    | some last => Clock32.reading last.2

namespace LastPulse

theorem boot (bootedAt : Nat) : LastPulse (Device.boot bootedAt) where
  past := by simp [Device.boot]
  reading := rfl

theorem step {lib : ArduinoJson} {d d' : Device} {m : Delivery} (h : LastPulse d)
    (hstep : Device.step lib d m = some d') : LastPulse d' := by
  rcases Device.step_cases hstep with ⟨hgate, hclock, hpulses⟩ | ⟨cmd, -, -, -, rfl⟩
  · refine ⟨fun p hp => ?_, by rw [hgate, hpulses]; exact h.reading⟩
    have := h.past p (hpulses ▸ hp)
    omega
  · refine ⟨fun p hp => ?_, by simp [Device.env]⟩
    rcases List.mem_append.mp hp with hp | hp
    · have := h.past p hp
      simp only
      omega
    · rw [List.mem_singleton.mp hp]

end LastPulse

/-- The same, with the pulses apart. -/
structure CooldownInv (d : Device) : Prop where
  spaced : PulsesSpaced d
  past : ∀ p ∈ d.pulses, p.2 ≤ d.clock
  reading : d.gate.lastOpenAtMs =
    match d.pulses.getLast? with
    | none      => 0
    | some last => Clock32.reading last.2

namespace CooldownInv

theorem boot (bootedAt : Nat) : CooldownInv (Device.boot bootedAt) :=
  ⟨List.Pairwise.nil, (LastPulse.boot bootedAt).past, (LastPulse.boot bootedAt).reading⟩

/-- Spacing from the last pulse is spacing from all of them. -/
private theorem spaced_snoc {pulses : List (CString × Nat)} {p : CString × Nat}
    (h : pulses.Pairwise fun p q => p.2 + gateCooldownMs.toNat ≤ q.2)
    (hlast : ∀ last, pulses.getLast? = some last → last.2 + gateCooldownMs.toNat ≤ p.2) :
    (pulses ++ [p]).Pairwise fun p q => p.2 + gateCooldownMs.toNat ≤ q.2 := by
  rcases List.eq_nil_or_concat pulses with rfl | ⟨pulses, last, rfl⟩
  · simp
  rw [List.concat_eq_append] at h hlast ⊢
  have hp := hlast last (by simp)
  refine List.pairwise_append.mpr ⟨h, List.pairwise_singleton _ _, fun q hq r hr => ?_⟩
  obtain rfl := List.mem_singleton.mp hr
  rcases List.mem_append.mp hq with hq | hq
  · have := (List.pairwise_append.mp h).2.2 q hq last (by simp)
    omega
  · rw [List.mem_singleton.mp hq]; exact hp

/-- The cooldown check against the last pulse, read in real time. -/
private theorem cooldown_elapsed {d : Device} (h : CooldownInv d) {m : Delivery}
    (ready : (d.gate.canExecuteNow (d.env m).millis).1 = true)
    (last : CString × Nat) (hlast : d.pulses.getLast? = some last)
    (hne : Clock32.reading last.2 ≠ 0) :
    last.2 + gateCooldownMs.toNat ≤ d.clock + m.elapsed := by
  have hreading : d.gate.lastOpenAtMs = Clock32.reading last.2 := by
    simpa [hlast] using h.reading
  have hpast : last.2 ≤ d.clock := h.past last (List.mem_of_getLast? hlast)
  have hle := GateControl.cooldown_le_of_canExecuteNow (hreading ▸ hne) ready
  rw [hreading, UInt32.le_iff_toNat_le] at hle
  have hlater : last.2 ≤ d.clock + m.elapsed := by omega
  have hsub := Clock32.toNat_sub_reading_le hlater
  change _ ≤ (Clock32.reading (d.clock + m.elapsed) - _).toNat at hle
  omega

theorem step {lib : ArduinoJson} {d d' : Device} {m : Delivery} (h : CooldownInv d)
    (hC : ¬ FreshAfterZeroReading lib d m) (hstep : Device.step lib d m = some d') :
    CooldownInv d' := by
  obtain ⟨hpast, hreading⟩ := LastPulse.step ⟨h.past, h.reading⟩ hstep
  refine ⟨?_, hpast, hreading⟩
  rcases Device.step_cases hstep with ⟨-, -, hpulses⟩ | ⟨cmd, hcmd, miss, ready, rfl⟩
  · rw [PulsesSpaced, hpulses]
    exact h.spaced
  · refine spaced_snoc h.spaced fun last hlast => ?_
    by_cases hzero : Clock32.reading last.2 = 0
    · by_contra hlt
      exact hC ⟨cmd, last, hcmd, miss, hlast, hzero, by simpa using hlt⟩
    · exact h.cooldown_elapsed ready last hlast hzero

/-- After a pulse at reading `0` the cooldown check passes at once. -/
theorem breaks {lib : ArduinoJson} {d d' : Device} {m : Delivery} (h : CooldownInv d)
    (hbad : FreshAfterZeroReading lib d m) (hstep : Device.step lib d m = some d') :
    ¬ PulsesSpaced d' := by
  obtain ⟨cmd, last, hcmd, miss, hlast, hzero, hearly⟩ := hbad
  have hreading : d.gate.lastOpenAtMs = 0 := by
    have := h.reading
    simpa [hlast, hzero] using this
  rw [Device.step_opened hcmd miss (GateControl.canExecuteNow_of_zero hreading _)] at hstep
  obtain rfl := Option.some.inj hstep
  intro hspaced
  have := (List.pairwise_append.mp hspaced).2.2 last (List.mem_of_getLast? hlast) _
    (List.mem_singleton_self _)
  simp only at this
  omega

end CooldownInv

/-- The pulses of a run stay spaced exactly when no fresh command arrives within the
    cooldown after a pulse at clock reading `0`. -/
theorem pulses_spaced_iff (lib : ArduinoJson) (bootedAt : Nat) (ms : List Delivery) :
    Trace.AllStates (Device.step lib) PulsesSpaced (Device.boot bootedAt) ms ↔
      Trace.AllSteps (Device.step lib) (fun d m => ¬ FreshAfterZeroReading lib d m)
        (Device.boot bootedAt) ms :=
  Trace.allStates_iff_allSteps (J := CooldownInv) (fun _ h => h.spaced)
    (fun _ _ _ h hC hstep => h.step hC hstep)
    (fun _ _ _ h hC hstep => h.breaks (not_not.mp hC) hstep)
    (CooldownInv.boot bootedAt)

/-- Two commands, the first handled when the clock reads `0` after one full turn, the
    second three seconds later. -/
def wrapDocuments : List Json :=
  [commandDocument "11111111-1111-4111-8111-111111111111" "64b0c2f1a1b2c3d4e5f60718" 1700000000000,
    commandDocument "22222222-2222-4222-8222-222222222222" "64b0c2f1a1b2c3d4e5f60718"
      1700000003000]

def wrapDeliveries : List Delivery :=
  [⟨2 ^ 32, true, CString.ofBytes (wrapDocuments.headD .null).text⟩,
    ⟨3000, true, CString.ofBytes (wrapDocuments.getLastD .null).text⟩]

/-- Both commands pulse the relay. -/
theorem pulses_not_spaced_at_wrap :
    ¬ Trace.AllStates (Device.step (ArduinoJson.ofDocuments wrapDocuments)) PulsesSpaced
        (Device.boot 0) wrapDeliveries := by
  intro h
  have hrun : (Trace.exec (Device.step (ArduinoJson.ofDocuments wrapDocuments)) (Device.boot 0)
      wrapDeliveries).map (fun d => d.pulses.map (·.2)) = some [2 ^ 32, 2 ^ 32 + 3000] := by
    decide +kernel
  obtain ⟨d, hd, htimes⟩ := Option.map_eq_some_iff.mp hrun
  have hspaced : (d.pulses.map (·.2)).Pairwise fun t t' => t + gateCooldownMs.toNat ≤ t' :=
    List.pairwise_map.mpr (h.last hd)
  rw [htimes] at hspaced
  exact absurd hspaced (by decide)

/-! ## The end of the cooldown -/

namespace GateControl

/-- At real time `now`, the gate having last opened at `opened`: a command is refused only
    within the cooldown, and `remainingMs` is then what is left of it. -/
def RefusesInTime (g : GateControl) (opened now : Nat) : Prop :=
  (g.canExecuteNow (Clock32.reading now)).1 = false →
    now - opened < gateCooldownMs.toNat ∧
      (g.canExecuteNow (Clock32.reading now)).2.toNat = gateCooldownMs.toNat - (now - opened)

/-- The check sees the gap since the last pulse modulo a full turn of the clock. -/
theorem canExecuteNow_reading {g : GateControl} {opened now : Nat}
    (hlast : g.lastOpenAtMs = Clock32.reading opened) (hne : Clock32.reading opened ≠ 0)
    (hle : opened ≤ now) :
    ((g.canExecuteNow (Clock32.reading now)).1 = false ↔
      (now - opened) % 2 ^ 32 < gateCooldownMs.toNat) ∧
    ((g.canExecuteNow (Clock32.reading now)).1 = false →
      (g.canExecuteNow (Clock32.reading now)).2.toNat =
        gateCooldownMs.toNat - (now - opened) % 2 ^ 32) := by
  have helapsed := Clock32.toNat_sub_reading hle
  simp only [canExecuteNow, hlast, hne, if_false, ge_iff_le, UInt32.le_iff_toNat_le, helapsed]
  split
  next hge => exact ⟨iff_of_false (by rintro ⟨⟩) (Nat.not_lt.mpr hge), by rintro ⟨⟩⟩
  next hlt =>
    have hlt : (now - opened) % 2 ^ 32 < gateCooldownMs.toNat := Nat.lt_of_not_le hlt
    refine ⟨iff_of_true rfl hlt, fun _ => ?_⟩
    rw [UInt32.toNat_sub_of_le, helapsed]
    rw [UInt32.le_iff_toNat_le, helapsed]
    exact Nat.le_of_lt hlt

/-- A refusal is in time unless the gap is longer than the cooldown, and less than the cooldown
    longer than a whole number of turns of the clock. -/
theorem refusesInTime_iff {g : GateControl} {opened now : Nat}
    (hlast : g.lastOpenAtMs = Clock32.reading opened) (hne : Clock32.reading opened ≠ 0)
    (hle : opened ≤ now) :
    g.RefusesInTime opened now ↔
      now - opened < gateCooldownMs.toNat ∨ gateCooldownMs.toNat ≤ (now - opened) % 2 ^ 32 := by
  obtain ⟨hrefused, hremaining⟩ := canExecuteNow_reading hlast hne hle
  constructor
  · intro h
    by_cases hmod : (now - opened) % 2 ^ 32 < gateCooldownMs.toNat
    · exact .inl (h (hrefused.mpr hmod)).1
    · exact .inr (Nat.le_of_not_lt hmod)
  · rintro (hgap | hmod) h
    · have hturn : (now - opened) % 2 ^ 32 = now - opened :=
        Nat.mod_eq_of_lt (Nat.lt_trans hgap (by decide))
      exact ⟨hgap, hturn ▸ hremaining h⟩
    · exact absurd (hrefused.mp h) (Nat.not_lt.mpr hmod)

/-- A pulse one second after the clock started, and a command three seconds later. -/
theorem refusesInTime_iff_threeSeconds :
    Clock32.reading 1000 ≠ 0 ∧
      ((init.recordOpen (Clock32.reading 1000)).RefusesInTime 1000 4000 ↔
        4000 - 1000 < gateCooldownMs.toNat ∨ gateCooldownMs.toNat ≤ (4000 - 1000) % 2 ^ 32) :=
  ⟨by decide, refusesInTime_iff rfl (by decide) (by decide)⟩

/-- A command a full turn of the clock and three seconds after the pulse is refused. -/
theorem refused_after_turn :
    ¬ (init.recordOpen (Clock32.reading 1000)).RefusesInTime 1000 (4000 + 2 ^ 32) := by
  intro h
  exact absurd (h (by decide)).1 (by decide)

end GateControl

/-- A device refuses a command in every turn of the clock as long after the last pulse, whatever
    it has been given in between. -/
theorem refused_iff_of_run (lib : ArduinoJson) {bootedAt : Nat} {ms : List Delivery} {d : Device}
    (hrun : Trace.exec (Device.step lib) (Device.boot bootedAt) ms = some d)
    {last : CString × Nat} (hlast : d.pulses.getLast? = some last)
    (hne : Clock32.reading last.2 ≠ 0) {now : Nat} (hnow : d.clock ≤ now) :
    (d.gate.canExecuteNow (Clock32.reading now)).1 = false ↔
      (now - last.2) % 2 ^ 32 < gateCooldownMs.toNat := by
  have hinv : LastPulse d :=
    Trace.exec_invariant (fun _ _ _ h hstep => h.step hstep) (.boot bootedAt) hrun
  have hreading : d.gate.lastOpenAtMs = Clock32.reading last.2 := by
    simpa [hlast] using hinv.reading
  have hle : last.2 ≤ now := Nat.le_trans (hinv.past last (List.mem_of_getLast? hlast)) hnow
  exact (GateControl.canExecuteNow_reading hreading hne hle).1

end Firmware
