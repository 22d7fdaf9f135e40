-- SUMMARY: Progress of an endless run in real time: what is reached within a bound, and the rule for a wait on a timer of a wrapping clock.
import ParkingGate.Base.Clock32

/-!
# Progress in real time

The moments of an endless run are numbered, and `time` is the real time at each of them.
`Within time d P Q` says that from every moment in `P` the run reaches a moment in `Q` at most
`d` later. The bounds add up along a chain of such steps.

A wait ends when the difference between a clock reading and the start of a timer exceeds a
delay. The clock wraps and the timer may have been started long ago, so nothing is known about
the first difference. It only grows from there, with the real time, as long as it does not
exceed the delay.
-/

namespace Progress

/-- From every moment in `P` a moment in `Q` is reached at most `d` later. -/
def Within (time : Nat → Nat) (d : Nat) (P Q : Nat → Prop) : Prop :=
  ∀ i, P i → ∃ j, i ≤ j ∧ time j ≤ time i + d ∧ Q j

namespace Within

variable {time : Nat → Nat} {d d' : Nat} {P Q R : Nat → Prop}

theorem of_imp (h : ∀ i, P i → Q i) : Within time d P Q :=
  fun i hi => ⟨i, Nat.le_refl i, Nat.le_add_right _ _, h i hi⟩

/-- One step of the run. -/
theorem of_next (h : ∀ i, P i → time (i + 1) ≤ time i + d ∧ Q (i + 1)) : Within time d P Q :=
  fun i hi => ⟨i + 1, Nat.le_succ i, h i hi⟩

theorem mono (h : Within time d P Q) (hd : d ≤ d') (hQ : ∀ i, Q i → R i) : Within time d' P R := by
  intro i hi
  obtain ⟨j, hij, htime, hj⟩ := h i hi
  exact ⟨j, hij, Nat.le_trans htime (Nat.add_le_add_left hd _), hQ j hj⟩

theorem trans (h : Within time d P Q) (h' : Within time d' Q R) : Within time (d + d') P R := by
  intro i hi
  obtain ⟨j, hij, htime, hj⟩ := h i hi
  obtain ⟨k, hjk, htime', hk⟩ := h' j hj
  exact ⟨k, Nat.le_trans hij hjk, by omega, hk⟩

/-- What holds at one of the moments in `P` and `Q` is reached from both. -/
theorem either (h : Within time d P R) (h' : Within time d Q R) :
    Within time d (fun i => P i ∨ Q i) R := by
  rintro i (hi | hi)
  · exact h i hi
  · exact h' i hi

/-- What is kept once it is reached. -/
theorem stays (h : Within time d P Q) (hkeep : ∀ i, Q i → Q (i + 1)) {i : Nat} (hi : P i) :
    ∃ j, i ≤ j ∧ time j ≤ time i + d ∧ ∀ k, j ≤ k → Q k := by
  obtain ⟨j, hij, htime, hj⟩ := h i hi
  refine ⟨j, hij, htime, fun k hk => ?_⟩
  induction k, hk using Nat.le_induction with
  | base => exact hj
  | succ k _ ih => exact hkeep k ih

end Within

/-! ## Waiting for a timer -/

section Timer

open Clock32

variable {time sample : Nat → Nat}

/-- `sample` is a real time at which the clock is read between two moments. -/
def Samples (time sample : Nat → Nat) : Prop := ∀ i, time i ≤ sample i ∧ sample i < time (i + 1)

theorem Samples.lt (h : Samples time sample) (i : Nat) : time i < time (i + 1) :=
  Nat.lt_of_le_of_lt (h i).1 (h i).2

theorem Samples.mono (h : Samples time sample) {i j : Nat} (hij : i ≤ j) : time i ≤ time j := by
  induction j, hij using Nat.le_induction with
  | base => exact Nat.le_refl _
  | succ j _ ih => exact Nat.le_trans ih (Nat.le_of_lt (h.lt j))

/-- Each reading comes after the one before. -/
theorem Samples.add_le (h : Samples time sample) (i n : Nat) : sample i + n ≤ sample (i + n) := by
  induction n with
  | zero => exact Nat.le_refl _
  | succ n ih =>
    have hread := (h (i + n)).2
    have hnext := (h (i + n + 1)).1
    rw [← Nat.add_assoc i n 1]
    omega

/-- While the difference does not exceed the delay, it grows with the real time. -/
theorem elapsed_le {start : UInt32} {delay t t' : Nat} (ht : t ≤ t') (hturn : t' - t < 2 ^ 31)
    (hdelay : delay < 2 ^ 31) (h : (reading t - start).toNat ≤ delay)
    (h' : (reading t' - start).toNat ≤ delay) : t' - t ≤ delay := by
  rw [UInt32.toNat_sub, toNat_reading] at h h'
  omega

/-- A wait for a timer that was started at the reading `start`, whenever that was: it is over
    when the difference exceeds the delay, if not before. What `Waits` says needs to be kept only
    as long as the wait can last. -/
theorem exists_of_timer (hsample : Samples time sample) (start : UInt32) (delay : Nat)
    (Waits : Nat → Prop) {pace : Nat} (hdelay : delay + 3 * pace < 2 ^ 31) {Q : Nat → Prop} {i : Nat}
    (hi : Waits i)
    (hpace : ∀ j, Waits j → time (j + 1) ≤ time j + pace)
    (hstep : ∀ j, i ≤ j → time j ≤ time i + (delay + 2 * pace) → Waits j →
      Q (j + 1) ∨ Waits (j + 1) ∧ (reading (sample j) - start).toNat ≤ delay) :
    ∃ j, i ≤ j ∧ time j ≤ time i + (delay + 3 * pace) ∧ Q j := by
  -- After `n` steps the wait is over, or all readings were within the delay from the first one.
  have hwait : ∀ n, (∃ j, i ≤ j ∧ time j ≤ time i + (delay + 3 * pace) ∧ Q j) ∨
      Waits (i + n) ∧ time (i + n) ≤ time i + (delay + 2 * pace) ∧
        (0 < n → (reading (sample i) - start).toNat ≤ delay) ∧
          ∀ m, m < n → sample (i + m) ≤ sample i + delay := by
    intro n
    induction n with
    | zero =>
      refine .inr ⟨hi, Nat.le_add_right _ _, fun hn => absurd hn (Nat.lt_irrefl 0), fun m hm => ?_⟩
      exact absurd hm (Nat.not_lt_zero m)
    | succ n ih =>
      rcases ih with hover | ⟨hn, htime, hread, hsamples⟩
      · exact .inl hover
      have hnext := hpace (i + n) hn
      rcases hstep (i + n) (Nat.le_add_right i n) htime hn with hQ | ⟨hwaits, hlast⟩
      · exact .inl ⟨i + n + 1, by omega, by omega, hQ⟩
      have hread' : (reading (sample i) - start).toNat ≤ delay := by
        cases n with
        | zero => exact hlast
        | succ n => exact hread (Nat.succ_pos n)
      have hfrom := hsample i
      have hto := hsample (i + n)
      have hgrown : sample (i + n) ≤ sample i + delay := by
        have hle : sample i ≤ sample (i + n) := by
          have := hsample.add_le i n
          omega
        have := elapsed_le hle (by omega) (by omega) hread' hlast
        omega
      refine .inr ⟨hwaits, ?_, fun _ => hread', fun m hm => ?_⟩
      · have hfirst := hpace i hi
        rw [← Nat.add_assoc]
        omega
      · rcases Nat.lt_succ_iff_lt_or_eq.mp hm with hlt | rfl
        · exact hsamples m hlt
        · exact hgrown
  rcases hwait (delay + 2) with hover | ⟨-, -, -, hsamples⟩
  · exact hover
  · -- More readings than the delay has milliseconds.
    have hlast := hsamples (delay + 1) (by omega)
    have := hsample.add_le i (delay + 1)
    omega

end Timer

end Progress
