-- SUMMARY: A 32-bit millisecond counter that wraps: readings of real time and the differences taken between two of them.
import Mathlib.Algebra.Order.Ring.Nat

/-!
# A wrapping millisecond clock

The counter counts real milliseconds modulo `2^32`. A difference of two readings
is the elapsed real time modulo `2^32`, so it never exceeds the elapsed time, and
it is the elapsed time whenever less than one full turn went by.
-/

namespace Clock32

/-- The reading of the counter at real time `t`, in milliseconds. -/
def reading (t : Nat) : UInt32 := UInt32.ofNat t

@[simp] theorem toNat_reading (t : Nat) : (reading t).toNat = t % 2 ^ 32 := rfl

/-- A difference of readings is the elapsed time modulo a full turn. -/
theorem toNat_sub_reading {t₀ t : Nat} (h : t₀ ≤ t) :
    (reading t - reading t₀).toNat = (t - t₀) % 2 ^ 32 := by
  rw [UInt32.toNat_sub, toNat_reading, toNat_reading]
  omega

/-- A difference of readings never exceeds the elapsed time. -/
theorem toNat_sub_reading_le {t₀ t : Nat} (h : t₀ ≤ t) :
    (reading t - reading t₀).toNat ≤ t - t₀ := by
  rw [toNat_sub_reading h]
  exact Nat.mod_le _ _

end Clock32
