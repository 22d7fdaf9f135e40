-- SUMMARY: C strings as byte lists without a terminator inside, and the bounded copy of `strncpy`.
import Mathlib.Data.List.TakeWhile

/-!
# C strings

What a `const char*` denotes: the bytes before the first NUL. A `char[n + 1]` buffer
filled by `strncpy(dst, src, n)` and terminated by hand denotes `src.strncpy n`.
-/

/-- The bytes before the terminating NUL. -/
structure CString where
  bytes : List UInt8
  noNul : 0 ∉ bytes
  deriving DecidableEq

/-- The bytes of an ASCII literal. -/
def ascii (s : String) : List UInt8 := s.toList.map fun c => UInt8.ofNat c.toNat

namespace CString

@[ext] theorem ext {s t : CString} (h : s.bytes = t.bytes) : s = t := by
  cases s; cases t; cases h; rfl

/-- The string a buffer holds: everything before its first NUL. -/
def ofBytes (bs : List UInt8) : CString where
  bytes := bs.takeWhile (· ≠ 0)
  noNul := fun h => by simpa using List.mem_takeWhile_imp h

def ofAscii (s : String) : CString := ofBytes (ascii s)

def empty : CString := ⟨[], List.not_mem_nil⟩

/-- `s[0] == '\0'`. -/
def isEmpty (s : CString) : Bool := s.bytes.isEmpty

/-- `strncpy(dst, s, n); dst[n] = '\0'`. -/
def strncpy (s : CString) (n : Nat) : CString where
  bytes := s.bytes.take n
  noNul := fun h => s.noNul (List.mem_of_mem_take h)

theorem strncpy_of_length_le {s : CString} {n : Nat} (h : s.bytes.length ≤ n) :
    s.strncpy n = s := by
  ext1
  exact List.take_of_length_le h

theorem length_strncpy_le (s : CString) (n : Nat) : (s.strncpy n).bytes.length ≤ n := by
  exact List.length_take_le n s.bytes

end CString
