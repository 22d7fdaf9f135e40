-- SUMMARY: The JavaScript values that JSON texts denote: strings as code units, numbers as they are read.
import ParkingGate.Base.JsValue
import ParkingGate.Base.JsonDocument

/-!
# JSON in JavaScript

`JSON.parse` makes code units of the characters of a string. It makes a double of every
number; how it rounds is a parameter, and integers of up to 53 bits are not rounded.
-/

open JsonText

/-- The code units of a character. -/
def utf16Char (c : Char) : Utf16 :=
  if c.toNat < 0x10000 then [UInt16.ofNat c.toNat]
  else [UInt16.ofNat (0xD800 + (c.toNat - 0x10000) / 0x400),
    UInt16.ofNat (0xDC00 + (c.toNat - 0x10000) % 0x400)]

def utf16Units (chars : List Char) : Utf16 := chars.flatMap utf16Char

/-- How numbers are read. -/
structure NumberReading where
  int : Int → JsNumber
  decimal : (mantissa exponent : Int) → JsNumber
  int_of_le : ∀ n, n.natAbs ≤ 2 ^ 53 → int n = .rat n

namespace JsValue

variable (numbers : NumberReading)

mutual

def ofJson : Value → JsValue
  | .null                      => .null
  | .bool b                    => .bool b
  | .int n                     => .number (numbers.int n)
  | .decimal mantissa exponent => .number (numbers.decimal mantissa exponent)
  | .str chars                 => .str (utf16Units chars)
  | .arr elems                 => .arr (ofElems elems)
  | .obj members               => .obj (ofMembers members)

def ofElems : List Value → List JsValue
  | []      => []
  | v :: vs => ofJson v :: ofElems vs

def ofMembers : List (List Char × Value) → List (Utf16 × JsValue)
  | []              => []
  | (name, v) :: ms => (utf16Units name, ofJson v) :: ofMembers ms

end

theorem ofElems_eq_map (vs : List Value) : ofElems numbers vs = vs.map (ofJson numbers) := by
  induction vs with
  | nil => rfl
  | cons v vs ih => rw [ofElems, ih, List.map_cons]

/-- `JSON.parse`; `none` when it throws. -/
def parseJson (text : List Char) : Option JsValue := (parse text).map (ofJson numbers)

end JsValue

/-- A text of ASCII characters is a code unit for each. -/
theorem utf16Units_of_printable {chars : List Char} (h : chars.all printable = true) :
    utf16Units chars = chars.map fun c => UInt16.ofNat c.toNat := by
  induction chars with
  | nil => rfl
  | cons c chars ih =>
    rw [List.all_cons, Bool.and_eq_true] at h
    have hlt : c.toNat < 0x7F := (of_decide_eq_true h.1).2
    have hchar : utf16Char c = [UInt16.ofNat c.toNat] := if_pos (hlt.trans (by decide))
    rw [utf16Units, List.flatMap_cons, hchar]
    exact congrArg (_ :: ·) (ih h.2)

/-- The integers are exact, and the rest is not looked at. -/
def NumberReading.exact : NumberReading :=
  ⟨fun n => .rat n, fun mantissa _ => .rat mantissa, fun _ _ => rfl⟩
