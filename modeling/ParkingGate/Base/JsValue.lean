-- SUMMARY: The JavaScript values that JSON texts denote, their text under `String(v)`, and where it throws or is empty.
import Mathlib.Data.List.Basic

/-!
# JavaScript values

What `JSON.parse` returns. A text is a list of UTF-16 code units. A number is a rational,
a negative zero or an infinity, which covers every double that a JSON text can denote; how
JavaScript writes numbers is a parameter.

`String(v)` is partial. An object with a member `toString` hides the method of that name,
and as the member is never a function, the conversion throws.
-/

abbrev Utf16 := List UInt16

/-- The code units of an ASCII literal. -/
def utf16 (s : String) : Utf16 := s.toList.map fun c => UInt16.ofNat c.toNat

/-- `s.length`, which counts code units. -/
def textLength (s : String) : Nat :=
  s.toList.foldl (fun n c => n + if c.toNat < 0x10000 then 1 else 2) 0

inductive JsNumber where
  | rat (q : Rat)
  | negZero
  | infinity (negative : Bool)

inductive JsValue where
  | null
  | bool (b : Bool)
  | number (n : JsNumber)
  | str (t : Utf16)
  | arr (elems : List JsValue)
  | obj (members : List (Utf16 × JsValue))

/-- How numbers are written. No number is written as the empty text. -/
structure NumberText where
  text : JsNumber → Utf16
  text_ne_nil : ∀ n, text n ≠ []

namespace JsNumber

/-- How JavaScript writes integers of up to 15 digits, zeros and infinities. -/
def decimal : JsNumber → Utf16
  | .rat q      =>
    (if q.num < 0 then [45] else []) ++ (Nat.toDigits 10 q.num.natAbs).map (UInt16.ofNat ·.toNat)
  | .negZero    => utf16 "0"
  | .infinity b => if b then utf16 "-Infinity" else utf16 "Infinity"

theorem decimal_ne_nil (n : JsNumber) : n.decimal ≠ [] := by
  cases n with
  | rat q => simp [decimal, Nat.toDigits_ne_nil]
  | negZero => decide
  | infinity b => cases b <;> decide

/-- `n === k`. -/
def isNat (k : Nat) : JsNumber → Bool
  | .rat q      => q = k
  | .negZero    => k = 0
  | .infinity _ => false

end JsNumber

/-- The numbers as far as `JsNumber.decimal` goes. -/
def NumberText.decimal : NumberText := ⟨JsNumber.decimal, JsNumber.decimal_ne_nil⟩

namespace JsValue

/-- `v[key]`, `none` for undefined. The last of several equal keys counts. -/
def get (key : String) : JsValue → Option JsValue
  | .obj members => (members.reverse.find? fun m => m.1 = utf16 key).map (·.2)
  | _            => none

mutual

/-- `String(v)`; `none` when it throws. -/
def toText (numbers : NumberText) : JsValue → Option Utf16
  | .null        => some (utf16 "null")
  | .bool b      => some (if b then utf16 "true" else utf16 "false")
  | .number n    => some (numbers.text n)
  | .str t       => some t
  | .arr elems   => (elemTexts numbers elems).map (List.intercalate (utf16 ","))
  | .obj members =>
    if ((JsValue.obj members).get "toString").isSome then none
    else some (utf16 "[object Object]")

/-- The texts that `join` puts together: nothing for null. -/
def elemTexts (numbers : NumberText) : List JsValue → Option (List Utf16)
  | []            => some []
  | .null :: vs   => (elemTexts numbers vs).map ([] :: ·)
  | v :: vs       => (toText numbers v).bind fun t => (elemTexts numbers vs).map (t :: ·)

end

/-- A value without a text: an object that hides `toString`, or an array with such an element. -/
inductive Untextable : JsValue → Prop where
  | obj {members : List (Utf16 × JsValue)} (h : ((JsValue.obj members).get "toString").isSome) :
      Untextable (.obj members)
  | arr {elems : List JsValue} {v : JsValue} (hv : v ∈ elems) (h : Untextable v) :
      Untextable (.arr elems)

/-- A value with the empty text: the empty text itself, or an array of at most one element that
    is null or has the empty text. -/
inductive Blank : JsValue → Prop where
  | str : Blank (.str [])
  | nil : Blank (.arr [])
  | null : Blank (.arr [.null])
  | single {v : JsValue} (h : Blank v) : Blank (.arr [v])

variable (numbers : NumberText)

/-- The text of an array element. -/
def elemText : JsValue → Option Utf16
  | .null => some []
  | v     => v.toText numbers

theorem elemTexts_cons (v : JsValue) (vs : List JsValue) :
    elemTexts numbers (v :: vs) =
      (elemText numbers v).bind fun t => (elemTexts numbers vs).map (t :: ·) := by
  cases v <;> rfl

theorem elemText_eq_none_iff {v : JsValue} :
    elemText numbers v = none ↔ v.toText numbers = none := by
  cases v with
  | null => simp [elemText, toText]
  | bool | number | str | arr | obj => exact Iff.rfl

theorem elemText_eq_nil_iff {v : JsValue} :
    elemText numbers v = some [] ↔ v = .null ∨ v.toText numbers = some [] := by
  cases v with
  | null => simp [elemText]
  | bool | number | str | arr | obj => simp [elemText]

mutual

theorem toText_eq_none_iff : ∀ v : JsValue, v.toText numbers = none ↔ v.Untextable
  | .null     => by simp [toText]; nofun
  | .bool b   => by simp [toText]; nofun
  | .number n => by simp [toText]; nofun
  | .str t    => by simp [toText]; nofun
  | .arr elems => by
    rw [toText, Option.map_eq_none_iff, elemTexts_eq_none_iff elems]
    constructor
    · rintro ⟨v, hv, h⟩
      exact .arr hv h
    · rintro (_ | ⟨hv, h⟩)
      exact ⟨_, hv, h⟩
  | .obj members => by
    rw [toText]
    constructor
    · intro h
      split at h
      · rename_i hkey
        exact .obj hkey
      · cases h
    · rintro (h | _)
      exact if_pos h

theorem elemTexts_eq_none_iff :
    ∀ vs : List JsValue, elemTexts numbers vs = none ↔ ∃ v ∈ vs, v.Untextable
  | [] => by simp [elemTexts]
  | v :: vs => by
    rw [List.exists_mem_cons_iff, ← toText_eq_none_iff v, ← elemTexts_eq_none_iff vs,
      ← elemText_eq_none_iff, elemTexts_cons]
    cases elemText numbers v <;> simp

end

/-- With a separator, joined texts are empty only when there is at most one, and that is empty. -/
theorem intercalate_eq_nil_iff {sep : Utf16} (hsep : sep ≠ []) {ts : List Utf16} :
    List.intercalate sep ts = [] ↔ ts = [] ∨ ts = [[]] := by
  match ts with
  | []          => simp [List.intercalate]
  | [t]         => simp [List.intercalate]
  | t :: u :: _ => simp [List.intercalate, hsep]

theorem toText_arr_eq_nil_iff {elems : List JsValue} :
    (JsValue.arr elems).toText numbers = some [] ↔
      elems = [] ∨ ∃ v, elems = [v] ∧ elemText numbers v = some [] := by
  have hjoin : (JsValue.arr elems).toText numbers = some [] ↔
      elemTexts numbers elems = some [] ∨ elemTexts numbers elems = some [[]] := by
    rw [toText, Option.map_eq_some_iff]
    simp only [intercalate_eq_nil_iff (show utf16 "," ≠ [] by decide)]
    constructor
    · rintro ⟨ts, hts, rfl | rfl⟩
      · exact .inl hts
      · exact .inr hts
    · rintro (h | h)
      · exact ⟨_, h, .inl rfl⟩
      · exact ⟨_, h, .inr rfl⟩
  rw [hjoin]
  match elems with
  | []          => simp [elemTexts]
  | [v]         => cases h : elemText numbers v <;> simp [elemTexts_cons, h, elemTexts]
  | v :: w :: _ =>
    simp only [elemTexts_cons]
    cases elemText numbers v <;> cases elemText numbers w <;> simp

/-- The text is empty for the blank values only. -/
theorem toText_eq_nil_iff : ∀ v : JsValue, v.toText numbers = some [] ↔ v.Blank
  | .null => by
    refine iff_of_false ?_ nofun
    simp only [toText, Option.some.injEq]
    decide
  | .bool b => by
    refine iff_of_false ?_ nofun
    cases b
    · simp only [toText, Option.some.injEq]
      decide
    · simp only [toText, Option.some.injEq]
      decide
  | .number n => by
    refine iff_of_false ?_ nofun
    simpa [toText] using numbers.text_ne_nil n
  | .str t => by
    simp only [toText, Option.some.injEq]
    constructor
    · rintro rfl
      exact .str
    · rintro (_ | _)
      rfl
  | .arr elems => by
    rw [toText_arr_eq_nil_iff]
    constructor
    · rintro (rfl | ⟨v, rfl, hv⟩)
      · exact .nil
      · rcases (elemText_eq_nil_iff numbers).mp hv with rfl | hv
        · exact .null
        · exact .single ((toText_eq_nil_iff v).mp hv)
    · rintro (_ | _ | _ | @⟨v, hv⟩)
      · exact .inl rfl
      · exact .inr ⟨_, rfl, rfl⟩
      · exact .inr ⟨v, rfl, (elemText_eq_nil_iff numbers).mpr (.inr ((toText_eq_nil_iff v).mpr hv))⟩
  | .obj members => by
    refine iff_of_false ?_ nofun
    rw [toText]
    split
    · simp
    · simp only [Option.some.injEq]
      decide

end JsValue
