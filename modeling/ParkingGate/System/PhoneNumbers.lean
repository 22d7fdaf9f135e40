-- SUMMARY: Where the front end and the back end agree on phone numbers, and where they do not.
import Mathlib.Computability.RegularExpressions
import Mathlib.Tactic.IntervalCases
import ParkingGate.Frontend.Phone

/-!
# Phone numbers

The back end describes a phone number by a regular expression. The front end has a table of
prefixes, from which 056 and 057 are missing, and a validator that counts the digits of the
number and leaves the other characters where they are.
-/

namespace PhoneNumbers

open Frontend RegularExpression

/-! ## The pattern of the back end -/

/-- `[cs]` -/
def oneOf (cs : List Char) : RegularExpression Char := (cs.map char).sum

def digits : List Char := ['0', '1', '2', '3', '4', '5', '6', '7', '8', '9']

def areaPattern : RegularExpression Char :=
  char '0' * (char '2' + char '3' + char '4' + char '5' * oneOf digits + char '8' + char '9')

/-- `/^0(2|3|4|5[0-9]|8|9)[0-9]{7}$/` of `RegisterDto` and `UpdateMeDto` -/
def phonePattern : RegularExpression Char := areaPattern * oneOf digits ^ 7

def accepts (phone : String) : Bool := phonePattern.rmatch phone.toList

theorem mem_char {c : Char} {x : List Char} : x ∈ (char c).matches' ↔ x = [c] := Iff.rfl

theorem mem_oneOf {cs : List Char} {x : List Char} :
    x ∈ (oneOf cs).matches' ↔ ∃ c ∈ cs, x = [c] := by
  induction cs with
  | nil => simp [oneOf]
  | cons c cs ih =>
    rw [oneOf, List.map_cons, List.sum_cons, matches'_add, Language.mem_add, ← oneOf, ih, mem_char]
    simp

theorem mem_oneOf_pow {cs : List Char} {x : List Char} {k : Nat} :
    x ∈ (oneOf cs ^ k).matches' ↔ x.length = k ∧ ∀ c ∈ x, c ∈ cs := by
  rw [matches'_pow]
  induction k generalizing x with
  | zero =>
    rw [pow_zero, Language.mem_one, List.length_eq_zero_iff]
    exact ⟨fun hx => ⟨hx, by simp [hx]⟩, fun h => h.1⟩
  | succ k ih =>
    rw [pow_succ', Language.mem_mul]
    constructor
    · rintro ⟨a, ha, b, hb, rfl⟩
      obtain ⟨c, hc, rfl⟩ := mem_oneOf.mp ha
      obtain ⟨hlength, hall⟩ := ih.mp hb
      exact ⟨by simp [hlength], List.forall_mem_cons.mpr ⟨hc, hall⟩⟩
    · rintro ⟨hlength, hall⟩
      obtain ⟨c, b, rfl⟩ := List.exists_cons_of_length_eq_add_one hlength
      obtain ⟨hc, hb⟩ := List.forall_mem_cons.mp hall
      exact ⟨[c], mem_oneOf.mpr ⟨c, hc, rfl⟩, b, ih.mpr ⟨by simpa using hlength, hb⟩, rfl⟩

theorem mem_digits {c : Char} : c ∈ digits ↔ c.isDigit = true := by
  constructor
  · intro h
    simp only [digits, List.mem_cons, List.not_mem_nil, or_false] at h
    rcases h with rfl | rfl | rfl | rfl | rfl | rfl | rfl | rfl | rfl | rfl <;> decide
  · intro h
    have hrange : 48 ≤ c.toNat ∧ c.toNat ≤ 57 := by
      simpa [Char.isDigit, UInt32.le_iff_toNat_le] using h
    obtain ⟨hlow, hhigh⟩ := hrange
    rw [← Char.ofNat_toNat c]
    interval_cases c.toNat <;> decide

/-- The area codes of the pattern. -/
def areas : List String :=
  ["02", "03", "04"] ++ digits.map (fun c => String.ofList ['0', '5', c]) ++ ["08", "09"]

theorem rmatch_areas : ∀ p ∈ areas, areaPattern.rmatch p.toList = true := by decide +kernel

theorem mem_areaPattern {x : List Char} : x ∈ areaPattern.matches' ↔ ∃ p ∈ areas, x = p.toList := by
  constructor
  · intro h
    simp only [areaPattern, matches'_mul, matches'_add, Language.mem_mul, Language.mem_add, mem_char,
      mem_oneOf] at h
    obtain ⟨_, rfl, _, ((((rfl | rfl) | rfl) | ⟨_, rfl, _, ⟨c, hc, rfl⟩, rfl⟩) | rfl) | rfl, rfl⟩ := h
    · exact ⟨"02", by decide, rfl⟩
    · exact ⟨"03", by decide, rfl⟩
    · exact ⟨"04", by decide, rfl⟩
    · refine ⟨String.ofList ['0', '5', c], ?_, by simp⟩
      exact List.mem_append_left _ (List.mem_append_right _ (List.mem_map_of_mem hc))
    · exact ⟨"08", by decide, rfl⟩
    · exact ⟨"09", by decide, rfl⟩
  · rintro ⟨p, hp, rfl⟩
    exact (rmatch_iff_matches' _ _).mp (rmatch_areas p hp)

/-- Seven digits. -/
def IsNumber (n : String) : Prop := n.toList.length = 7 ∧ ∀ c ∈ n.toList, c.isDigit = true

/-- The pattern accepts an area code and seven digits. -/
theorem accepts_iff {s : String} : accepts s = true ↔ ∃ p ∈ areas, ∃ n, IsNumber n ∧ s = p ++ n := by
  rw [accepts, rmatch_iff_matches', phonePattern, matches'_mul, Language.mem_mul]
  constructor
  · rintro ⟨a, ha, b, hb, hab⟩
    obtain ⟨p, hp, rfl⟩ := mem_areaPattern.mp ha
    obtain ⟨hlength, hall⟩ := mem_oneOf_pow.mp hb
    refine ⟨p, hp, String.ofList b, ⟨?_, ?_⟩, String.toList_inj.mp ?_⟩
    · rwa [String.toList_ofList]
    · rw [String.toList_ofList]
      exact fun c hc => mem_digits.mp (hall c hc)
    · rw [String.toList_append, String.toList_ofList, hab]
  · rintro ⟨p, hp, n, hn, rfl⟩
    refine ⟨p.toList, mem_areaPattern.mpr ⟨p, hp, rfl⟩, n.toList, mem_oneOf_pow.mpr ?_, ?_⟩
    · exact ⟨hn.1, fun c hc => mem_digits.mpr (hn.2 c hc)⟩
    · rw [String.toList_append]

example : accepts "0501234567" = true := by decide +kernel

/-! ## Agreement -/

/-- The parser finds a listed prefix and a valid number, and has removed nothing. -/
def ParsesBack (s : String) : Prop :=
  (parsePhone s).phonePrefix ≠ "" ∧ (parsePhone s).phonePrefix ∈ ISRAEL_PHONE_PREFIXES ∧
    (parsePhone s).phonePrefix ++ (parsePhone s).number = s ∧
    validatePhoneNumber (parsePhone s).phonePrefix (parsePhone s).number = true

/-- A number with one of the two area codes that the front end does not list. -/
def Unlisted (s : String) : Prop := ∃ p ∈ ["056", "057"], ∃ n, IsNumber n ∧ s = p ++ n

/-- Seven digits with something else before, between or after them. -/
def Stray (n : String) : Prop := countDigits n = 7 ∧ ∃ c ∈ n.toList, c.isDigit = false

/-- A listed prefix, and seven digits among which there is something that the parser leaves. -/
def StrayAfterPrefix (s : String) : Prop :=
  ∃ p ∈ ISRAEL_PHONE_PREFIXES, ∃ n, (∀ c ∈ n.toList, isSeparator c = false) ∧ Stray n ∧ s = p ++ n

theorem listed_or_not : ∀ p ∈ areas, p ∈ ISRAEL_PHONE_PREFIXES ∨ p ∈ ["056", "057"] := by decide +kernel

theorem area_of_listed : ∀ p ∈ ISRAEL_PHONE_PREFIXES, p ∈ areas := by decide +kernel

theorem area_of_unlisted : ∀ p ∈ ["056", "057"], p ∈ areas ∧ p ∉ ISRAEL_PHONE_PREFIXES := by
  decide +kernel

theorem areas_prefixFree : ∀ p ∈ areas, ∀ q ∈ areas, p.toList <+: q.toList → p = q := by decide +kernel

theorem area_noSeparator : ∀ p ∈ areas, ∀ c ∈ p.toList, isSeparator c = false := by
  have hall : (areas.all fun p => p.toList.all fun c => !isSeparator c) = true := by decide +kernel
  intro p hp c hc
  simpa using List.all_eq_true.mp (List.all_eq_true.mp hall p hp) c hc

theorem digit_noSeparator {c : Char} (h : c.isDigit = true) : isSeparator c = false := by
  have hall : (digits.all fun c => !isSeparator c) = true := by decide
  simpa using List.all_eq_true.mp hall c (mem_digits.mpr h)

/-- A string starts with one area code at most. -/
theorem area_unique {p q n m : String} (hp : p ∈ areas) (hq : q ∈ areas) (h : p ++ n = q ++ m) :
    p = q ∧ n = m := by
  have hlist : p.toList ++ n.toList = q.toList ++ m.toList := by
    rw [← String.toList_append, h, String.toList_append]
  have hpq : p = q := by
    rcases List.prefix_or_prefix_of_prefix ⟨n.toList, hlist⟩ ⟨m.toList, rfl⟩ with hprefix | hprefix
    · exact areas_prefixFree p hp q hq hprefix
    · exact (areas_prefixFree q hq p hp hprefix).symm
  rw [hpq] at hlist
  exact ⟨hpq, String.toList_inj.mp (List.append_cancel_left hlist)⟩

theorem isNumber_iff {n : String} :
    IsNumber n ↔ countDigits n = 7 ∧ ∀ c ∈ n.toList, c.isDigit = true := by
  refine and_congr_left fun hall => ?_
  rw [countDigits, List.countP_eq_length.mpr hall]

theorem parsesBack_iff {s : String} :
    ParsesBack s ↔ ∃ p ∈ ISRAEL_PHONE_PREFIXES, ∃ n,
      (∀ c ∈ n.toList, isSeparator c = false) ∧ countDigits n = 7 ∧ s = p ++ n := by
  constructor
  · rintro ⟨hne, hmem, happend, hvalid⟩
    obtain ⟨-, hcleaned⟩ := (parsePhone_eq_iff (s := s) (n := (parsePhone s).number) hne).mp rfl
    rw [← String.toList_append, happend] at hcleaned
    refine ⟨_, hmem, _, fun c hc => ?_, (validatePhoneNumber_iff hmem _).mp hvalid, happend.symm⟩
    have hs : c ∈ s.toList := by
      rw [← happend, String.toList_append]
      exact List.mem_append_right _ hc
    simpa using List.filter_eq_self.mp hcleaned c hs
  · rintro ⟨p, hp, n, hseparators, hcount, rfl⟩
    have hcleaned : cleaned (p ++ n) = p.toList ++ n.toList := by
      rw [cleaned, String.toList_append]
      refine List.filter_eq_self.mpr fun c hc => ?_
      rcases List.mem_append.mp hc with hc | hc
      · simp [area_noSeparator p (area_of_listed p hp) c hc]
      · simp [hseparators c hc]
    have hparse := (parsePhone_eq_iff (ne_empty_of_mem p hp)).mpr ⟨hp, hcleaned⟩
    rw [ParsesBack, hparse]
    exact ⟨ne_empty_of_mem p hp, hp, rfl, (validatePhoneNumber_iff hp n).mpr hcount⟩

/-- The pattern and the parser differ on two area codes, and on numbers with stray characters. -/
theorem accepts_iff_parsesBack (s : String) :
    (accepts s = true ↔ ParsesBack s) ↔ ¬ Unlisted s ∧ ¬ StrayAfterPrefix s := by
  rw [accepts_iff, parsesBack_iff]
  constructor
  · intro h
    constructor
    · rintro ⟨p, hp, n, hn, rfl⟩
      obtain ⟨harea, hunlisted⟩ := area_of_unlisted p hp
      obtain ⟨q, hq, m, -, -, heq⟩ := h.mp ⟨p, harea, n, hn, rfl⟩
      obtain ⟨rfl, -⟩ := area_unique harea (area_of_listed q hq) heq
      exact hunlisted hq
    · rintro ⟨p, hp, n, hseparators, ⟨hcount, c, hc, hstray⟩, rfl⟩
      obtain ⟨q, hq, m, hm, heq⟩ := h.mpr ⟨p, hp, n, hseparators, hcount, rfl⟩
      obtain ⟨-, rfl⟩ := area_unique (area_of_listed p hp) hq heq
      simp [hm.2 c hc] at hstray
  · rintro ⟨hlisted, hclean⟩
    constructor
    · rintro ⟨p, hp, n, hn, rfl⟩
      refine ⟨p, (listed_or_not p hp).resolve_right fun hp => hlisted ⟨p, hp, n, hn, rfl⟩, n, ?_⟩
      exact ⟨fun c hc => digit_noSeparator (hn.2 c hc), (isNumber_iff.mp hn).1, rfl⟩
    · rintro ⟨p, hp, n, hseparators, hcount, rfl⟩
      refine ⟨p, area_of_listed p hp, n, isNumber_iff.mpr ⟨hcount, fun c hc => ?_⟩, rfl⟩
      by_contra hstray
      exact hclean ⟨p, hp, n, hseparators, ⟨hcount, c, hc, by simpa using hstray⟩, rfl⟩

/-- What the forms send is accepted, unless the number has stray characters. -/
theorem submitted_accepted_iff {p : String} (hp : p ∈ ISRAEL_PHONE_PREFIXES) (n : String) :
    (validatePhoneNumber p n = true → accepts (p ++ n) = true) ↔ ¬ Stray n := by
  rw [validatePhoneNumber_iff hp, accepts_iff]
  constructor
  · rintro h ⟨hcount, c, hc, hstray⟩
    obtain ⟨q, hq, m, hm, heq⟩ := h hcount
    obtain ⟨-, rfl⟩ := area_unique (area_of_listed p hp) hq heq
    simp [hm.2 c hc] at hstray
  · intro h hcount
    refine ⟨p, area_of_listed p hp, n, isNumber_iff.mpr ⟨hcount, fun c hc => ?_⟩, rfl⟩
    by_contra hstray
    exact h ⟨hcount, c, hc, by simpa using hstray⟩

/-- What is typed into the number field has no stray characters. -/
theorem typed_accepted {p : String} (hp : p ∈ ISRAEL_PHONE_PREFIXES) {typed phone : String}
    (h : submittedPhone ⟨p, typedNumber typed⟩ = some phone) : accepts phone = true := by
  obtain ⟨hvalid, heq⟩ := Option.ite_none_right_eq_some.mp h
  obtain rfl := Option.some.inj heq
  refine (submitted_accepted_iff hp _).mpr ?_ hvalid
  rintro ⟨-, c, hc, hstray⟩
  rw [typedNumber, String.toList_ofList] at hc
  have hdigit := (List.mem_filter.mp ((List.dropWhile_sublist _).mem hc)).2
  rw [hstray] at hdigit
  cases hdigit

/-- Both sides agree on a string, and on a submitted number, outside these exceptions only. -/
theorem phones_agree_iff (s p n : String) :
    (accepts s = true ↔ ParsesBack s) ∧
      (p ∈ ISRAEL_PHONE_PREFIXES → validatePhoneNumber p n = true → accepts (p ++ n) = true) ↔
    (¬ Unlisted s ∧ ¬ StrayAfterPrefix s) ∧ (p ∈ ISRAEL_PHONE_PREFIXES → ¬ Stray n) :=
  and_congr (accepts_iff_parsesBack s) (imp_congr_right fun hp => submitted_accepted_iff hp n)

/-- An area code that is not listed, and a number in which the validator skips a dash. -/
theorem phones_disagree :
    ¬ (accepts "0561234567" = true ↔ ParsesBack "0561234567") ∧
    ¬ (validatePhoneNumber "050" "123-4567" = true → accepts ("050" ++ "123-4567") = true) := by
  constructor
  · intro h
    have hparses := h.mp (by decide +kernel)
    exact hparses.1 (by decide +kernel)
  · decide +kernel

end PhoneNumbers
