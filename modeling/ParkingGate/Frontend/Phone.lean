-- SUMMARY: Phone numbers in the front end (`lib/phone.ts` and the fields of the forms): the listed prefixes, the parser and the validator.
import ParkingGate.Base.JsValue
import ParkingGate.Backend.AdminService

/-!
# Phone numbers in the front end

A string of the source is read as the list of its characters. The parser cuts off two or three
code units and looks them up in a table. No entry of a table has a character that takes two, so
that the parser may as well cut off characters. The validator measures the prefix, which may be
any text, and measures it in code units.
-/

namespace Frontend

open Backend.AdminService (isWhiteSpace)

/-- The values of the options; the labels are the same. -/
def ISRAEL_PHONE_PREFIXES : List String :=
  ["050", "051", "052", "053", "054", "055", "058", "059", "02", "03", "04", "08", "09"]

structure Phone where
  phonePrefix : String
  number : String
  deriving DecidableEq, Repr

/-- `[\s-]` -/
def isSeparator (c : Char) : Bool := isWhiteSpace c || c == '-'

/-- `phone.replace(/[\s-]/g, "")` -/
def cleaned (phone : String) : List Char := phone.toList.filter fun c => !isSeparator c

def mobilePrefixes : List String := ["050", "051", "052", "053", "054", "055", "058", "059"]

def landlinePrefixes : List String := ["02", "03", "04", "08", "09"]

def parsePhone (phone : String) : Phone :=
  if phone = "" then
    ⟨"", ""⟩
  else
    let cleaned := cleaned phone
    if !("0".toList.isPrefixOf cleaned) then
      ⟨"", ""⟩
    else if 3 ≤ cleaned.length ∧ "05".toList.isPrefixOf cleaned ∧
        String.ofList (cleaned.take 3) ∈ mobilePrefixes then
      ⟨String.ofList (cleaned.take 3), String.ofList (cleaned.drop 3)⟩
    else if 2 ≤ cleaned.length ∧ String.ofList (cleaned.take 2) ∈ landlinePrefixes then
      ⟨String.ofList (cleaned.take 2), String.ofList (cleaned.drop 2)⟩
    else ⟨"", ""⟩

def validatePhoneNumber (phonePrefix number : String) : Bool :=
  if phonePrefix = "" ∨ number = "" then
    false
  else
    let cleanedNumber := number.toList.filter Char.isDigit
    if "05".toList.isPrefixOf phonePrefix.toList ∧ textLength phonePrefix = 3 then
      cleanedNumber.length = 7
    else if phonePrefix ∈ landlinePrefixes then
      cleanedNumber.length = 7
    else false

/-! ## The fields of a form -/

/-- The number field keeps the digits of what is typed, without the zeros in front. -/
def typedNumber (typed : String) : String :=
  String.ofList ((typed.toList.filter Char.isDigit).dropWhile (· == '0'))

/-- `handleSubmit`: the phone number it sends, if the fields are valid. -/
def submittedPhone (fields : Phone) : Option String :=
  if validatePhoneNumber fields.phonePrefix fields.number then
    some (fields.phonePrefix ++ fields.number)
  else none

/-! ## What they compute -/

theorem mem_ISRAEL_PHONE_PREFIXES {p : String} :
    p ∈ ISRAEL_PHONE_PREFIXES ↔ p ∈ mobilePrefixes ∨ p ∈ landlinePrefixes := by
  rw [show ISRAEL_PHONE_PREFIXES = mobilePrefixes ++ landlinePrefixes from rfl, List.mem_append]

theorem mobilePrefix {p : String} (hp : p ∈ mobilePrefixes) : ∃ c, p.toList = ['0', '5', c] := by
  simp only [mobilePrefixes, List.mem_cons, List.not_mem_nil, or_false] at hp
  rcases hp with rfl | rfl | rfl | rfl | rfl | rfl | rfl | rfl <;> exact ⟨_, rfl⟩

theorem textLength_mobilePrefix : ∀ p ∈ mobilePrefixes, textLength p = 3 := by decide

theorem landlinePrefix {p : String} (hp : p ∈ landlinePrefixes) :
    ∃ c, p.toList = ['0', c] ∧ c ≠ '5' := by
  simp only [landlinePrefixes, List.mem_cons, List.not_mem_nil, or_false] at hp
  rcases hp with rfl | rfl | rfl | rfl | rfl <;> exact ⟨_, rfl, by decide⟩

theorem ne_empty_of_mem : ∀ p ∈ ISRAEL_PHONE_PREFIXES, p ≠ "" := by decide

/-- The parser splits what is left of a number after a listed prefix. -/
theorem parsePhone_eq_iff {s p n : String} (hp : p ≠ "") :
    parsePhone s = ⟨p, n⟩ ↔ p ∈ ISRAEL_PHONE_PREFIXES ∧ cleaned s = p.toList ++ n.toList := by
  have hnone : (⟨"", ""⟩ : Phone) ≠ ⟨p, n⟩ := fun h => hp (congrArg Phone.phonePrefix h).symm
  constructor
  · intro h
    simp only [parsePhone] at h
    split at h
    · exact absurd h hnone
    split at h
    · exact absurd h hnone
    split at h
    · rename_i hmobile
      obtain ⟨rfl, rfl⟩ := Phone.mk.inj h
      exact ⟨mem_ISRAEL_PHONE_PREFIXES.mpr (.inl hmobile.2.2), by simp⟩
    split at h
    · rename_i hlandline
      obtain ⟨rfl, rfl⟩ := Phone.mk.inj h
      exact ⟨mem_ISRAEL_PHONE_PREFIXES.mpr (.inr hlandline.2), by simp⟩
    · exact absurd h hnone
  · rintro ⟨hmem, hcleaned⟩
    have hs : s ≠ "" := by
      rintro rfl
      refine hp (String.toList_eq_nil_iff.mp (List.append_eq_nil_iff.mp hcleaned.symm).1)
    simp only [parsePhone, if_neg hs]
    rcases mem_ISRAEL_PHONE_PREFIXES.mp hmem with hmobile | hlandline
    · obtain ⟨c, htext⟩ := mobilePrefix hmobile
      rw [htext] at hcleaned
      have hprefix : String.ofList ['0', '5', c] = p := by rw [← htext, String.ofList_toList]
      simp [hcleaned, hprefix, hmobile]
    · obtain ⟨c, htext, hne⟩ := landlinePrefix hlandline
      have hprefix : String.ofList ['0', c] = p := by rw [← htext, String.ofList_toList]
      rw [htext] at hcleaned
      simp [hcleaned, hprefix, hlandline, hne.symm]

def countDigits (number : String) : Nat := number.toList.countP Char.isDigit

/-- After a listed prefix the validator counts digits. -/
theorem validatePhoneNumber_iff {p : String} (hp : p ∈ ISRAEL_PHONE_PREFIXES) (n : String) :
    validatePhoneNumber p n = true ↔ countDigits n = 7 := by
  by_cases hn : n = ""
  · simp [validatePhoneNumber, hn, countDigits]
  have hempty : ¬ (p = "" ∨ n = "") := not_or.mpr ⟨ne_empty_of_mem p hp, hn⟩
  simp only [validatePhoneNumber, if_neg hempty, countDigits, ← List.countP_eq_length_filter]
  rcases mem_ISRAEL_PHONE_PREFIXES.mp hp with hmobile | hlandline
  · obtain ⟨c, htext⟩ := mobilePrefix hmobile
    simp [htext, textLength_mobilePrefix p hmobile]
  · obtain ⟨c, htext, hne⟩ := landlinePrefix hlandline
    simp [htext, hlandline, hne.symm]

end Frontend
