-- SUMMARY: JSON texts: a parser for all of JSON, the compact text of flat objects, and the round trip between them.
import Mathlib.Algebra.Order.Ring.Nat
import Mathlib.Data.List.Basic

/-!
# JSON texts

Texts are lists of characters, and a parser takes what it reads off the front of one. The
parser knows the whole grammar; the printer only flat objects, in the compact form that
encoders choose. Every flat object is read back from its text.
-/

namespace JsonText

inductive Value where
  | null
  | bool (b : Bool)
  | int (n : Int)
  /-- A number written with a fraction or an exponent: `mantissa * 10 ^ exponent`. -/
  | decimal (mantissa : Int) (exponent : Int)
  | str (chars : List Char)
  | arr (elems : List Value)
  /-- The members in the order of the text. -/
  | obj (members : List (List Char × Value))

/-- What is read, and the text that is left. -/
abbrev Parser (α : Type) := List Char → Option (α × List Char)

/-! ## The parser -/

def isSpace (c : Char) : Bool := c = ' ' ∨ c = '\t' ∨ c = '\n' ∨ c = '\r'

def skipSpace (text : List Char) : List Char := text.dropWhile isSpace

/-- The rest of `true`, `false` or `null`. -/
def literal (letters : List Char) (v : Value) : Parser Value := fun text =>
  if letters.isPrefixOf text then some (v, text.drop letters.length) else none

def hexValue (c : Char) : Option Nat :=
  if c.isDigit then some (c.toNat - 48)
  else if 'a' ≤ c ∧ c ≤ 'f' then some (c.toNat - 87)
  else if 'A' ≤ c ∧ c ≤ 'F' then some (c.toNat - 55)
  else none

def hex4 : Parser Nat
  | a :: b :: c :: d :: rest => do
    some ((((← hexValue a) * 16 + (← hexValue b)) * 16 + (← hexValue c)) * 16 + (← hexValue d), rest)
  | _ => none

/-- `\uXXXX`, after the `u`. Two surrogates are one character; one alone is none. -/
def unicodeEscape : Parser Char := fun text => do
  let (unit, rest) ← hex4 text
  if 0xD800 ≤ unit ∧ unit < 0xDC00 then
    match rest with
    | '\\' :: 'u' :: rest =>
      let (low, rest) ← hex4 rest
      if 0xDC00 ≤ low ∧ low < 0xE000 then
        some (Char.ofNat (0x10000 + (unit - 0xD800) * 0x400 + (low - 0xDC00)), rest)
      else none
    | _ => none
  else if 0xDC00 ≤ unit ∧ unit < 0xE000 then none
  else some (Char.ofNat unit, rest)

/-- An escape, after the backslash. -/
def escape : Parser Char
  | '"' :: rest  => some ('"', rest)
  | '\\' :: rest => some ('\\', rest)
  | '/' :: rest  => some ('/', rest)
  | 'b' :: rest  => some ('\x08', rest)
  | 'f' :: rest  => some ('\x0c', rest)
  | 'n' :: rest  => some ('\n', rest)
  | 'r' :: rest  => some ('\r', rest)
  | 't' :: rest  => some ('\t', rest)
  | 'u' :: rest  => unicodeEscape rest
  | _            => none

/-- A string, after the opening quote. The number bounds its length. -/
def string : Nat → Parser (List Char)
  | 0, _          => none
  | _ + 1, []     => none
  | n + 1, c :: rest =>
    if c = '"' then some ([], rest)
    else if c = '\\' then do
      let (c, rest) ← escape rest
      let (cs, rest) ← string n rest
      some (c :: cs, rest)
    else if c.toNat < 0x20 then none
    else do
      let (cs, rest) ← string n rest
      some (c :: cs, rest)

def takeDigits (text : List Char) : List Char × List Char :=
  (text.takeWhile Char.isDigit, text.dropWhile Char.isDigit)

/-- `.` and digits, or nothing. -/
def fraction : Parser (List Char)
  | '.' :: rest =>
    let (digits, rest) := takeDigits rest
    if digits = [] then none else some (digits, rest)
  | text => some ([], text)

/-- `e`, a sign and digits, or nothing. -/
def exponent : Parser (Option Int) := fun text =>
  match text with
  | c :: rest =>
    if c = 'e' ∨ c = 'E' then
      let (negative, rest) := match rest with
        | '-' :: rest => (true, rest)
        | '+' :: rest => (false, rest)
        | _           => (false, rest)
      let (digits, rest) := takeDigits rest
      let n : Int := Nat.ofDigitChars 10 digits 0
      if digits = [] then none else some (some (if negative then -n else n), rest)
    else some (none, text)
  | [] => some (none, text)

/-- A number without the sign. -/
def unsigned (negative : Bool) : Parser Value := fun text => do
  let (whole, rest) := takeDigits text
  -- There is a digit, and no zero before others.
  if Nat.toDigits 10 (Nat.ofDigitChars 10 whole 0) ≠ whole then none
  let (decimals, rest) ← fraction rest
  let (power, rest) ← exponent rest
  let n : Int := Nat.ofDigitChars 10 (whole ++ decimals) 0
  let mantissa := if negative then -n else n
  if decimals = [] ∧ power = none then some (.int mantissa, rest)
  else some (.decimal mantissa (power.getD 0 - decimals.length), rest)

def number : Parser Value
  | '-' :: rest => unsigned true rest
  | text        => unsigned false text

section Items

variable {α : Type} (item : Parser α) (close : Char)

/-- Items with commas between them, and the closing bracket. -/
def items : Nat → Parser (List α)
  | 0, _ => none
  | n + 1, text => do
    let (x, rest) ← item text
    match skipSpace rest with
    | c :: rest =>
      if c = close then some ([x], rest)
      else if c = ',' then do
        let (xs, rest) ← items n rest
        some (x :: xs, rest)
      else none
    | [] => none

/-- The same after the opening bracket, where there may be no item. -/
def bracketed : Parser (List α) := fun text =>
  match skipSpace text with
  | c :: rest => if c = close then some ([], rest) else items item close text.length (c :: rest)
  | []        => none

end Items

/-- A name, a colon and a value. -/
def member (value : Parser Value) : Parser (List Char × Value) := fun text =>
  match skipSpace text with
  | '"' :: rest => do
    let (name, rest) ← string (rest.length + 1) rest
    match skipSpace rest with
    | ':' :: rest => do
      let (v, rest) ← value rest
      some ((name, v), rest)
    | _ => none
  | _ => none

/-- A value; the number bounds the nesting. -/
def value : Nat → Parser Value
  | 0, _ => none
  | n + 1, text =>
    match skipSpace text with
    | []        => none
    | c :: rest =>
      if c = '-' ∨ c.isDigit then number (c :: rest)
      else match c with
        | '"' => do
          let (cs, rest) ← string (rest.length + 1) rest
          some (.str cs, rest)
        | '[' => do
          let (vs, rest) ← bracketed (value n) ']' rest
          some (.arr vs, rest)
        | '{' => do
          let (ms, rest) ← bracketed (member (value n)) '}' rest
          some (.obj ms, rest)
        | 't' => literal ['r', 'u', 'e'] (.bool true) rest
        | 'f' => literal ['a', 'l', 's', 'e'] (.bool false) rest
        | 'n' => literal ['u', 'l', 'l'] .null rest
        | _   => none

/-- `none` is a syntax error. -/
def parse (text : List Char) : Option Value := do
  let (v, rest) ← value (text.length + 1) text
  if skipSpace rest = [] then some v else none

/-- The member of that name; a later one replaces an earlier one. -/
def Value.member (name : String) : Value → Option Value
  | .obj members => (members.reverse.find? (·.1 = name.toList)).map (·.2)
  | _            => none

/-! ## The printer -/

/-- The values of a flat object. -/
inductive Scalar where
  | bool (b : Bool)
  | int (n : Int)
  | str (chars : List Char)
  deriving DecidableEq

def Scalar.value : Scalar → Value
  | bool b    => .bool b
  | int n     => .int n
  | str chars => .str chars

abbrev Flat := List (List Char × Scalar)

def Flat.value (doc : Flat) : Value := .obj (doc.map fun m => (m.1, m.2.value))

/-- A digit below sixteen, in lower case. -/
def hexDigit (n : Nat) : Char := Char.ofNat (if n < 10 then 48 + n else 87 + n)

def escapeChar (c : Char) : List Char :=
  if c = '"' then ['\\', '"']
  else if c = '\\' then ['\\', '\\']
  else if c = '\x08' then ['\\', 'b']
  else if c = '\x0c' then ['\\', 'f']
  else if c = '\n' then ['\\', 'n']
  else if c = '\r' then ['\\', 'r']
  else if c = '\t' then ['\\', 't']
  else if c.toNat < 0x20 then
    ['\\', 'u', '0', '0', hexDigit (c.toNat / 16), hexDigit (c.toNat % 16)]
  else [c]

def quote (chars : List Char) : List Char := '"' :: chars.flatMap escapeChar ++ ['"']

def printInt : Int → List Char
  | .ofNat n   => Nat.toDigits 10 n
  | .negSucc n => '-' :: Nat.toDigits 10 (n + 1)

def Scalar.print : Scalar → List Char
  | bool true  => ['t', 'r', 'u', 'e']
  | bool false => ['f', 'a', 'l', 's', 'e']
  | int n      => printInt n
  | str chars  => quote chars

def printMember (m : List Char × Scalar) : List Char := quote m.1 ++ ':' :: m.2.print

def Flat.print (doc : Flat) : List Char :=
  '{' :: [','].intercalate (doc.map printMember) ++ ['}']

/-! ## Strings -/

theorem hexValue_hexDigit : ∀ n < 16, hexValue (hexDigit n) = some n := by decide

theorem hex4_control {n : Nat} (h : n < 0x20) (rest : List Char) :
    hex4 ('0' :: '0' :: hexDigit (n / 16) :: hexDigit (n % 16) :: rest) = some (n, rest) := by
  have hzero : hexValue '0' = some 0 := rfl
  simp only [hex4, hzero, hexValue_hexDigit (n / 16) (by omega), hexValue_hexDigit (n % 16) (by omega),
    Option.bind_eq_bind, Option.bind_some]
  congr 2
  omega

/-- A character is read back from its escape. -/
theorem string_escapeChar (c : Char) (n : Nat) (rest : List Char) :
    string (n + 1) (escapeChar c ++ rest) =
      (string n rest).bind fun (cs, rest) => some (c :: cs, rest) := by
  unfold escapeChar
  split
  · subst c; rfl
  split
  · subst c; rfl
  split
  · subst c; rfl
  split
  · subst c; rfl
  split
  · subst c; rfl
  split
  · subst c; rfl
  split
  · subst c; rfl
  split
  · rename_i hcontrol
    have hunit : unicodeEscape ('0' :: '0' :: hexDigit (c.toNat / 16) :: hexDigit (c.toNat % 16) ::
        rest) = some (c, rest) := by
      have hlow : ¬ (0xD800 ≤ c.toNat ∧ c.toNat < 0xDC00) := by omega
      have hhigh : ¬ (0xDC00 ≤ c.toNat ∧ c.toNat < 0xE000) := by omega
      simp only [unicodeEscape, hex4_control hcontrol, Option.bind_eq_bind, Option.bind_some, hlow,
        hhigh, if_false, Char.ofNat_toNat]
    exact congrArg (Option.bind · _) hunit
  · rename_i hquote hbackslash _ _ _ _ _ hcontrol
    exact (if_neg hquote).trans ((if_neg hbackslash).trans (if_neg hcontrol))

theorem string_quote (chars rest : List Char) {n : Nat} (h : chars.length < n) :
    string n (chars.flatMap escapeChar ++ '"' :: rest) = some (chars, rest) := by
  induction chars generalizing n with
  | nil =>
    cases n with
    | zero => cases h
    | succ n => rfl
  | cons c chars ih =>
    cases n with
    | zero => cases h
    | succ n =>
      rw [List.flatMap_cons, List.append_assoc, string_escapeChar, ih (Nat.lt_of_succ_lt_succ h)]
      rfl

/-! ## Scalars -/

/-- What follows a value in an object or an array. -/
def Follows (rest : List Char) : Prop :=
  ∃ tail, rest = ',' :: tail ∨ rest = '}' :: tail ∨ rest = ']' :: tail

theorem takeDigits_append {digits rest : List Char} (hdigits : ∀ c ∈ digits, c.isDigit = true)
    (hrest : Follows rest) : takeDigits (digits ++ rest) = (digits, rest) := by
  obtain ⟨tail, htail⟩ := hrest
  have hstop : rest.takeWhile Char.isDigit = [] ∧ rest.dropWhile Char.isDigit = rest := by
    rcases htail with rfl | rfl | rfl <;> exact ⟨rfl, rfl⟩
  rw [takeDigits, List.takeWhile_append_of_pos hdigits,
    List.dropWhile_append_of_pos hdigits, hstop.1, hstop.2, List.append_nil]

theorem unsigned_toDigits (negative : Bool) (n : Nat) {rest : List Char} (hrest : Follows rest) :
    unsigned negative (Nat.toDigits 10 n ++ rest) =
      some (.int (if negative then -n else n), rest) := by
  have hdigits : ∀ c ∈ Nat.toDigits 10 n, c.isDigit = true := fun _ =>
    Nat.isDigit_of_mem_toDigits (by decide) (by decide)
  have hfraction : fraction rest = some ([], rest) := by
    obtain ⟨tail, rfl | rfl | rfl⟩ := hrest <;> rfl
  have hexponent : exponent rest = some (none, rest) := by
    obtain ⟨tail, rfl | rfl | rfl⟩ := hrest <;> rfl
  simp [unsigned, takeDigits_append hdigits hrest, hfraction, hexponent]

/-- What an integer starts with. -/
theorem printInt_cases (n : Int) : ∃ c rest, printInt n = c :: rest ∧ (c = '-' ∨ c.isDigit = true) := by
  cases n with
  | ofNat n =>
    obtain ⟨c, rest, heq⟩ := List.exists_cons_of_ne_nil (Nat.toDigits_ne_nil (n := n) (b := 10))
    have hdigit : c.isDigit = true :=
      Nat.isDigit_of_mem_toDigits (b := 10) (n := n) (by decide) (by decide) (heq ▸ List.mem_cons_self)
    exact ⟨c, rest, heq, .inr hdigit⟩
  | negSucc n => exact ⟨'-', _, rfl, .inl rfl⟩

theorem number_printInt (n : Int) {rest : List Char} (hrest : Follows rest) :
    number (printInt n ++ rest) = some (.int n, rest) := by
  cases n with
  | ofNat n =>
    have hplain : number (Nat.toDigits 10 n ++ rest) = unsigned false (Nat.toDigits 10 n ++ rest) := by
      obtain ⟨c, digits, heq, hc⟩ := printInt_cases n
      have heq : Nat.toDigits 10 n = c :: digits := heq
      have hdigit : c.isDigit = true :=
        Nat.isDigit_of_mem_toDigits (b := 10) (n := n) (by decide) (by decide) (heq ▸ List.mem_cons_self)
      rw [heq]
      unfold number
      split
      · rename_i h
        obtain rfl := (List.cons.inj h).1
        cases hdigit
      · rfl
    exact hplain.trans (unsigned_toDigits false n hrest)
  | negSucc n => exact unsigned_toDigits true (n + 1) hrest

theorem skipSpace_cons {c : Char} {rest : List Char} (h : isSpace c = false) :
    skipSpace (c :: rest) = c :: rest :=
  List.dropWhile_cons_of_neg (by simp [h])

theorem length_le_escaped (chars : List Char) :
    chars.length ≤ (chars.flatMap escapeChar).length := by
  induction chars with
  | nil => exact Nat.zero_le _
  | cons c chars ih =>
    have hpos : 0 < (escapeChar c).length := by
      unfold escapeChar
      repeat' split
      all_goals exact Nat.succ_pos _
    simp only [List.flatMap_cons, List.length_append, List.length_cons]
    omega

/-- A string is read from its quoted text, after the opening quote. -/
theorem string_quote_tail (chars rest : List Char) :
    string ((chars.flatMap escapeChar ++ '"' :: rest).length + 1)
      (chars.flatMap escapeChar ++ '"' :: rest) = some (chars, rest) := by
  apply string_quote chars rest
  have hlen := length_le_escaped chars
  simp only [List.length_append, List.length_cons]
  omega

theorem value_print (s : Scalar) {n : Nat} {rest : List Char} (hrest : Follows rest) :
    value (n + 1) (s.print ++ rest) = some (s.value, rest) := by
  cases s with
  | bool b => cases b <;> rfl
  | int i =>
    obtain ⟨c, digits, heq, hc⟩ := printInt_cases i
    have hspace : isSpace c = false := by
      rcases hc with rfl | hdigit
      · rfl
      · refine decide_eq_false fun h => ?_
        rcases h with rfl | rfl | rfl | rfl <;> cases hdigit
    have hnumber := number_printInt i hrest
    rw [heq, List.cons_append] at hnumber
    simp only [Scalar.print, heq, List.cons_append, value, skipSpace_cons hspace, if_pos hc]
    exact hnumber
  | str chars =>
    have hread := string_quote_tail chars rest
    have htext : (Scalar.str chars).print ++ rest =
        '"' :: (chars.flatMap escapeChar ++ '"' :: rest) := by
      simp [Scalar.print, quote]
    rw [htext]
    exact congrArg (Option.bind · _) hread

/-! ## Objects -/

theorem member_printMember (m : List Char × Scalar) {n : Nat} {rest : List Char}
    (hrest : Follows rest) :
    member (value (n + 1)) (printMember m ++ rest) = some ((m.1, m.2.value), rest) := by
  have hname := string_quote_tail m.1 (':' :: (m.2.print ++ rest))
  have htext : printMember m ++ rest =
      '"' :: (m.1.flatMap escapeChar ++ '"' :: ':' :: (m.2.print ++ rest)) := by
    simp [printMember, quote]
  rw [htext]
  apply (congrArg (Option.bind · _) hname).trans
  exact congrArg (Option.bind · _) (value_print m.2 hrest)

/-- Printed members with commas between them are read one by one. -/
theorem items_printMember (doc : Flat) (hdoc : doc ≠ []) {n k : Nat} (hk : doc.length ≤ k)
    (rest : List Char) :
    items (member (value (n + 1))) '}' k
      ([','].intercalate (doc.map printMember) ++ '}' :: rest) =
      some (doc.map fun m => (m.1, m.2.value), rest) := by
  induction doc generalizing k with
  | nil => exact absurd rfl hdoc
  | cons m doc ih =>
    obtain ⟨k, rfl⟩ : ∃ j, k = j + 1 := ⟨k - 1, by simp only [List.length_cons] at hk; omega⟩
    cases doc with
    | nil =>
      have hfollows : Follows ('}' :: rest) := ⟨rest, .inr (.inl rfl)⟩
      have hread := member_printMember m (n := n) hfollows
      simp only [List.map_cons, List.map_nil, List.intercalate_singleton]
      exact congrArg (Option.bind · _) hread
    | cons m' doc =>
      have hfollows : Follows (',' ::
          ([','].intercalate ((m' :: doc).map printMember) ++ '}' :: rest)) := ⟨_, .inl rfl⟩
      have hread := member_printMember m (n := n) hfollows
      have hrest := ih (List.cons_ne_nil m' doc) (Nat.le_of_succ_le_succ hk)
      have htext : [','].intercalate ((m :: m' :: doc).map printMember) ++ '}' :: rest =
          printMember m ++ ',' :: ([','].intercalate ((m' :: doc).map printMember) ++ '}' :: rest) := by
        simp [List.intercalate_cons_cons]
      rw [htext]
      apply (congrArg (Option.bind · _) hread).trans
      exact congrArg (Option.bind · _) hrest

theorem length_le_print (doc : Flat) :
    doc.length ≤ ([','].intercalate (doc.map printMember)).length := by
  have hpos : ∀ m, 0 < (printMember m).length := fun m => by simp [printMember, quote]
  induction doc with
  | nil => exact Nat.zero_le _
  | cons m doc ih =>
    cases doc with
    | nil =>
      rw [List.map_singleton, List.intercalate_singleton]
      exact hpos m
    | cons m' doc =>
      simp only [List.map_cons, List.intercalate_cons_cons, List.length_append,
        List.length_cons] at ih ⊢
      omega

theorem length_printMember (name : List Char) (value : Scalar) :
    (printMember (name, value)).length = (quote name).length + value.print.length + 1 := by
  simp only [printMember, List.length_append, List.length_cons]
  omega

theorem length_print_le (doc : Flat) :
    doc.print.length ≤ (doc.map fun m => (printMember m).length + 1).sum + 2 := by
  have hitems : ([','].intercalate (doc.map printMember)).length ≤
      (doc.map fun m => (printMember m).length + 1).sum := by
    induction doc with
    | nil => exact Nat.zero_le _
    | cons m doc ih =>
      cases doc with
      | nil => simp
      | cons m' doc =>
        simp only [List.map_cons, List.intercalate_cons_cons, List.length_append, List.length_cons,
          List.length_nil, List.sum_cons] at ih ⊢
        omega
  simp only [Flat.print, List.length_append, List.length_cons, List.length_nil]
  omega

theorem bracketed_printMember (doc : Flat) (n : Nat) (rest : List Char) :
    bracketed (member (value (n + 1))) '}'
      ([','].intercalate (doc.map printMember) ++ '}' :: rest) =
      some (doc.map fun m => (m.1, m.2.value), rest) := by
  cases doc with
  | nil => rfl
  | cons m doc =>
    have hlen := length_le_print (m :: doc)
    have hitems := items_printMember (m :: doc) (List.cons_ne_nil m doc) (n := n)
      (Nat.le_trans hlen (Nat.le_add_right _ ('}' :: rest).length)) rest
    rw [← List.length_append] at hitems
    obtain ⟨tail, htail⟩ : ∃ tail, [','].intercalate ((m :: doc).map printMember) ++ '}' :: rest =
        '"' :: tail := by
      cases doc with
      | nil => simp [printMember, quote]
      | cons m' doc => simp [List.intercalate_cons_cons, printMember, quote]
    rw [htail] at hitems ⊢
    exact hitems

/-- Every flat object is read back from its text. -/
theorem parse_print (doc : Flat) : parse doc.print = some doc.value := by
  obtain ⟨n, hn⟩ : ∃ n, doc.print.length = n + 1 := ⟨_, rfl⟩
  have hvalue : value (doc.print.length + 1) doc.print = some (doc.value, []) := by
    rw [hn]
    exact congrArg (Option.bind · _) (bracketed_printMember doc n [])
  rw [parse, hvalue]
  rfl

/-! ## Printable texts -/

/-- A character of printable ASCII. -/
def printable (c : Char) : Bool := 0x20 ≤ c.toNat ∧ c.toNat < 0x7F

/-- A printable character that no encoder escapes. -/
def plain (c : Char) : Bool := printable c ∧ c ≠ '"' ∧ c ≠ '\\'

theorem printable_of_plain {c : Char} (h : plain c = true) : printable c = true :=
  (of_decide_eq_true h).1

/-- Only quotes and backslashes are escaped. -/
theorem escapeChar_of_printable {c : Char} (h : printable c = true) :
    escapeChar c = if c = '"' ∨ c = '\\' then ['\\', c] else [c] := by
  have hrange : 0x20 ≤ c.toNat := (of_decide_eq_true h).1
  by_cases hquote : c = '"'
  · subst c; rfl
  by_cases hbackslash : c = '\\'
  · subst c; rfl
  have hneither : ¬ (c = '"' ∨ c = '\\') := not_or.mpr ⟨hquote, hbackslash⟩
  rw [if_neg hneither, escapeChar, if_neg hquote, if_neg hbackslash]
  -- The other escapes are those of control characters.
  split
  · subst c; cases h
  split
  · subst c; cases h
  split
  · subst c; cases h
  split
  · subst c; cases h
  split
  · subst c; cases h
  · exact if_neg (by omega)

theorem quote_printable {chars : List Char} (h : chars.all printable = true) :
    (quote chars).all printable = true := by
  have hquote : printable '"' = true := by decide
  have hbackslash : printable '\\' = true := by decide
  simp only [List.all_eq_true] at h
  simp only [quote, List.cons_append, List.all_cons, List.all_append, List.all_nil, hquote,
    Bool.true_and, Bool.and_true, List.all_eq_true, List.mem_flatMap]
  rintro d ⟨c, hc, hd⟩
  rw [escapeChar_of_printable (h c hc)] at hd
  split at hd
  · rcases List.mem_cons.mp hd with rfl | hd
    · exact hbackslash
    · exact List.mem_singleton.mp hd ▸ h c hc
  · exact List.mem_singleton.mp hd ▸ h c hc

theorem quote_plain {chars : List Char} (h : chars.all plain = true) :
    quote chars = '"' :: chars ++ ['"'] := by
  have hescape : chars.flatMap escapeChar = chars := by
    induction chars with
    | nil => rfl
    | cons c chars ih =>
      rw [List.all_cons, Bool.and_eq_true] at h
      obtain ⟨hprintable, hquote, hbackslash⟩ := of_decide_eq_true h.1
      rw [List.flatMap_cons, ih h.2, escapeChar_of_printable hprintable,
        if_neg (by simp [hquote, hbackslash])]
      rfl
  rw [quote, hescape]

theorem printInt_printable (n : Int) : (printInt n).all printable = true := by
  have hdigits : ∀ k, (Nat.toDigits 10 k).all printable = true := by
    intro k
    rw [List.all_eq_true]
    intro c hc
    have hrange := Char.isDigit_iff_toNat.mp
      (Nat.isDigit_of_mem_toDigits (b := 10) (by decide) (by decide) hc)
    simp only [Char.reduceToNat] at hrange
    exact decide_eq_true ⟨by omega, by omega⟩
  cases n with
  | ofNat k => exact hdigits k
  | negSucc k => exact (Bool.and_eq_true _ _).mpr ⟨by decide, hdigits (k + 1)⟩

/-- The names and the strings of a document. -/
def Flat.strings (doc : Flat) : List (List Char) :=
  doc.flatMap fun m => m.1 :: match m.2 with
    | .str chars => [chars]
    | _          => []

theorem printMember_printable {m : List Char × Scalar}
    (h : ∀ chars ∈ Flat.strings [m], chars.all printable = true) :
    (printMember m).all printable = true := by
  have hcolon : printable ':' = true := by decide
  obtain ⟨name, s⟩ := m
  have hname := quote_printable (h name (by simp [Flat.strings]))
  have hvalue : s.print.all printable = true := by
    cases s with
    | bool b => cases b <;> decide
    | int n => exact printInt_printable n
    | str chars => exact quote_printable (h chars (by simp [Flat.strings]))
  rw [printMember, List.all_append, List.all_cons, hname, hcolon, hvalue]
  rfl

theorem print_printable {doc : Flat} (h : ∀ chars ∈ doc.strings, chars.all printable = true) :
    doc.print.all printable = true := by
  have hbody : ([','].intercalate (doc.map printMember)).all printable = true := by
    induction doc with
    | nil => rfl
    | cons m doc ih =>
      have hm : (printMember m).all printable = true :=
        printMember_printable fun chars hchars => h chars (by
          simp only [Flat.strings, List.flatMap_cons, List.flatMap_nil, List.append_nil] at hchars ⊢
          exact List.mem_append_left _ hchars)
      have hrest := ih fun chars hchars => h chars (by
        simp only [Flat.strings, List.flatMap_cons] at hchars ⊢
        exact List.mem_append_right _ hchars)
      cases doc with
      | nil => simpa using hm
      | cons m' doc =>
        have hcomma : printable ',' = true := by decide
        rw [List.map_cons, List.map_cons, List.intercalate_cons_cons, List.all_append,
          List.all_append, hm, ← List.map_cons, hrest]
        simpa using hcomma
  have hbraces : printable '{' = true ∧ printable '}' = true := by decide
  simp only [Flat.print, List.cons_append, List.all_cons, List.all_append, hbody, hbraces,
    List.all_nil, Bool.and_self]

end JsonText
