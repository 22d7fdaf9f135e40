-- SUMMARY: JSON documents of any nesting: their compact text, and that every document is read back from its text.
import ParkingGate.Base.JsonText

/-!
# JSON documents

The scalars of `JsonText`, nested in objects and arrays. Both are items with commas between
them, and one lemma about separated items, of whatever kind, reads them back.
-/

namespace JsonText

inductive Document where
  | scalar (s : Scalar)
  | arr (elems : List Document)
  | obj (members : List (List Char × Document))

namespace Document

/-! ## Values and texts -/

mutual

def value : Document → Value
  | scalar s    => s.value
  | arr elems   => .arr (values elems)
  | obj members => .obj (memberValues members)

def values : List Document → List Value
  | []      => []
  | d :: ds => d.value :: values ds

def memberValues : List (List Char × Document) → List (List Char × Value)
  | []              => []
  | (name, d) :: ms => (name, d.value) :: memberValues ms

end

mutual

def print : Document → List Char
  | scalar s    => s.print
  | arr elems   => '[' :: [','].intercalate (printElems elems) ++ [']']
  | obj members => '{' :: [','].intercalate (printMembers members) ++ ['}']

def printElems : List Document → List (List Char)
  | []      => []
  | d :: ds => d.print :: printElems ds

def printMembers : List (List Char × Document) → List (List Char)
  | []              => []
  | (name, d) :: ms => (quote name ++ ':' :: d.print) :: printMembers ms

end

mutual

/-- The names and the strings of a document. -/
def strings : Document → List (List Char)
  | scalar (.str chars) => [chars]
  | scalar _            => []
  | arr elems           => elemStrings elems
  | obj members         => memberStrings members

def elemStrings : List Document → List (List Char)
  | []      => []
  | d :: ds => d.strings ++ elemStrings ds

def memberStrings : List (List Char × Document) → List (List Char)
  | []              => []
  | (name, d) :: ms => name :: (d.strings ++ memberStrings ms)

end

mutual

/-- The integers of a document. -/
def ints : Document → List Int
  | scalar (.int n) => [n]
  | scalar _        => []
  | arr elems       => elemInts elems
  | obj members     => memberInts members

def elemInts : List Document → List Int
  | []      => []
  | d :: ds => d.ints ++ elemInts ds

def memberInts : List (List Char × Document) → List Int
  | []           => []
  | (_, d) :: ms => d.ints ++ memberInts ms

end

@[simp] theorem values_eq_map (ds : List Document) : values ds = ds.map value := by
  induction ds with
  | nil => rfl
  | cons d ds ih => rw [values, ih, List.map_cons]

@[simp] theorem memberValues_eq_map (ms : List (List Char × Document)) :
    memberValues ms = ms.map fun m => (m.1, m.2.value) := by
  induction ms with
  | nil => rfl
  | cons m ms ih => rw [memberValues, ih, List.map_cons]

theorem elemStrings_eq_flatMap (ds : List Document) : elemStrings ds = ds.flatMap strings := by
  induction ds with
  | nil => rfl
  | cons d ds ih => rw [elemStrings, ih, List.flatMap_cons]

theorem elemInts_eq_flatMap (ds : List Document) : elemInts ds = ds.flatMap ints := by
  induction ds with
  | nil => rfl
  | cons d ds ih => rw [elemInts, ih, List.flatMap_cons]

end Document

/-! ## Separated items -/

section Items

variable {α : Type} {item : Parser α} {close : Char}

/-- The parser reads `x` from the text, whatever follows a value after it. -/
def Reads (item : Parser α) (text : List Char) (x : α) : Prop :=
  ∀ rest, Follows rest → item (text ++ rest) = some (x, rest)

/-- The text begins with neither a space nor a closing bracket. -/
def Begins (text : List Char) : Prop :=
  ∃ c tail, text = c :: tail ∧ isSpace c = false ∧ c ≠ '}' ∧ c ≠ ']'

/-- Items that are read one by one are read with commas between them. -/
theorem items_intercalate {texts : List (List Char)} {xs : List α}
    (h : List.Forall₂ (Reads item) texts xs) (hne : texts ≠ []) (hclose : close = '}' ∨ close = ']')
    {k : Nat} (hk : texts.length ≤ k) (rest : List Char) :
    items item close k ([','].intercalate texts ++ close :: rest) = some (xs, rest) := by
  have hspace : skipSpace (close :: rest) = close :: rest := by
    rcases hclose with rfl | rfl <;> rfl
  have hends : Follows (close :: rest) := by
    rcases hclose with rfl | rfl
    · exact ⟨rest, .inr (.inl rfl)⟩
    · exact ⟨rest, .inr (.inr rfl)⟩
  induction h generalizing k with
  | nil => exact absurd rfl hne
  | @cons text x texts xs hread htexts ih =>
    obtain ⟨k, rfl⟩ : ∃ j, k = j + 1 := ⟨k - 1, by simp only [List.length_cons] at hk; omega⟩
    cases htexts with
    | nil =>
      rw [List.intercalate_singleton, items, hread _ hends]
      simp only [Option.bind_eq_bind, Option.bind_some, hspace, if_true]
    | @cons text' x' texts xs hread' htexts =>
      have hcomma : Follows (',' :: ([','].intercalate (text' :: texts) ++ close :: rest)) :=
        ⟨_, .inl rfl⟩
      have hcloses : ',' ≠ close := by
        rcases hclose with rfl | rfl <;> decide
      have htext : [','].intercalate (text :: text' :: texts) ++ close :: rest =
          text ++ ',' :: ([','].intercalate (text' :: texts) ++ close :: rest) := by
        simp [List.intercalate_cons_cons]
      have hskip : skipSpace (',' :: ([','].intercalate (text' :: texts) ++ close :: rest)) =
          ',' :: ([','].intercalate (text' :: texts) ++ close :: rest) := rfl
      have hlater := ih (List.cons_ne_nil _ _) (Nat.le_of_succ_le_succ hk)
      rw [htext, items, hread _ hcomma]
      simp only [Option.bind_eq_bind, Option.bind_some, hskip, hcloses, if_false, if_true, hlater]

theorem length_le_intercalate {texts : List (List Char)} (h : ∀ t ∈ texts, Begins t) :
    texts.length ≤ ([','].intercalate texts).length := by
  induction texts with
  | nil => exact Nat.zero_le _
  | cons text texts ih =>
    obtain ⟨c, tail, rfl, -⟩ := h text List.mem_cons_self
    have hrest := ih fun t ht => h t (List.mem_cons_of_mem _ ht)
    cases texts with
    | nil => simp
    | cons text' texts =>
      simp only [List.intercalate_cons_cons, List.length_append, List.length_cons] at hrest ⊢
      omega

/-- The same between brackets. -/
theorem bracketed_intercalate {texts : List (List Char)} {xs : List α}
    (h : List.Forall₂ (Reads item) texts xs) (hbegins : ∀ t ∈ texts, Begins t)
    (hclose : close = '}' ∨ close = ']') (rest : List Char) :
    bracketed item close ([','].intercalate texts ++ close :: rest) = some (xs, rest) := by
  cases h with
  | nil =>
    rcases hclose with rfl | rfl <;> rfl
  | @cons text x texts xs hread htexts =>
    have hlen := length_le_intercalate hbegins
    obtain ⟨c, tail, htext, hspace, hbrace, hbracket⟩ := hbegins text List.mem_cons_self
    have hitems := items_intercalate (.cons hread htexts) (List.cons_ne_nil _ _) hclose
      (Nat.le_trans hlen (Nat.le_add_right _ (close :: rest).length)) rest
    rw [← List.length_append] at hitems
    obtain ⟨tail', htail⟩ : ∃ tail', [','].intercalate (text :: texts) ++ close :: rest = c :: tail' := by
      rw [htext]
      cases texts with
      | nil =>
        rw [List.intercalate_singleton]
        exact ⟨_, rfl⟩
      | cons text' texts =>
        rw [List.intercalate_cons_cons]
        exact ⟨_, rfl⟩
    have hne : c ≠ close := by
      rcases hclose with rfl | rfl
      · exact hbrace
      · exact hbracket
    rw [htail] at hitems ⊢
    simp only [bracketed, skipSpace_cons hspace, hne, if_false]
    exact hitems

end Items

/-! ## The round trip -/

namespace Document

theorem begins_quote (chars tail : List Char) : Begins (quote chars ++ tail) :=
  ⟨'"', _, rfl, rfl, by decide, by decide⟩

theorem begins_print (d : Document) : Begins d.print := by
  cases d with
  | arr elems => exact ⟨'[', _, rfl, rfl, by decide, by decide⟩
  | obj members => exact ⟨'{', _, rfl, rfl, by decide, by decide⟩
  | scalar s =>
    cases s with
    | bool b => cases b <;> exact ⟨_, _, rfl, rfl, by decide, by decide⟩
    | str chars => exact ⟨'"', _, rfl, rfl, by decide, by decide⟩
    | int n =>
      obtain ⟨c, rest, heq, hc⟩ := printInt_cases n
      refine ⟨c, rest, heq, decide_eq_false fun h => ?_, ?_, ?_⟩
      · rcases hc with rfl | hdigit
        · exact absurd h (by decide)
        · rcases h with rfl | rfl | rfl | rfl <;> cases hdigit
      · rintro rfl
        rcases hc with h | hdigit
        · cases h
        · cases hdigit
      · rintro rfl
        rcases hc with h | hdigit
        · cases h
        · cases hdigit

theorem begins_printElems (ds : List Document) : ∀ t ∈ printElems ds, Begins t := by
  induction ds with
  | nil => simp [printElems]
  | cons d ds ih => exact List.forall_mem_cons.mpr ⟨d.begins_print, ih⟩

theorem begins_printMembers (ms : List (List Char × Document)) : ∀ t ∈ printMembers ms, Begins t := by
  induction ms with
  | nil => simp [printMembers]
  | cons m ms ih => exact List.forall_mem_cons.mpr ⟨begins_quote m.1 _, ih⟩

/-- A part of a separated text is not longer than the whole. -/
theorem length_le_of_mem {t : List Char} {texts : List (List Char)} (h : t ∈ texts) :
    t.length ≤ ([','].intercalate texts).length := by
  induction texts with
  | nil => cases h
  | cons text texts ih =>
    cases texts with
    | nil =>
      obtain rfl := List.mem_singleton.mp h
      simp
    | cons text' texts =>
      simp only [List.intercalate_cons_cons, List.length_append, List.length_cons] at ih ⊢
      rcases List.mem_cons.mp h with rfl | h
      · omega
      · have := ih h
        omega

theorem value_arr {elems : List Document} {n : Nat}
    (h : List.Forall₂ (Reads (JsonText.value n)) (printElems elems) (values elems)) (rest : List Char) :
    JsonText.value (n + 1) ((arr elems).print ++ rest) = some ((arr elems).value, rest) := by
  have hbracketed := bracketed_intercalate h (begins_printElems elems) (.inr rfl) rest
  have htext : (arr elems).print ++ rest =
      '[' :: ([','].intercalate (printElems elems) ++ ']' :: rest) := by
    simp [print]
  rw [htext, value]
  exact congrArg (Option.bind · _) hbracketed

theorem value_obj {members : List (List Char × Document)} {n : Nat}
    (h : List.Forall₂ (Reads (member (JsonText.value n))) (printMembers members) (memberValues members))
    (rest : List Char) :
    JsonText.value (n + 1) ((obj members).print ++ rest) = some ((obj members).value, rest) := by
  have hbracketed := bracketed_intercalate h (begins_printMembers members) (.inl rfl) rest
  have htext : (obj members).print ++ rest =
      '{' :: ([','].intercalate (printMembers members) ++ '}' :: rest) := by
    simp [print]
  rw [htext, value]
  exact congrArg (Option.bind · _) hbracketed

theorem length_lt_print_arr {elems : List Document} {t : List Char} (h : t ∈ printElems elems) :
    t.length + 1 < (arr elems).print.length := by
  have := length_le_of_mem h
  simp only [print, List.length_append, List.length_cons]
  omega

theorem length_lt_print_obj {members : List (List Char × Document)} {t : List Char}
    (h : t ∈ printMembers members) : t.length + 1 < (obj members).print.length := by
  have := length_le_of_mem h
  simp only [print, List.length_append, List.length_cons]
  omega

mutual

/-- A document is read from its text, if the nesting may be as deep as the text is long. -/
theorem reads_print : ∀ (d : Document) {n : Nat}, d.print.length < n →
    Reads (JsonText.value n) d.print d.value
  | scalar s, _ + 1, _ => fun _ hrest => value_print s hrest
  | arr elems, _ + 1, h => fun rest _ =>
    value_arr (reads_printElems elems fun _ ht =>
      Nat.lt_of_succ_lt_succ ((length_lt_print_arr ht).trans h)) rest
  | obj members, _ + 1, h => fun rest _ =>
    value_obj (reads_printMembers members fun _ ht =>
      Nat.lt_of_succ_lt_succ ((length_lt_print_obj ht).trans h)) rest

theorem reads_printElems : ∀ (ds : List Document) {n : Nat}, (∀ t ∈ printElems ds, t.length < n) →
    List.Forall₂ (Reads (JsonText.value n)) (printElems ds) (values ds)
  | [], _, _ => .nil
  | d :: ds, _, h =>
    .cons (reads_print d (h _ List.mem_cons_self))
      (reads_printElems ds fun t ht => h t (List.mem_cons_of_mem _ ht))

theorem reads_printMembers : ∀ (ms : List (List Char × Document)) {n : Nat},
    (∀ t ∈ printMembers ms, t.length < n) →
    List.Forall₂ (Reads (member (JsonText.value n))) (printMembers ms) (memberValues ms)
  | [], _, _ => .nil
  | (name, d) :: ms, n, h => by
    have hlen : d.print.length < n := by
      have := h _ List.mem_cons_self
      simp only [List.length_append, List.length_cons] at this
      omega
    have hd := reads_print d hlen
    refine .cons (fun rest hrest => ?_)
      (reads_printMembers ms fun t ht => h t (List.mem_cons_of_mem _ ht))
    have hname := string_quote_tail name (':' :: (d.print ++ rest))
    have htext : quote name ++ ':' :: d.print ++ rest =
        '"' :: (name.flatMap escapeChar ++ '"' :: ':' :: (d.print ++ rest)) := by
      simp [quote]
    rw [htext]
    apply (congrArg (Option.bind · _) hname).trans
    exact congrArg (Option.bind · _) (hd rest hrest)

end

/-- Every object is read back from its text. -/
theorem parse_print (members : List (List Char × Document)) :
    parse (obj members).print = some (obj members).value := by
  have hmembers := reads_printMembers members (n := (obj members).print.length) fun _ ht =>
    Nat.lt_of_succ_lt (length_lt_print_obj ht)
  have hvalue := value_obj hmembers []
  rw [List.append_nil] at hvalue
  rw [parse, hvalue]
  rfl

/-! ## Printable documents -/

theorem intercalate_printable {texts : List (List Char)}
    (h : ∀ t ∈ texts, t.all printable = true) : ([','].intercalate texts).all printable = true := by
  induction texts with
  | nil => rfl
  | cons text texts ih =>
    have hrest := ih fun t ht => h t (List.mem_cons_of_mem _ ht)
    cases texts with
    | nil => simpa using h text List.mem_cons_self
    | cons text' texts =>
      have hcomma : printable ',' = true := by decide
      rw [List.intercalate_cons_cons, List.all_append, List.all_append, h text List.mem_cons_self, hrest]
      simpa using hcomma

theorem bracketed_printable {opening closing : Char} (hopening : printable opening = true)
    (hclosing : printable closing = true) {texts : List (List Char)}
    (h : ∀ t ∈ texts, t.all printable = true) :
    (opening :: [','].intercalate texts ++ [closing]).all printable = true := by
  rw [List.cons_append, List.all_cons, List.all_append, intercalate_printable h, hopening]
  simpa using hclosing

mutual

/-- A document whose names and strings are printable has a printable text. -/
theorem print_printable : ∀ d : Document, (∀ chars ∈ d.strings, chars.all printable = true) →
    d.print.all printable = true
  | scalar (.bool b), _ => by cases b <;> decide
  | scalar (.int n), _ => printInt_printable n
  | scalar (.str chars), h => quote_printable (h chars List.mem_cons_self)
  | arr elems, h =>
    bracketed_printable (by decide) (by decide) (printElems_printable elems h)
  | obj members, h =>
    bracketed_printable (by decide) (by decide) (printMembers_printable members h)

theorem printElems_printable : ∀ ds : List Document,
    (∀ chars ∈ elemStrings ds, chars.all printable = true) →
    ∀ t ∈ printElems ds, t.all printable = true
  | [], _ => fun _ ht => absurd ht List.not_mem_nil
  | d :: ds, h =>
    List.forall_mem_cons.mpr ⟨print_printable d fun chars hc => h chars (List.mem_append_left _ hc),
      printElems_printable ds fun chars hc => h chars (List.mem_append_right _ hc)⟩

theorem printMembers_printable : ∀ ms : List (List Char × Document),
    (∀ chars ∈ memberStrings ms, chars.all printable = true) →
    ∀ t ∈ printMembers ms, t.all printable = true
  | [], _ => fun _ ht => absurd ht List.not_mem_nil
  | (name, d) :: ms, h => by
    have hname := quote_printable (h name List.mem_cons_self)
    have hd := print_printable d fun chars hc =>
      h chars (List.mem_cons_of_mem _ (List.mem_append_left _ hc))
    have hms := printMembers_printable ms fun chars hc =>
      h chars (List.mem_cons_of_mem _ (List.mem_append_right _ hc))
    refine List.forall_mem_cons.mpr ⟨?_, hms⟩
    have hcolon : printable ':' = true := by decide
    rw [List.all_append, List.all_cons, hname, hcolon, hd]
    rfl

end

end Document

end JsonText
