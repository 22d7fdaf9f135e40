-- SUMMARY: Reading a regular expression: what is read has the text that was read, and a plain text is read as a literal.
import ParkingGate.Base.Regex

/-!
# Reading a regular expression

The text is read character by character, with one frame for each group that is open. A text is
refused as invalid where every engine of the Perl family refuses it, and as unsupported where it
goes beyond the expressions of this library: classes such as `\d`, what follows `(?` and `(*`,
counted repetition, lazy and possessive quantifiers, ranges and escapes inside of brackets.
-/

namespace Regex

inductive Reject where
  | invalid | unsupported
  deriving DecidableEq, Repr

/-- What has been read of one group. -/
structure Frame where
  /-- The alternatives before the last `|`. -/
  alts : Option Expr
  done : Expr
  /-- What a quantifier would repeat. -/
  last : Option Expr

namespace Frame

def new : Frame := ⟨none, .empty, none⟩

def seq (f : Frame) : Expr :=
  match f.last with
  | none      => f.done
  | some last => .seq f.done last

def expr (f : Frame) : Expr :=
  match f.alts with
  | none      => f.seq
  | some alts => .alt alts f.seq

def push (f : Frame) (e : Expr) : Frame := { f with done := f.seq, last := some e }

def alternative (f : Frame) : Frame := ⟨some f.expr, .empty, none⟩

def quantify (f : Frame) (q : Quantifier) : Except Reject Frame :=
  match f.last with
  | none                                                  => .error .invalid
  | some (.repeated ..) | some .bol | some .eol           => .error .unsupported
  | some last                                             => .ok { f with last := some (.repeated last q) }

end Frame

inductive Mode where
  | normal
  | escape
  /-- After a `[`. -/
  | setStart
  | set (negated : Bool) (members : List Char)

structure State where
  /-- The frames of the groups around, the innermost first. -/
  outer : List Frame
  cur : Frame
  mode : Mode

/-- After a `{`: a count `n`, `n,` or `n,m` with its `}`. Any other `{` stands for itself. -/
def startsCount (rest : List Char) : Bool :=
  rest.head?.any Char.isDigit &&
    match rest.dropWhile Char.isDigit with
    | '}' :: _   => true
    | ',' :: max => (max.dropWhile Char.isDigit).head? = some '}'
    | _          => false

namespace State

def start : State := ⟨[], .new, .normal⟩

def push (s : State) (e : Expr) : State := { s with cur := s.cur.push e, mode := .normal }

def quantify (s : State) (q : Quantifier) : Except Reject State := do
  let cur ← s.cur.quantify q
  return { s with cur }

def close (s : State) : Except Reject State :=
  match s.outer with
  | []             => .error .invalid
  | frame :: outer => .ok ⟨outer, frame.push (.group s.cur.expr), .normal⟩

/-- A special character outside of brackets, before `rest`. -/
def operator (s : State) (c : Char) (rest : List Char) : Except Reject State :=
  match c with
  | '\\' => .ok { s with mode := .escape }
  | '['  => .ok { s with mode := .setStart }
  | '^'  => .ok (s.push .bol)
  | '$'  => .ok (s.push .eol)
  | '.'  => .ok (s.push .any)
  | '|'  => .ok { s with cur := s.cur.alternative }
  | '('  =>
    if rest.head? = some '?' ∨ rest.head? = some '*' then .error .unsupported
    else .ok ⟨s.cur :: s.outer, .new, .normal⟩
  | ')'  => s.close
  | '?'  => s.quantify .opt
  | '*'  => s.quantify .star
  | '+'  => s.quantify .plus
  | _    => .error .unsupported

/-- A character inside of brackets, after these members. -/
def member (s : State) (negated : Bool) (members : List Char) (c : Char) : Except Reject State :=
  if c = ']' ∧ members ≠ [] then .ok (s.push (.set negated members))
  else if c ∈ [']', '[', '-', '\\', '\x00'] ∨ members = [] ∧ c ∈ [':', '.', '='] then
    .error .unsupported
  else .ok { s with mode := .set negated (members ++ [c]) }

def step (s : State) (c : Char) (rest : List Char) : Except Reject State :=
  match s.mode with
  | .normal =>
    if h : c ∉ special then
      if c = '{' ∧ startsCount rest then .error .unsupported else .ok (s.push (.char c h))
    else s.operator c rest
  | .escape =>
    if c.isAlphanum ∨ c = '\x00' then .error .unsupported else .ok (s.push (.escaped c))
  | .setStart => if c = '^' then .ok { s with mode := .set true [] } else s.member false [] c
  | .set negated members => s.member negated members c

def finish (s : State) : Except Reject Expr :=
  match s.mode, s.outer with
  | .normal, [] => .ok s.cur.expr
  | _, _        => .error .invalid

def run (s : State) : List Char → Except Reject Expr
  | []        => s.finish
  | c :: rest => do (← s.step c rest).run rest

end State

def parse (text : List Char) : Except Reject Expr := State.start.run text

/-! ## The text of what is read -/

def Mode.text : Mode → List Char
  | normal              => []
  | escape              => ['\\']
  | setStart            => ['[']
  | set negated members => '[' :: (if negated then ['^'] else []) ++ members

/-- The text of the groups around, up to the one that is open. -/
def openText : List Frame → List Char
  | []             => []
  | frame :: outer => openText outer ++ frame.expr.text ++ ['(']

def State.text (s : State) : List Char := openText s.outer ++ s.cur.expr.text ++ s.mode.text

@[simp]
theorem Frame.text_new : Frame.new.expr.text = [] := rfl

@[simp]
theorem Frame.text_push (f : Frame) (e : Expr) : (f.push e).expr.text = f.expr.text ++ e.text := by
  obtain ⟨_ | alts, done, _ | last⟩ := f <;> simp [push, expr, seq, Expr.text]

@[simp]
theorem Frame.text_alternative (f : Frame) : f.alternative.expr.text = f.expr.text ++ ['|'] := by
  simp [alternative, expr, seq, Expr.text]

theorem Frame.text_quantify {f f' : Frame} {q : Quantifier} (h : f.quantify q = .ok f') :
    f'.expr.text = f.expr.text ++ [q.char] := by
  obtain ⟨alts, done, last⟩ := f
  unfold quantify at h
  split at h
  case h_5 hlast =>
    cases h
    obtain rfl : last = some _ := hlast
    cases alts <;> simp [expr, seq, Expr.text]
  all_goals cases h

namespace State

variable {s s' : State} {c : Char} {rest : List Char}

theorem text_eq (s : State) : s.text = openText s.outer ++ s.cur.expr.text ++ s.mode.text := rfl

theorem text_push (hmode : s.mode = .normal) (e : Expr) : (s.push e).text = s.text ++ e.text := by
  simp [push, text, Mode.text, hmode]

theorem text_quantify {q : Quantifier} (hmode : s.mode = .normal) (h : s.quantify q = .ok s') :
    s'.text = s.text ++ [q.char] := by
  unfold quantify at h
  cases hcur : s.cur.quantify q with
  | error => simp [hcur, bind, Except.bind] at h
  | ok cur =>
    simp only [hcur, bind, Except.bind, pure, Except.pure, Except.ok.injEq] at h
    subst h
    simp [text, Frame.text_quantify hcur, hmode, Mode.text]

theorem text_close (hmode : s.mode = .normal) (h : s.close = .ok s') : s'.text = s.text ++ [')'] := by
  unfold close at h
  split at h
  case h_1 => cases h
  case h_2 frame outer houter =>
    cases h
    simp [text, openText, houter, hmode, Mode.text, Expr.text]

theorem text_operator (hmode : s.mode = .normal) (h : s.operator c rest = .ok s') :
    s'.text = s.text ++ [c] := by
  unfold operator at h
  split at h
  case h_1 | h_2 | h_6 =>
    cases h
    simp [text, hmode, Mode.text]
  case h_3 | h_4 | h_5 =>
    cases h
    exact text_push hmode _
  case h_7 =>
    split at h
    · cases h
    · cases h
      simp [text, openText, hmode, Mode.text]
  case h_8 => exact text_close hmode h
  case h_9 | h_10 | h_11 => exact text_quantify hmode h
  case h_12 => cases h

theorem text_member {negated : Bool} {members : List Char} (hmode : s.mode.text = (Mode.set negated members).text)
    (h : s.member negated members c = .ok s') : s'.text = s.text ++ [c] := by
  unfold member at h
  split at h
  case isTrue hc =>
    cases h
    rw [s.text_eq, hmode, hc.1]
    simp [text, push, Mode.text, Expr.text]
  case isFalse =>
    split at h
    · cases h
    · cases h
      rw [s.text_eq, hmode]
      simp [text, Mode.text]

/-- Every step takes in its character. -/
theorem text_step (h : s.step c rest = .ok s') : s'.text = s.text ++ [c] := by
  unfold step at h
  split at h
  case h_1 hmode =>
    split at h
    · split at h
      · cases h
      · cases h
        exact text_push hmode _
    · exact text_operator hmode h
  case h_2 hmode =>
    split at h
    · cases h
    · cases h
      simp [text, push, hmode, Mode.text, Expr.text]
  case h_3 hmode =>
    split at h
    case isTrue hc =>
      cases h
      simp [text, hmode, hc, Mode.text]
    case isFalse => exact text_member (by rw [hmode]; rfl) h
  case h_4 hmode => exact text_member (by rw [hmode]) h

theorem text_finish {e : Expr} (h : s.finish = .ok e) : e.text = s.text := by
  unfold finish at h
  split at h
  case h_1 hmode houter =>
    cases h
    simp [text, hmode, houter, openText, Mode.text]
  case h_2 => cases h

theorem run_cons (s : State) (c : Char) (rest : List Char) :
    s.run (c :: rest) = (s.step c rest).bind fun s' => s'.run rest := rfl

theorem text_run {e : Expr} (h : s.run rest = .ok e) : e.text = s.text ++ rest := by
  induction rest generalizing s with
  | nil => rw [text_finish h, List.append_nil]
  | cons c rest ih =>
    rw [run_cons] at h
    cases hstep : s.step c rest with
    | error => simp [hstep, Except.bind] at h
    | ok s' =>
      rw [hstep] at h
      rw [ih h, text_step hstep, List.append_assoc, List.singleton_append]

end State

theorem text_parse {text : List Char} {e : Expr} (h : parse text = .ok e) : e.text = text :=
  State.text_run h

/-! ## Plain texts -/

/-- A text without special characters and repetition counts. -/
def Plain : List Char → Prop
  | []        => True
  | c :: rest => (c ∉ special ∧ ¬ (c = '{' ∧ startsCount rest)) ∧ Plain rest

def Plain.decide : (text : List Char) → Decidable (Plain text)
  | []        => isTrue trivial
  | _ :: rest => @instDecidableAnd _ _ inferInstance (Plain.decide rest)

instance (text : List Char) : Decidable (Plain text) := Plain.decide text

theorem Expr.Literal.not_special {e : Expr} (h : e.Literal) : ∀ c ∈ e.text, c ∉ special := by
  induction e with
  | empty => simp [text]
  | char c hc =>
    intro d hd
    rw [List.mem_singleton.mp hd]
    exact hc
  | seq e f ihe ihf =>
    intro c hc
    rcases List.mem_append.mp hc with hc | hc
    · exact ihe h.1 c hc
    · exact ihf h.2 c hc
  | _ => exact h.elim

namespace State

variable {s : State} {c : Char} {rest : List Char}

theorem step_char (hmode : s.mode = .normal) (hc : c ∉ special) : s.step c rest =
    if c = '{' ∧ startsCount rest then .error .unsupported else .ok (s.push (.char c hc)) := by
  simp only [step, hmode, dif_pos hc]

theorem literal_push (hc : c ∉ special) (h : s.cur.expr.Literal) :
    (s.push (.char c hc)).cur.expr.Literal := by
  obtain ⟨outer, ⟨_ | alts, done, _ | last⟩, mode⟩ := s
  · exact ⟨h, trivial⟩
  · exact ⟨h, trivial⟩
  · exact h.elim
  · exact h.elim

theorem run_plain (houter : s.outer = []) (hmode : s.mode = .normal) (h : s.cur.expr.Literal)
    (hrest : Plain rest) : ∃ e, s.run rest = .ok e ∧ e.Literal := by
  induction rest generalizing s with
  | nil => exact ⟨s.cur.expr, by simp only [run, finish, houter, hmode], h⟩
  | cons c rest ih =>
    obtain ⟨⟨hc, hcount⟩, hrest⟩ := hrest
    rw [run_cons, step_char hmode hc, if_neg hcount]
    exact ih (s := s.push _) houter rfl (literal_push hc h) hrest

theorem plain_of_run {e : Expr} (hmode : s.mode = .normal) (hspecial : ∀ c ∈ rest, c ∉ special)
    (h : s.run rest = .ok e) : Plain rest := by
  induction rest generalizing s with
  | nil => trivial
  | cons c rest ih =>
    have hc := hspecial c List.mem_cons_self
    rw [run_cons, step_char hmode hc] at h
    split at h
    · cases h
    case isFalse hcount =>
      exact ⟨⟨hc, hcount⟩, ih rfl (fun d hd => hspecial d (List.mem_cons_of_mem c hd)) h⟩

end State

/-- The plain texts are those that are read as literals. -/
theorem plain_iff {text : List Char} : Plain text ↔ ∃ e, parse text = .ok e ∧ e.Literal := by
  constructor
  · intro h
    exact State.run_plain rfl rfl trivial h
  · rintro ⟨e, hparse, hliteral⟩
    refine State.plain_of_run (s := .start) rfl ?_ hparse
    rw [← text_parse hparse]
    exact hliteral.not_special

/-- A text that is read as an expression is plain exactly if the expression finds the texts that
    contain it. -/
theorem plain_iff_search (cf : CaseFolding) {q : List Char} {e : Expr} (h : parse q = .ok e) :
    Plain q ↔ ∀ text, Search cf e text ↔ Contains cf q text := by
  rw [plain_iff, ← text_parse h, ← e.literal_iff]
  constructor
  · rintro ⟨e', hparse, hliteral⟩
    rw [text_parse h, h] at hparse
    cases hparse
    exact hliteral
  · intro hliteral
    exact ⟨e, by rw [text_parse h, h], hliteral⟩

example : parse "a.b|[^x]+".toList = .ok (.alt (.seq (.seq (.seq .empty (.char 'a' (by decide))) .any)
    (.char 'b' (by decide))) (.seq .empty (.repeated (.set true ['x']) .plus))) := by decide

end Regex
