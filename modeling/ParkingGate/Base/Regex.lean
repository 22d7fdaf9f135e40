-- SUMMARY: Regular expressions: syntax and its text, matching inside a text, and which expressions search for their own text.
import Mathlib.Data.List.Infix

/-!
# Regular expressions

The expressions are those of the Perl family as far as single characters, `.`, brackets, the
anchors `^` and `$`, groups, alternatives and the quantifiers `?`, `*` and `+` go. They are
matched without regard to case, with whatever the case folding takes for the same letter.

A search for an expression finds the texts that contain its own text exactly if the expression
is a literal: every operator takes room in the text of the expression that it does not take in
the shortest match.
-/

namespace Regex

/-- Characters that do not stand for themselves outside brackets. -/
def special : List Char := ['\\', '^', '$', '.', '[', '|', '(', ')', '?', '*', '+', '\x00']

inductive Quantifier where
  | opt | star | plus
  deriving DecidableEq, Repr

def Quantifier.char : Quantifier → Char
  | opt  => '?'
  | star => '*'
  | plus => '+'

inductive Expr where
  | empty
  | char (c : Char) (h : c ∉ special)
  /-- `\c` -/
  | escaped (c : Char)
  | any
  | set (negated : Bool) (members : List Char)
  /-- `^` -/
  | bol
  /-- `$` -/
  | eol
  | group (e : Expr)
  | repeated (e : Expr) (q : Quantifier)
  | seq (e f : Expr)
  | alt (e f : Expr)
  deriving DecidableEq, Repr

namespace Expr

def text : Expr → List Char
  | empty               => []
  | char c _            => [c]
  | escaped c           => ['\\', c]
  | any                 => ['.']
  | set negated members => '[' :: (if negated then ['^'] else []) ++ members ++ [']']
  | bol                 => ['^']
  | eol                 => ['$']
  | group e             => '(' :: e.text ++ [')']
  | repeated e q        => e.text ++ [q.char]
  | seq e f             => e.text ++ f.text
  | alt e f             => e.text ++ '|' :: f.text

end Expr

/-! ## Matching -/

/-- When two characters are the same up to case. -/
structure CaseFolding where
  fold : Char → Char
  dot : fold 'a' ≠ fold '.'

/-- At the end, or before a line break at the end. -/
def AtEnd (rest : List Char) : Prop := rest = [] ∨ rest = ['\n']

instance (rest : List Char) : Decidable (AtEnd rest) := inferInstanceAs (Decidable (_ ∨ _))

variable (cf : CaseFolding)

def Expr.setContains (members : List Char) (c : Char) : Bool := members.any (cf.fold · = cf.fold c)

/-- The expression matches `mid` between `pre` and `post`. -/
inductive Matches : Expr → List Char → List Char → List Char → Prop
  | empty {pre post} : Matches .empty pre [] post
  | char {c h d pre post} (hd : cf.fold d = cf.fold c) : Matches (.char c h) pre [d] post
  | escaped {c d pre post} (hd : cf.fold d = cf.fold c) : Matches (.escaped c) pre [d] post
  | any {d pre post} (hd : d ≠ '\n') : Matches .any pre [d] post
  | set {negated members d pre post} (hd : Expr.setContains cf members d = !negated) :
      Matches (.set negated members) pre [d] post
  | bol {post} : Matches .bol [] [] post
  | eol {pre post} (hend : AtEnd post) : Matches .eol pre [] post
  | group {e pre mid post} (h : Matches e pre mid post) : Matches (.group e) pre mid post
  | absent {e q pre post} (hq : q ≠ .plus) : Matches (.repeated e q) pre [] post
  | opt {e pre mid post} (h : Matches e pre mid post) : Matches (.repeated e .opt) pre mid post
  | star {e pre mid rest post} (h : Matches e pre mid (rest ++ post))
      (hrest : Matches (.repeated e .star) (pre ++ mid) rest post) :
      Matches (.repeated e .star) pre (mid ++ rest) post
  | plus {e pre mid rest post} (h : Matches e pre mid (rest ++ post))
      (hrest : Matches (.repeated e .star) (pre ++ mid) rest post) :
      Matches (.repeated e .plus) pre (mid ++ rest) post
  | seq {e f pre mid rest post} (h : Matches e pre mid (rest ++ post))
      (hrest : Matches f (pre ++ mid) rest post) : Matches (.seq e f) pre (mid ++ rest) post
  | altLeft {e f pre mid post} (h : Matches e pre mid post) : Matches (.alt e f) pre mid post
  | altRight {e f pre mid post} (h : Matches f pre mid post) : Matches (.alt e f) pre mid post

/-- The expression matches somewhere in the text. -/
def Search (e : Expr) (text : List Char) : Prop :=
  ∃ pre mid post, text = pre ++ (mid ++ post) ∧ Matches cf e pre mid post

/-- The text contains `q`, up to case. -/
def Contains (q text : List Char) : Prop := q.map cf.fold <:+: text.map cf.fold

instance (q text : List Char) : Decidable (Contains cf q text) :=
  inferInstanceAs (Decidable (_ <:+: _))

/-! ## Short matches -/

variable {cf} {e : Expr} {pre mid post : List Char}

/-- The length of the shortest match, if there is any. -/
def Expr.width : Expr → Nat
  | empty | bol | eol               => 0
  | char .. | escaped _ | any       => 1
  | set ..                          => 1
  | group e                         => e.width
  | repeated e .plus                => e.width
  | repeated _ .opt | repeated _ .star => 0
  | seq e f                         => e.width + f.width
  | alt e f                         => max e.width f.width

theorem AtEnd.of_append {rest post : List Char} (h : AtEnd (rest ++ post)) : AtEnd post := by
  rcases h with h | h
  · exact .inl (List.append_eq_nil_iff.mp h).2
  · rcases List.append_eq_singleton_iff.mp h with ⟨-, h⟩ | ⟨-, h⟩
    · exact .inr h
    · exact .inl h

theorem AtEnd.shrink {rest rest' post post' : List Char} (h : AtEnd (rest ++ post))
    (hsub : rest'.Sublist rest) (hnil : post = [] → post' = []) (hpost : AtEnd post → AtEnd post') :
    AtEnd (rest' ++ post') := by
  rcases h with h | h
  · obtain ⟨rfl, rfl⟩ := List.append_eq_nil_iff.mp h
    rw [List.sublist_nil.mp hsub, hnil rfl]
    exact .inl rfl
  · rcases List.append_eq_singleton_iff.mp h with ⟨rfl, rfl⟩ | ⟨rfl, rfl⟩
    · rw [List.sublist_nil.mp hsub]
      exact hpost (.inr rfl)
    · rw [hnil rfl]
      rcases List.sublist_singleton.mp hsub with rfl | rfl
      · exact .inl rfl
      · exact .inr rfl

/-- A match can be thinned out to one that is not longer than the width, wherever the anchors
    see no less than before. -/
theorem Matches.shrink (h : Matches cf e pre mid post) :
    ∃ mid', mid'.Sublist mid ∧ mid'.length ≤ e.width ∧ ∀ pre' post', (pre = [] → pre' = []) →
      (post = [] → post' = []) → (AtEnd post → AtEnd post') → Matches cf e pre' mid' post' := by
  induction h with
  | empty => exact ⟨[], .slnil, Nat.le_refl _, fun _ _ _ _ _ => .empty⟩
  | char hd => exact ⟨[_], .refl _, Nat.le_refl _, fun _ _ _ _ _ => .char hd⟩
  | escaped hd => exact ⟨[_], .refl _, Nat.le_refl _, fun _ _ _ _ _ => .escaped hd⟩
  | any hd => exact ⟨[_], .refl _, Nat.le_refl _, fun _ _ _ _ _ => .any hd⟩
  | set hd => exact ⟨[_], .refl _, Nat.le_refl _, fun _ _ _ _ _ => .set hd⟩
  | bol =>
    refine ⟨[], .slnil, Nat.le_refl _, fun pre' _ hpre _ _ => ?_⟩
    rw [hpre rfl]
    exact .bol
  | eol hend => exact ⟨[], .slnil, Nat.le_refl _, fun _ _ _ _ hpost => .eol (hpost hend)⟩
  | group _ ih =>
    obtain ⟨mid', hsub, hwidth, hmatch⟩ := ih
    exact ⟨mid', hsub, hwidth, fun _ _ hpre hnil hpost => .group (hmatch _ _ hpre hnil hpost)⟩
  | absent hq => exact ⟨[], .slnil, Nat.zero_le _, fun _ _ _ _ _ => .absent hq⟩
  | opt => exact ⟨[], List.nil_sublist _, Nat.le_refl _, fun _ _ _ _ _ => .absent (by decide)⟩
  | star => exact ⟨[], List.nil_sublist _, Nat.le_refl _, fun _ _ _ _ _ => .absent (by decide)⟩
  | plus _ _ ih =>
    -- One round is enough.
    obtain ⟨mid', hsub, hwidth, hmatch⟩ := ih
    refine ⟨mid', hsub.trans (List.sublist_append_left _ _), hwidth, fun pre' post' hpre hnil hpost => ?_⟩
    have honce := hmatch pre' post' hpre (fun h => hnil (List.append_eq_nil_iff.mp h).2)
      fun h => hpost h.of_append
    have hround : Matches cf _ pre' (mid' ++ []) post' := .plus honce (.absent (by decide))
    simpa using hround
  | seq _ _ ih ihrest =>
    obtain ⟨mid', hsub, hwidth, hmatch⟩ := ih
    obtain ⟨rest', hsubrest, hwidthrest, hmatchrest⟩ := ihrest
    refine ⟨mid' ++ rest', hsub.append hsubrest, ?_, fun pre' post' hpre hnil hpost => ?_⟩
    · rw [List.length_append]
      exact Nat.add_le_add hwidth hwidthrest
    · refine .seq (hmatch _ _ hpre ?_ fun h => h.shrink hsubrest hnil hpost)
        (hmatchrest _ _ ?_ hnil hpost)
      · intro h
        obtain ⟨rfl, rfl⟩ := List.append_eq_nil_iff.mp h
        rw [List.sublist_nil.mp hsubrest, hnil rfl, List.append_nil]
      · intro h
        obtain ⟨rfl, rfl⟩ := List.append_eq_nil_iff.mp h
        rw [List.sublist_nil.mp hsub, hpre rfl, List.append_nil]
  | altLeft _ ih =>
    obtain ⟨mid', hsub, hwidth, hmatch⟩ := ih
    exact ⟨mid', hsub, Nat.le_trans hwidth (Nat.le_max_left _ _), fun _ _ hpre hnil hpost =>
      .altLeft (hmatch _ _ hpre hnil hpost)⟩
  | altRight _ ih =>
    obtain ⟨mid', hsub, hwidth, hmatch⟩ := ih
    exact ⟨mid', hsub, Nat.le_trans hwidth (Nat.le_max_right _ _), fun _ _ hpre hnil hpost =>
      .altRight (hmatch _ _ hpre hnil hpost)⟩

/-- If there is a match anywhere, there is a text of at most the width with one. -/
theorem Search.short {text : List Char} (h : Search cf e text) :
    ∃ short, short.length ≤ e.width ∧ Search cf e short := by
  obtain ⟨pre, mid, post, -, hmatch⟩ := h
  obtain ⟨mid', -, hwidth, hshort⟩ := hmatch.shrink
  exact ⟨mid', hwidth, [], mid', [], by simp, hshort [] [] (fun _ => rfl) (fun _ => rfl) fun _ => .inl rfl⟩

/-! ## Literals -/

/-- Nothing but characters one after another. -/
def Expr.Literal : Expr → Prop
  | empty | char .. => True
  | seq e f         => e.Literal ∧ f.Literal
  | _               => False

/-- Characters and dots one after another. -/
def Expr.Simple : Expr → Prop
  | empty | char .. | any => True
  | seq e f               => e.Simple ∧ f.Simple
  | _                     => False

theorem Expr.width_le (e : Expr) : e.width ≤ e.text.length := by
  induction e with
  | repeated e q ih =>
    cases q with
    | opt | star => exact Nat.zero_le _
    | plus => simp only [width, text, List.length_append]; omega
  | _ => simp_all only [width, text, List.length_append, List.length_cons, List.length_nil]; omega

/-- Any operator other than the dot takes room in the text only. -/
theorem Expr.simple_of_width {e : Expr} (h : e.width = e.text.length) : e.Simple := by
  induction e with
  | empty | char | any => trivial
  | seq e f ihe ihf =>
    simp only [width, text, List.length_append] at h
    have he := e.width_le
    have hf := f.width_le
    exact ⟨ihe (by omega), ihf (by omega)⟩
  | repeated e q _ =>
    have he := e.width_le
    cases q <;> simp only [width, text, List.length_append, List.length_singleton] at h <;> omega
  | alt e f _ _ =>
    have he := e.width_le
    have hf := f.width_le
    simp only [width, text, List.length_append, List.length_cons] at h
    omega
  | group e _ =>
    have he := e.width_le
    simp only [width, text, List.length_append, List.length_cons] at h
    omega
  | escaped | set | bol | eol =>
    simp only [width, text, List.length_append, List.length_cons, List.length_nil] at h
    omega

/-- What the expression matches with an `a` for every dot. -/
def Expr.sample : Expr → List Char
  | char c _ => [c]
  | any      => ['a']
  | seq e f  => e.sample ++ f.sample
  | _        => []

theorem Expr.sample_seq (e f : Expr) : (Expr.seq e f).sample = e.sample ++ f.sample := rfl

theorem Expr.Simple.matches_sample (h : e.Simple) : Matches cf e pre e.sample post := by
  induction e generalizing pre post with
  | empty => exact .empty
  | char => exact .char rfl
  | any => exact .any (by decide)
  | seq e f ihe ihf => exact .seq (ihe h.1) (ihf h.2)
  | _ => exact h.elim

theorem Expr.Simple.length_sample (h : e.Simple) : e.sample.length = e.text.length := by
  induction e with
  | empty | char | any => rfl
  | seq e f ihe ihf => rw [sample_seq, text, List.length_append, List.length_append, ihe h.1, ihf h.2]
  | _ => exact h.elim

theorem Expr.Simple.literal (h : e.Simple) (hfold : e.sample.map cf.fold = e.text.map cf.fold) :
    e.Literal := by
  induction e with
  | empty | char => trivial
  | any => exact (cf.dot (List.singleton_inj.mp hfold)).elim
  | seq e f ihe ihf =>
    rw [sample_seq, text, List.map_append, List.map_append] at hfold
    obtain ⟨he, hf⟩ := List.append_inj hfold (by simp only [List.length_map, h.1.length_sample])
    exact ⟨ihe h.1 he, ihf h.2 hf⟩
  | _ => exact h.elim

theorem Expr.Literal.matches_iff (h : e.Literal) :
    Matches cf e pre mid post ↔ mid.map cf.fold = e.text.map cf.fold := by
  induction e generalizing pre mid post with
  | empty =>
    constructor
    · rintro ⟨⟩
      rfl
    · intro hmid
      rw [List.map_eq_nil_iff.mp hmid]
      exact .empty
  | char c hc =>
    constructor
    · rintro (_ | ⟨hd⟩)
      simp only [text, List.map_singleton, hd]
    · intro hmid
      obtain ⟨d, rfl, hd⟩ := List.map_eq_singleton_iff.mp hmid
      exact .char hd
  | seq e f ihe ihf =>
    constructor
    · intro hmatch
      cases hmatch with
      | seq he hf => simp only [text, List.map_append, (ihe h.1).mp he, (ihf h.2).mp hf]
    · intro hmid
      rw [text, List.map_append] at hmid
      obtain ⟨mid, rest, rfl, he, hf⟩ := List.map_eq_append_iff.mp hmid
      exact .seq ((ihe h.1).mpr he) ((ihf h.2).mpr hf)
  | _ => exact h.elim

theorem contains_iff {q text : List Char} : Contains cf q text ↔
    ∃ pre mid post, text = pre ++ (mid ++ post) ∧ mid.map cf.fold = q.map cf.fold := by
  constructor
  · rintro ⟨pre', post', heq⟩
    rw [List.append_assoc] at heq
    obtain ⟨pre, rest, rfl, -, hrest⟩ := List.map_eq_append_iff.mp heq.symm
    obtain ⟨mid, post, rfl, hmid, -⟩ := List.map_eq_append_iff.mp hrest
    exact ⟨pre, mid, post, rfl, hmid⟩
  · rintro ⟨pre, mid, post, rfl, hmid⟩
    exact ⟨pre.map cf.fold, post.map cf.fold, by simp only [List.map_append, hmid, List.append_assoc]⟩

theorem Expr.Literal.search_iff (h : e.Literal) (text : List Char) :
    Search cf e text ↔ Contains cf e.text text := by
  simp only [contains_iff, Search, h.matches_iff]

theorem Contains.length_le {q text : List Char} (h : Contains cf q text) : q.length ≤ text.length := by
  simpa only [List.length_map] using List.IsInfix.length_le h

theorem Contains.map_eq {q text : List Char} (h : Contains cf q text) (hlen : text.length = q.length) :
    text.map cf.fold = q.map cf.fold := by
  refine (List.IsInfix.eq_of_length h ?_).symm
  rw [List.length_map, List.length_map, hlen]

/-- The literals are the expressions that search for their own text. -/
theorem Expr.literal_iff : e.Literal ↔ ∀ text, Search cf e text ↔ Contains cf e.text text := by
  constructor
  · intro h
    exact h.search_iff
  · intro h
    -- The expression finds its own text, so it has a match as short as its width.
    have hself : Search cf e e.text := (h e.text).mpr (List.infix_refl _)
    obtain ⟨short, hshort, hsearch⟩ := hself.short
    have hlong : e.text.length ≤ short.length := ((h short).mp hsearch).length_le
    have hsimple : e.Simple := simple_of_width (Nat.le_antisymm e.width_le (Nat.le_trans hlong hshort))
    have hsample : Search cf e e.sample := ⟨[], e.sample, [], by simp, hsimple.matches_sample⟩
    exact hsimple.literal (((h e.sample).mp hsample).map_eq hsimple.length_sample)

end Regex
