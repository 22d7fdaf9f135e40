-- SUMMARY: Engines that search with a regular expression, and one that can be run.
import Mathlib.Logic.Relation
import ParkingGate.Base.RegexParser

/-!
# Engines

An engine takes the text of an expression and answers with the test for other texts, or refuses
it. What an engine does with an expression that this library cannot read is left open.

The engine of this module runs: it follows all matches from a position at once. For `*` it counts
the rounds that take in something, of which there are no more than characters left.
-/

namespace Regex

/-! ## A matcher -/

/-- What is before, and what is left. -/
abbrev Position := List Char × List Char

/-- After up to `n` rounds, each of them with progress. -/
def rounds (step : Position → List Position) : Nat → Position → List Position
  | 0, p     => [p]
  | n + 1, p =>
    p :: ((step p).filter fun p' => p'.2.length < p.2.length).flatMap (rounds step n)

variable (cf : CaseFolding)

/-- The positions after one character that passes the test. -/
def next (test : Char → Bool) : Position → List Position
  | (pre, c :: rest) => if test c then [(pre ++ [c], rest)] else []
  | (_, [])          => []

/-- The positions after all the matches from a position. -/
def ends : Expr → Position → List Position
  | .empty, p               => [p]
  | .char c _, p            => next (fun d => cf.fold d = cf.fold c) p
  | .escaped c, p           => next (fun d => cf.fold d = cf.fold c) p
  | .any, p                 => next (· ≠ '\n') p
  | .set negated members, p => next (fun d => Expr.setContains cf members d = !negated) p
  | .bol, p                 => if p.1 = [] then [p] else []
  | .eol, p                 => if AtEnd p.2 then [p] else []
  | .group e, p             => ends e p
  | .repeated e .opt, p     => p :: ends e p
  | .repeated e .star, p    => rounds (ends e) p.2.length p
  | .repeated e .plus, p    => (ends e p).flatMap fun p' => rounds (ends e) p'.2.length p'
  | .seq e f, p             => (ends e p).flatMap (ends f)
  | .alt e f, p             => ends e p ++ ends f p

variable {cf} {e f : Expr} {p p' : Position}

open Relation (ReflTransGen)

theorem reachable_of_mem_rounds {step : Position → List Position} {n : Nat}
    (h : p' ∈ rounds step n p) : ReflTransGen (fun p p' => p' ∈ step p) p p' := by
  induction n generalizing p with
  | zero =>
    rw [List.mem_singleton.mp h]
  | succ n ih =>
    rcases List.mem_cons.mp h with rfl | h
    · exact .refl
    · obtain ⟨q, hq, hrest⟩ := List.mem_flatMap.mp h
      exact .head (List.mem_filter.mp hq).1 (ih hrest)

theorem mem_rounds_self (step : Position → List Position) (n : Nat) (p : Position) :
    p ∈ rounds step n p := by
  cases n with
  | zero => exact List.mem_singleton_self p
  | succ => exact List.mem_cons_self

/-- Rounds without progress can be left out, so that there are enough. -/
theorem mem_rounds {step : Position → List Position}
    (hprogress : ∀ p, ∀ p' ∈ step p, p' = p ∨ p'.2.length < p.2.length) {n : Nat}
    (hn : p.2.length ≤ n) :
    p' ∈ rounds step n p ↔ ReflTransGen (fun p p' => p' ∈ step p) p p' := by
  constructor
  · exact reachable_of_mem_rounds
  · intro h
    induction h using ReflTransGen.head_induction_on generalizing n with
    | refl => exact mem_rounds_self step n p'
    | @head p q hstep _ ih =>
      rcases hprogress p q hstep with rfl | hlt
      · exact ih hn
      · obtain ⟨n, rfl⟩ : ∃ m, n = m + 1 := ⟨n - 1, by omega⟩
        refine List.mem_cons_of_mem _ (List.mem_flatMap.mpr ⟨q, ?_, ih (by omega)⟩)
        exact List.mem_filter.mpr ⟨hstep, decide_eq_true hlt⟩

/-- A match leads from one position to the other. -/
inductive Leads (cf : CaseFolding) (e : Expr) : Position → Position → Prop
  | intro {pre mid post} (h : Matches cf e pre mid post) : Leads cf e (pre, mid ++ post) (pre ++ mid, post)

/-- The case with the lists of a goal. -/
theorem Leads.of_eq {pre mid post : List Char} (h : Matches cf e pre mid post)
    (hp : p = (pre, mid ++ post)) (hp' : p' = (pre ++ mid, post)) : Leads cf e p p' :=
  hp ▸ hp' ▸ .intro h

theorem Leads.progress (h : Leads cf e p p') : p' = p ∨ p'.2.length < p.2.length := by
  obtain @⟨pre, mid, post, -⟩ := h
  cases mid with
  | nil => exact .inl (by rw [List.append_nil, List.nil_append])
  | cons c mid =>
    right
    simp only [List.length_append, List.length_cons]
    omega

theorem leads_empty : Leads cf .empty p p' ↔ p' = p := by
  constructor
  · rintro ⟨⟨⟩⟩
    simp
  · rintro rfl
    exact .of_eq .empty rfl (by simp)

theorem leads_bol : Leads cf .bol p p' ↔ p.1 = [] ∧ p' = p := by
  constructor
  · rintro ⟨⟨⟩⟩
    simp
  · obtain ⟨pre, rest⟩ := p
    rintro ⟨rfl, rfl⟩
    exact .of_eq .bol rfl rfl

theorem leads_eol : Leads cf .eol p p' ↔ AtEnd p.2 ∧ p' = p := by
  constructor
  · rintro ⟨h⟩
    cases h with
    | eol hend => simpa using hend
  · rintro ⟨hend, rfl⟩
    exact .of_eq (.eol hend) rfl (by simp)

theorem leads_group : Leads cf (.group e) p p' ↔ Leads cf e p p' := by
  constructor
  · rintro ⟨h⟩
    cases h with
    | group h => exact .intro h
  · rintro ⟨h⟩
    exact .intro (.group h)

theorem leads_seq : Leads cf (.seq e f) p p' ↔ ∃ q, Leads cf e p q ∧ Leads cf f q p' := by
  constructor
  · rintro ⟨h⟩
    cases h with
    | seq hmid hrest => exact ⟨_, .of_eq hmid (by rw [List.append_assoc]) rfl,
        .of_eq hrest rfl (by rw [List.append_assoc])⟩
  · rintro ⟨_, ⟨hmid⟩, hrest⟩
    cases hrest with
    | intro hrest => exact .of_eq (.seq hmid hrest) (by rw [List.append_assoc]) (by rw [List.append_assoc])

theorem leads_alt : Leads cf (.alt e f) p p' ↔ Leads cf e p p' ∨ Leads cf f p p' := by
  constructor
  · rintro ⟨h⟩
    cases h with
    | altLeft h => exact .inl (.intro h)
    | altRight h => exact .inr (.intro h)
  · rintro (h | h)
    · obtain ⟨h⟩ := h
      exact .intro (.altLeft h)
    · obtain ⟨h⟩ := h
      exact .intro (.altRight h)

theorem leads_opt : Leads cf (.repeated e .opt) p p' ↔ p' = p ∨ Leads cf e p p' := by
  constructor
  · rintro ⟨h⟩
    cases h with
    | absent => exact .inl (by simp)
    | opt h => exact .inr (.intro h)
  · rintro (rfl | h)
    · exact .of_eq (.absent (by decide)) rfl (by simp)
    · obtain ⟨h⟩ := h
      exact .intro (.opt h)

theorem leads_plus : Leads cf (.repeated e .plus) p p' ↔
    ∃ q, Leads cf e p q ∧ Leads cf (.repeated e .star) q p' := by
  constructor
  · rintro ⟨h⟩
    cases h with
    | absent hq => exact (hq rfl).elim
    | plus hmid hrest => exact ⟨_, .of_eq hmid (by rw [List.append_assoc]) rfl,
        .of_eq hrest rfl (by rw [List.append_assoc])⟩
  · rintro ⟨_, ⟨hmid⟩, hrest⟩
    cases hrest with
    | intro hrest => exact .of_eq (.plus hmid hrest) (by rw [List.append_assoc]) (by rw [List.append_assoc])

theorem reachable_of_leads_star (h : Leads cf (.repeated e .star) p p') :
    ReflTransGen (Leads cf e) p p' := by
  obtain @⟨pre, mid, post, h⟩ := h
  generalize hstar : Expr.repeated e .star = g at h
  induction h with
  | absent => simpa using ReflTransGen.refl
  | star hmid _ _ ih =>
    cases hstar
    exact .head (.of_eq hmid (by rw [List.append_assoc]) rfl) (by simpa using ih rfl)
  | _ => cases hstar

theorem leads_star_of_reachable (h : ReflTransGen (Leads cf e) p p') :
    Leads cf (.repeated e .star) p p' := by
  induction h using ReflTransGen.head_induction_on with
  | refl => exact .of_eq (.absent (by decide)) rfl (by simp)
  | head hmid _ hrest =>
    obtain ⟨hmid⟩ := hmid
    cases hrest with
    | intro hrest => exact .of_eq (.star hmid hrest) (by rw [List.append_assoc]) (by rw [List.append_assoc])

theorem leads_star : Leads cf (.repeated e .star) p p' ↔ ReflTransGen (Leads cf e) p p' :=
  ⟨reachable_of_leads_star, leads_star_of_reachable⟩

theorem mem_next {test : Char → Bool} (hmatch : ∀ {pre mid post},
      Matches cf e pre mid post ↔ ∃ d, mid = [d] ∧ test d) :
    p' ∈ next test p ↔ Leads cf e p p' := by
  obtain ⟨pre, _ | ⟨c, rest⟩⟩ := p
  · refine ⟨fun h => (List.not_mem_nil h).elim, fun h => ?_⟩
    generalize hp : ((pre, []) : Position) = p at h
    obtain ⟨h⟩ := h
    obtain ⟨d, rfl, -⟩ := hmatch.mp h
    cases hp
  · constructor
    · intro h
      simp only [next] at h
      split at h
      case isTrue hc =>
        rw [List.mem_singleton.mp h]
        exact .of_eq (hmatch.mpr ⟨c, rfl, hc⟩) rfl rfl
      case isFalse => cases h
    · intro h
      generalize hp : ((pre, c :: rest) : Position) = p at h
      obtain ⟨h⟩ := h
      obtain ⟨d, rfl, hd⟩ := hmatch.mp h
      cases hp
      simp [next, hd]

theorem mem_ends : p' ∈ ends cf e p ↔ Leads cf e p p' := by
  induction e generalizing p p' with
  | empty => rw [ends, List.mem_singleton, leads_empty]
  | char c hc =>
    refine mem_next ⟨?_, ?_⟩
    · rintro ⟨⟩
      exact ⟨_, rfl, by simpa⟩
    · rintro ⟨d, rfl, hd⟩
      exact .char (by simpa using hd)
  | escaped c =>
    refine mem_next ⟨?_, ?_⟩
    · rintro ⟨⟩
      exact ⟨_, rfl, by simpa⟩
    · rintro ⟨d, rfl, hd⟩
      exact .escaped (by simpa using hd)
  | any =>
    refine mem_next ⟨?_, ?_⟩
    · rintro ⟨⟩
      exact ⟨_, rfl, by simpa⟩
    · rintro ⟨d, rfl, hd⟩
      exact .any (by simpa using hd)
  | set negated members =>
    refine mem_next ⟨?_, ?_⟩
    · rintro ⟨⟩
      exact ⟨_, rfl, by simpa⟩
    · rintro ⟨d, rfl, hd⟩
      exact .set (by simpa using hd)
  | bol => rw [ends, leads_bol]; split <;> simp_all
  | eol => rw [ends, leads_eol]; split <;> simp_all
  | group e ih => rw [ends, ih, leads_group]
  | repeated e q ih =>
    have hstep : (fun p p' => p' ∈ ends cf e p) = Leads cf e := by
      funext p p'
      exact propext ih
    have hrounds : ∀ p p', p' ∈ rounds (ends cf e) p.2.length p ↔ Leads cf (.repeated e .star) p p' := by
      intro p p'
      rw [mem_rounds (fun p p' h => (ih.mp h).progress) (Nat.le_refl _), hstep, leads_star]
    cases q with
    | opt => rw [ends, List.mem_cons, ih, leads_opt]
    | star => exact hrounds p p'
    | plus => simp only [ends, List.mem_flatMap, ih, hrounds, leads_plus]
  | seq e f ihe ihf => simp only [ends, List.mem_flatMap, ihe, ihf, leads_seq]
  | alt e f ihe ihf => rw [ends, List.mem_append, ihe, ihf, leads_alt]

/-- A search tries every position of the text. -/
theorem search_iff_ends {text : List Char} : Search cf e text ↔
    ∃ k ∈ List.range (text.length + 1), ends cf e (text.take k, text.drop k) ≠ [] := by
  constructor
  · rintro ⟨pre, mid, post, rfl, hmatch⟩
    refine ⟨pre.length, List.mem_range.mpr ?_, ?_⟩
    · rw [List.length_append]
      omega
    · rw [List.take_left, List.drop_left]
      exact List.ne_nil_of_mem (mem_ends.mpr (.intro hmatch))
  · rintro ⟨k, -, hends⟩
    obtain ⟨p', hp'⟩ := List.exists_mem_of_ne_nil _ hends
    generalize hp : (text.take k, text.drop k) = p at hp'
    obtain @⟨pre, mid, post, hmatch⟩ := mem_ends.mp hp'
    obtain ⟨hpre, hrest⟩ := Prod.mk.inj hp
    exact ⟨pre, mid, post, by rw [← hpre, ← hrest, List.take_append_drop], hmatch⟩

instance (e : Expr) (text : List Char) : Decidable (Search cf e text) :=
  decidable_of_iff' _ search_iff_ends

/-! ## Engines -/

abbrev Engine := String → Option (String → Bool)

variable (cf)

/-- What the engine does with `q`, if `q` is within the expressions of this library. -/
def Interprets (engine : Engine) (q : String) : Prop :=
  match parse q.toList with
  | .ok e               => ∃ test, engine q = some test ∧ ∀ text, test text ↔ Search cf e text.toList
  | .error .invalid     => engine q = none
  | .error .unsupported => True

/-- Within the expressions of this library. -/
def Supported (q : String) : Prop := parse q.toList ≠ .error .unsupported

instance (q : String) : Decidable (Supported q) := inferInstanceAs (Decidable (_ ≠ _))

/-- The engine takes `q`, and finds the texts that contain it. -/
def FindsSubstring (engine : Engine) (q : String) : Prop :=
  ∃ test, engine q = some test ∧ ∀ text, test text ↔ Contains cf q.toList text.toList

def reference : Engine := fun q =>
  match parse q.toList with
  | .ok e    => some fun text => decide (Search cf e text.toList)
  | .error _ => none

variable {cf} {engine : Engine} {q : String}

theorem reference_interprets (q : String) : Interprets cf (reference cf) q := by
  unfold Interprets reference
  cases hparse : parse q.toList with
  | ok e => exact ⟨_, rfl, fun text => decide_eq_true_iff⟩
  | error reject =>
    cases reject with
    | invalid => rfl
    | unsupported => trivial

theorem Interprets.of_ok {e : Expr} (h : Interprets cf engine q) (hparse : parse q.toList = .ok e) :
    ∃ test, engine q = some test ∧ ∀ text, test text ↔ Search cf e text.toList := by
  rwa [Interprets, hparse] at h

theorem Interprets.findsSubstring (h : Interprets cf engine q) (hplain : Plain q.toList) :
    FindsSubstring cf engine q := by
  obtain ⟨e, hparse, hliteral⟩ := plain_iff.mp hplain
  obtain ⟨test, hengine, htest⟩ := h.of_ok hparse
  refine ⟨test, hengine, fun text => ?_⟩
  rw [htest, hliteral.search_iff, text_parse hparse]

theorem Interprets.plain (h : Interprets cf engine q) (hsupported : Supported q)
    (hfinds : FindsSubstring cf engine q) : Plain q.toList := by
  obtain ⟨test, hengine, htest⟩ := hfinds
  cases hparse : parse q.toList with
  | ok e =>
    obtain ⟨test', hengine', htest'⟩ := h.of_ok hparse
    obtain rfl : test' = test := Option.some.inj (hengine'.symm.trans hengine)
    refine (plain_iff_search cf hparse).mpr fun text => ?_
    rw [← @String.toList_ofList text, ← htest', htest]
  | error reject =>
    cases reject with
    | invalid =>
      rw [Interprets, hparse] at h
      rw [hengine] at h
      cases h
    | unsupported => exact (hsupported hparse).elim

end Regex
