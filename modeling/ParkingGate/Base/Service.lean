-- SUMMARY: A service that takes calls at any time and runs their programs interleaved over one store, and the rule for what all its states and answers have in common.
import ParkingGate.Base.Readings

/-!
# Services

The calls of a service are programs over its store. They arrive at any time, their actions
interleave in any order, and a crash loses the calls in progress. Clients make a call only if
`admits` allows it after the answers given so far: nobody presents what the service alone can make
and has not given away.

`exec_sound` proves a property `S` of the store and a property `T` of the answers that may both
rest on the run so far, as long as a longer run only adds to what is right. It asks of each program
that it keeps `S` and comes to an answer with `T` if every state it finds has `S`, and this however
long the run has become, because a program that is interrupted goes on when more is right.
-/

structure Service (σ α : Type) where
  store : σ
  calls : List (Prog σ α)
  answers : List α

namespace Service

variable {σ α C : Type}

inductive Event (C : Type) where
  | arrive (c : C)
  | act (i : Nat)
  | answer (i : Nat)
  | crash

def start (s : σ) : Service σ α where
  store := s
  calls := []
  answers := []

section Semantics

variable (admits : List α → C → Prop) [∀ answers c, Decidable (admits answers c)]
  (program : C → Prog σ α)

def step (w : Service σ α) : Event C → Option (Service σ α)
  | .arrive c =>
    if admits w.answers c then some { w with calls := w.calls ++ [program c] } else none
  | .act i    =>
    match w.calls[i]? with
    | some (.act upd next) =>
      some { w with store := upd w.store, calls := w.calls.set i (next w.store) }
    | _ => none
  | .answer i =>
    match w.calls[i]? with
    | some (.ret a) => some { w with calls := w.calls.eraseIdx i, answers := w.answers ++ [a] }
    | _             => none
  | .crash    => some { w with calls := [] }

end Semantics

variable {S : List (Event C) → σ → Prop} {T : List (Event C) → α → Prop}

/-- Whatever else is right later, the program keeps the store right and comes to a right answer. -/
def Honest (S : List (Event C) → σ → Prop) (T : List (Event C) → α → Prop) (es : List (Event C))
    (p : Prog σ α) : Prop :=
  ∀ es', es <+: es' → p.Maintains (S es') (T es')

theorem Honest.later {es es' : List (Event C)} {p : Prog σ α} (h : Honest S T es p)
    (hpre : es <+: es') : Honest S T es' p :=
  fun es'' hpre' => h es'' (hpre.trans hpre')

/-- A longer run leaves right what was right. -/
def Growing {β : Type} (S : List (Event C) → β → Prop) : Prop :=
  ∀ es es' b, es <+: es' → S es b → S es' b

/-- What holds after the events `es`. -/
structure Sound (S : List (Event C) → σ → Prop) (T : List (Event C) → α → Prop)
    (es : List (Event C)) (w : Service σ α) : Prop where
  store : S es w.store
  calls : ∀ p ∈ w.calls, Honest S T es p
  answers : ∀ a ∈ w.answers, T es a

namespace Sound

variable {es es' : List (Event C)} {w : Service σ α}

theorem later (hS : Growing S) (hT : Growing T) (h : Sound S T es w) (hpre : es <+: es') :
    Sound S T es' w where
  store := hS _ _ _ hpre h.store
  calls p hp := (h.calls p hp).later hpre
  answers a ha := hT _ _ _ hpre (h.answers a ha)

theorem arrive (h : Sound S T es w) {p : Prog σ α} (hp : Honest S T es p) :
    Sound S T es { w with calls := w.calls ++ [p] } where
  store := h.store
  calls q hq := by
    rcases List.mem_append.mp hq with hq | hq
    · exact h.calls q hq
    · exact List.mem_singleton.mp hq ▸ hp
  answers := h.answers

theorem act (hS : Growing S) (h : Sound S T es w) {i : Nat} {upd : σ → σ} {next : σ → Prog σ α}
    (hi : w.calls[i]? = some (.act upd next)) :
    Sound S T es { w with store := upd w.store, calls := w.calls.set i (next w.store) } where
  store := (h.calls _ (List.mem_of_getElem? hi) es List.prefix_rfl w.store h.store).1
  calls q hq := by
    rcases List.mem_or_eq_of_mem_set hq with hq | rfl
    · exact h.calls q hq
    · exact fun es' hpre =>
        (h.calls _ (List.mem_of_getElem? hi) es' hpre w.store (hS _ _ _ hpre h.store)).2
  answers := h.answers

theorem answer (h : Sound S T es w) {i : Nat} {a : α} (hi : w.calls[i]? = some (.ret a)) :
    Sound S T es { w with calls := w.calls.eraseIdx i, answers := w.answers ++ [a] } where
  store := h.store
  calls q hq := h.calls q (List.mem_of_mem_eraseIdx hq)
  answers b hb := by
    rcases List.mem_append.mp hb with hb | hb
    · exact h.answers b hb
    · obtain rfl := List.mem_singleton.mp hb
      exact h.calls _ (List.mem_of_getElem? hi) es List.prefix_rfl

end Sound

section Runs

variable {admits : List α → C → Prop} [∀ answers c, Decidable (admits answers c)]
  {program : C → Prog σ α}

/-- The rule: a call that arrives after the events `pre` may count on all answers given so far. -/
theorem exec_sound (hS : Growing S) (hT : Growing T) {s : σ} {es : List (Event C)}
    {w : Service σ α} (hs : S [] s)
    (hcall : ∀ pre c (answers : List α), (∀ a ∈ answers, T pre a) → admits answers c →
      Honest S T (pre ++ [.arrive c]) (program c))
    (hrun : Trace.exec (step admits program) (start s) es = some w) : Sound S T es w := by
  refine Trace.exec_invariant_prefix (J := Sound S T) (fun pre t e t' _ _ ht hstep => ?_) ?_ hrun
  · have hlater := ht.later hS hT (List.prefix_append pre [e])
    cases e with
    | arrive c =>
      simp only [step, Option.ite_none_right_eq_some] at hstep
      obtain ⟨hadmits, hstep⟩ := hstep
      obtain rfl := Option.some.inj hstep
      exact hlater.arrive (hcall pre c t.answers ht.answers hadmits)
    | act i =>
      simp only [step] at hstep
      split at hstep
      next hi =>
        obtain rfl := Option.some.inj hstep
        exact hlater.act hS hi
      next => cases hstep
    | answer i =>
      simp only [step] at hstep
      split at hstep
      next hi =>
        obtain rfl := Option.some.inj hstep
        exact hlater.answer hi
      next => cases hstep
    | crash =>
      obtain rfl := Option.some.inj hstep
      exact ⟨hlater.store, fun p hp => absurd hp List.not_mem_nil, hlater.answers⟩
  · exact ⟨hs, fun p hp => absurd hp List.not_mem_nil, fun a ha => absurd ha List.not_mem_nil⟩

end Runs

end Service
