-- SUMMARY: A small Hoare logic for state monads: triples, the invariants a computation keeps, and the rules for composing both.
import Mathlib.Logic.Basic

/-!
# Hoare logic for `StateM`

A triple speaks about the value a computation returns and the state it leaves. What relates
the state after to the state before is said with a fixed start: the precondition fixes it
and the postcondition mentions it. An invariant that every step of a computation keeps
passes through sequencing, branching and loops.
-/

namespace Hoare

variable {σ α β : Type} {P : σ → Prop}

/-- From every state in `P`, the returned value and the state left behind satisfy `Q`. -/
def Triple (P : σ → Prop) (x : StateM σ α) (Q : α → σ → Prop) : Prop :=
  ∀ s, P s → Q (x.run s).1 (x.run s).2

/-- The invariant `I` holds after `x` if it holds before. -/
def Keeps (I : σ → Prop) (x : StateM σ α) : Prop := Triple I x fun _ => I

theorem Triple.conseq {P' : σ → Prop} {x : StateM σ α} {Q Q' : α → σ → Prop}
    (h : Triple P x Q) (hP : ∀ s, P' s → P s) (hQ : ∀ a s, Q a s → Q' a s) : Triple P' x Q' :=
  fun s hs => hQ _ _ (h s (hP s hs))

/-- A fact in the precondition that does not depend on the state. -/
theorem Triple.assume {p : Prop} {x : StateM σ α} {Q : α → σ → Prop}
    (h : p → Triple P x Q) : Triple (fun s => p ∧ P s) x Q :=
  fun s hs => h hs.1 s hs.2

theorem Triple.pure {a : α} {Q : α → σ → Prop} (h : ∀ s, P s → Q a s) :
    Triple P (pure a : StateM σ α) Q := h

theorem Triple.bind {x : StateM σ α} {Q : α → σ → Prop} {f : α → StateM σ β}
    {R : β → σ → Prop} (hx : Triple P x Q) (hf : ∀ a, Triple (Q a) (f a) R) :
    Triple P (x >>= f) R :=
  fun s hs => hf _ _ (hx s hs)

/-- After reading the state, the state is the one that was read. -/
theorem Triple.get_eq {f : σ → StateM σ β} {R : β → σ → Prop}
    (h : ∀ s, P s → Triple (fun s' => s' = s) (f s) R) : Triple P (get >>= f) R :=
  fun s hs => h s hs s rfl

/-- The same, when only the precondition of what was read matters. -/
theorem Triple.get {f : σ → StateM σ β} {R : β → σ → Prop}
    (h : ∀ s, P s → Triple P (f s) R) : Triple P (get >>= f) R :=
  fun s hs => h s hs s hs

theorem Triple.modify {f : σ → σ} {Q : PUnit → σ → Prop} (h : ∀ s, P s → Q ⟨⟩ (f s)) :
    Triple P (modify f : StateM σ PUnit) Q := h

theorem Triple.set {s' : σ} {Q : PUnit → σ → Prop} (h : ∀ s, P s → Q ⟨⟩ s') :
    Triple P (set s' : StateM σ PUnit) Q := h

theorem Triple.ite {c : Prop} [Decidable c] {x y : StateM σ α} {Q : α → σ → Prop}
    (hx : c → Triple P x Q) (hy : ¬ c → Triple P y Q) :
    Triple P (if c then x else y) Q := by
  split
  · rename_i hc
    exact hx hc
  · rename_i hc
    exact hy hc

/-! ## Invariants -/

theorem Keeps.pure (a : α) : Keeps P (pure a : StateM σ α) := Triple.pure fun _ h => h

theorem Keeps.bind {x : StateM σ α} {f : α → StateM σ β} (hx : Keeps P x)
    (hf : ∀ a, Keeps P (f a)) : Keeps P (x >>= f) := Triple.bind hx hf

theorem Keeps.get {f : σ → StateM σ β} (h : ∀ s, P s → Keeps P (f s)) : Keeps P (get >>= f) :=
  Triple.get h

theorem Keeps.modify {f : σ → σ} (h : ∀ s, P s → P (f s)) :
    Keeps P (modify f : StateM σ PUnit) := h

theorem Keeps.ite {c : Prop} [Decidable c] {x y : StateM σ α} (hx : c → Keeps P x)
    (hy : ¬ c → Keeps P y) : Keeps P (if c then x else y) := Triple.ite hx hy

theorem Keeps.forM {f : α → StateM σ PUnit} {l : List α} (hf : ∀ a ∈ l, Keeps P (f a)) :
    Keeps P (l.forM f) := by
  induction l with
  | nil => exact Keeps.pure PUnit.unit
  | cons a l ih =>
    exact Keeps.bind (hf a List.mem_cons_self) fun _ =>
      ih fun b hb => hf b (List.mem_cons_of_mem a hb)

end Hoare
