-- SUMMARY: Programs over a shared store as resumptions: atomic actions separated by points where other programs may run, with their sequential and their interleaved semantics.
import Mathlib.Data.List.Count
import Mathlib.Logic.Function.Basic
import ParkingGate.Base.Trace

/-!
# Programs of atomic actions

A program over a store `σ` is a tree of atomic actions. An action reads the store,
updates it, and continues with a program that depends on what it read. Between two
actions of one program any other program may act, so the same definition has a
sequential semantics (`run`) and an interleaved one (`Pool.step`).

`Maintains I p Q` is the rule of the library: every action of `p` keeps the store
invariant `I`, whatever happened between its actions as long as `I` was kept, and
the value `p` returns satisfies `Q`. It composes along `bind`, it holds of a
sequential run, and a pool of programs that all maintain `I` maintains it under
every schedule.
-/

universe u v

/-- A program over the store `σ` that returns an `α`. -/
inductive Prog (σ : Type v) (α : Type u) : Type (max u v) where
  | ret (a : α)
  | act (upd : σ → σ) (next : σ → Prog σ α)

namespace Prog

variable {σ : Type v} {α β γ : Type u}

def bind : Prog σ α → (α → Prog σ β) → Prog σ β
  | .ret a, k        => k a
  | .act upd next, k => .act upd fun s => (next s).bind k

instance : Monad (Prog σ) where
  pure := .ret
  bind := bind

@[simp] theorem ret_bind (a : α) (k : α → Prog σ β) : (Prog.ret a >>= k) = k a := rfl
@[simp] theorem act_bind (upd : σ → σ) (next : σ → Prog σ α) (k : α → Prog σ β) :
    (Prog.act upd next >>= k) = .act upd fun s => next s >>= k := rfl

private theorem bind_ret (p : Prog σ α) : (p.bind fun a => .ret a) = p := by
  induction p with
  | ret a => rfl
  | act upd next ih => simp only [bind, ih]

private theorem bind_bind (p : Prog σ α) (k : α → Prog σ β) (k' : β → Prog σ γ) :
    (p.bind k).bind k' = p.bind fun a => (k a).bind k' := by
  induction p with
  | ret a => rfl
  | act upd next ih => simp only [bind, ih]

instance : LawfulMonad (Prog σ) := LawfulMonad.mk' _ bind_ret (fun _ _ => rfl) bind_bind

/-- A single atomic action that returns what `f` computes from the store. -/
def atomically (f : σ → α × σ) : Prog σ α := .act (fun s => (f s).2) fun s => .ret (f s).1

/-- The value a program has returned. -/
def result? : Prog σ α → Option α
  | .ret a   => some a
  | .act _ _ => none

theorem result?_eq_some {p : Prog σ α} {a : α} : p.result? = some a ↔ p = .ret a := by
  cases p <;> simp [result?]

/-! ## Sequential runs -/

/-- Run a program to its end without interference. -/
def run : Prog σ α → σ → α × σ
  | .ret a, s        => (a, s)
  | .act upd next, s => (next s).run (upd s)

@[simp] theorem run_ret (a : α) (s : σ) : (Prog.ret a).run s = (a, s) := rfl
@[simp] theorem run_act (upd : σ → σ) (next : σ → Prog σ α) (s : σ) :
    (Prog.act upd next).run s = (next s).run (upd s) := rfl

@[simp] theorem run_bind (p : Prog σ α) (k : α → Prog σ β) (s : σ) :
    (p >>= k).run s = (k (p.run s).1).run (p.run s).2 := by
  induction p generalizing s with
  | ret a => rfl
  | act upd next ih => simpa using ih s (upd s)

/-- The updates that a run makes, one for each action. -/
def updates : Prog σ α → σ → List (σ → σ)
  | .ret _, _        => []
  | .act upd next, s => upd :: (next s).updates (upd s)

/-! ## Invariants of the store -/

/-- Every action of the program keeps `I`, and its result satisfies `Q`. -/
def Maintains (I : σ → Prop) : Prog σ α → (α → Prop) → Prop
  | .ret a, Q        => Q a
  | .act upd next, Q => ∀ s, I s → I (upd s) ∧ (next s).Maintains I Q

namespace Maintains

variable {I : σ → Prop} {Q Q' : α → Prop}

theorem mono {p : Prog σ α} (h : p.Maintains I Q) (hQ : ∀ a, Q a → Q' a) : p.Maintains I Q' := by
  induction p with
  | ret a => exact hQ a h
  | act upd next ih => exact fun s hs => ⟨(h s hs).1, ih s (h s hs).2⟩

theorem bind {p : Prog σ α} {k : α → Prog σ β} {R : β → Prop}
    (h : p.Maintains I Q) (hk : ∀ a, Q a → (k a).Maintains I R) : (p >>= k).Maintains I R := by
  induction p with
  | ret a => exact hk a h
  | act upd next ih => exact fun s hs => ⟨(h s hs).1, ih s (h s hs).2⟩

theorem run {p : Prog σ α} (h : p.Maintains I Q) {s : σ} (hs : I s) :
    Q (p.run s).1 ∧ I (p.run s).2 := by
  induction p generalizing s with
  | ret a => exact ⟨h, hs⟩
  | act upd next ih => exact ih s (h s hs).2 (h s hs).1

end Maintains

/-- Every action of the program, on every path, satisfies `E`. -/
def Always (E : (σ → σ) → Prop) : Prog σ α → Prop
  | .ret _         => True
  | .act upd next => E upd ∧ ∀ s, (next s).Always E

/-- Every path of the program takes an action that establishes `X`, and no later action
    of the program breaks it. -/
def Reaches (X : σ → Prop) : Prog σ α → Prop
  | .ret _         => False
  | .act upd next =>
    (∀ s, X (upd s) ∧ (next s).Always fun upd => ∀ s, X s → X (upd s)) ∨ ∀ s, (next s).Reaches X

/-- Every action satisfies `E`, except that a path may take one action that satisfies `D`. -/
def Once (E D : (σ → σ) → Prop) : Prog σ α → Prop
  | .ret _         => True
  | .act upd next => (E upd ∧ ∀ s, (next s).Once E D) ∨ (D upd ∧ ∀ s, (next s).Always E)

/-- Every path of the program takes `n` actions that keep `I` and obey `G`, and an action
    with `D` after them, unless it stops before with a value that satisfies `F`. -/
def Leads (I : σ → Prop) (G : σ → σ → Prop) (F : α → Prop) (D : (σ → σ) → Prop) :
    Nat → Prog σ α → Prop
  | _, .ret a            => F a
  | 0, .act upd _        => D upd
  | n + 1, .act upd next => ∀ s, I s → I (upd s) ∧ G s (upd s) ∧ (next s).Leads I G F D n

theorem leads_ret {I : σ → Prop} {G : σ → σ → Prop} {F : α → Prop} {D : (σ → σ) → Prop} {n : Nat}
    {a : α} : (ret a : Prog σ α).Leads I G F D n ↔ F a := by
  cases n <;> rfl

namespace Always

variable {E E' : (σ → σ) → Prop}

theorem mono {p : Prog σ α} (h : p.Always E) (hE : ∀ upd, E upd → E' upd) : p.Always E' := by
  induction p with
  | ret a => trivial
  | act upd next ih => exact ⟨hE _ h.1, fun s => ih s (h.2 s)⟩

theorem bind {p : Prog σ α} {k : α → Prog σ β} (h : p.Always E) (hk : ∀ a, (k a).Always E) :
    (p >>= k).Always E := by
  induction p with
  | ret a => exact hk a
  | act upd next ih => exact ⟨h.1, fun s => ih s (h.2 s)⟩

/-- What every action of the program does in one step, the run does in several. -/
theorem run {R : σ → σ → Prop} (hrefl : ∀ s, R s s) (htrans : ∀ s t u, R s t → R t u → R s u)
    {p : Prog σ α} (h : p.Always fun upd => ∀ s, R s (upd s)) (s : σ) : R s (p.run s).2 := by
  induction p generalizing s with
  | ret a => exact hrefl s
  | act upd next ih => exact htrans _ _ _ (h.1 s) (ih s (h.2 s) (upd s))

theorem maintains {I : σ → Prop} {p : Prog σ α}
    (h : p.Always fun upd => ∀ s, I s → I (upd s)) : p.Maintains I fun _ => True := by
  induction p with
  | ret a => trivial
  | act upd next ih => exact fun s hs => ⟨h.1 s hs, ih s (h.2 s)⟩

end Always

namespace Once

variable {E D : (σ → σ) → Prop}

theorem of_always {p : Prog σ α} (h : p.Always E) : p.Once E D := by
  induction p with
  | ret a => trivial
  | act upd next ih => exact .inl ⟨h.1, fun s => ih s (h.2 s)⟩

theorem always {p : Prog σ α} (h : p.Once E D) : p.Always fun upd => E upd ∨ D upd := by
  induction p with
  | ret a => trivial
  | act upd next ih =>
    rcases h with ⟨hE, hnext⟩ | ⟨hD, hnext⟩
    · exact ⟨.inl hE, fun s => ih s (hnext s)⟩
    · exact ⟨.inr hD, fun s => (hnext s).mono fun _ => .inl⟩

/-- The exceptional action comes in the second part. -/
theorem bind_right {p : Prog σ α} {k : α → Prog σ β} (h : p.Always E)
    (hk : ∀ a, (k a).Once E D) : (p >>= k).Once E D := by
  induction p with
  | ret a => exact hk a
  | act upd next ih => exact .inl ⟨h.1, fun s => ih s (h.2 s)⟩

/-- The exceptional action comes in the first part. -/
theorem bind_left {p : Prog σ α} {k : α → Prog σ β} (h : p.Once E D)
    (hk : ∀ a, (k a).Always E) : (p >>= k).Once E D := by
  induction p with
  | ret a => exact of_always (hk a)
  | act upd next ih =>
    rcases h with ⟨hE, hnext⟩ | ⟨hD, hnext⟩
    · exact .inl ⟨hE, fun s => ih s (hnext s)⟩
    · exact .inr ⟨hD, fun s => (hnext s).bind hk⟩

end Once

end Prog

/-! ## Programs that may fail -/

/-- A program that returns an `α` or throws an `ε`. -/
abbrev Fallible (ε : Type u) (σ : Type v) (α : Type u) := ExceptT ε (Prog σ) α

namespace Fallible

variable {ε : Type u} {σ : Type v} {α β : Type u}

/-- The underlying program, whose result says whether an exception was thrown. -/
def prog (p : Fallible ε σ α) : Prog σ (Except ε α) := ExceptT.run p

/-- An atomic action that does not throw. -/
def atomically (f : σ → α × σ) : Fallible ε σ α := ExceptT.lift (Prog.atomically f)

@[simp] theorem prog_throw (e : ε) : prog (throw e : Fallible ε σ α) = .ret (.error e) := rfl

@[simp] theorem prog_atomically (f : σ → α × σ) :
    prog (atomically f : Fallible ε σ α) =
      .act (fun s => (f s).2) fun s => .ret (.ok (f s).1) := rfl

theorem prog_bind (p : Fallible ε σ α) (k : α → Fallible ε σ β) :
    prog (p >>= k) = prog p >>= fun
      | .ok a    => prog (k a)
      | .error e => .ret (.error e) := by
  change ExceptT.run (p >>= k) = _
  rw [ExceptT.run_bind]
  refine bind_congr fun r => ?_
  cases r <;> rfl

@[simp] theorem prog_atomically_bind (f : σ → α × σ) (k : α → Fallible ε σ β) :
    prog (atomically f >>= k) = .act (fun s => (f s).2) fun s => prog (k (f s).1) := by
  simp [prog_bind]

/-- A program whose result is not used. -/
theorem run_discard (p : Fallible ε σ α) (s : σ) :
    (prog (do let _ ← p : Fallible ε σ PUnit)).run s =
      ((p.prog.run s).1.map fun _ => ⟨⟩, (p.prog.run s).2) := by
  rw [prog_bind, Prog.run_bind]
  match p.prog.run s with
  | (.ok _, _)    => rfl
  | (.error _, _) => rfl

theorem always_bind {E : (σ → σ) → Prop} {p : Fallible ε σ α} {k : α → Fallible ε σ β}
    (h : p.prog.Always E) (hk : ∀ a, (k a).prog.Always E) : (p >>= k).prog.Always E := by
  rw [prog_bind]
  refine h.bind fun r => ?_
  cases r with
  | ok a => exact hk a
  | error e => trivial

/-- `if (c) throw e;` followed by the rest of the program. -/
theorem always_guard {E : (σ → σ) → Prop} {c : Prop} [Decidable c] {e : ε}
    {k : PUnit → Fallible ε σ α} (h : (k ⟨⟩).prog.Always E) :
    (if c then throw e >>= k else k ⟨⟩).prog.Always E := by
  split
  · trivial
  · exact h

/-- `if (c) p;` followed by the rest of the program. -/
theorem always_when {E : (σ → σ) → Prop} {c : Prop} [Decidable c] {p : Fallible ε σ PUnit}
    {k : PUnit → Fallible ε σ α} (hp : c → p.prog.Always E) (hk : (k ⟨⟩).prog.Always E) :
    (if c then p >>= k else k ⟨⟩).prog.Always E := by
  split
  next hc => exact always_bind (hp hc) fun _ => hk
  next => exact hk

theorem always_tryCatch {E : (σ → σ) → Prop} {p : Fallible ε σ α} {handler : ε → Fallible ε σ α}
    (h : p.prog.Always E) (hh : ∀ e, (handler e).prog.Always E) :
    (tryCatch p handler).prog.Always E := by
  refine Prog.Always.bind (p := p.prog) h fun r => ?_
  cases r with
  | ok a => trivial
  | error e => exact hh e

theorem once_bind_right {E D : (σ → σ) → Prop} {p : Fallible ε σ α} {k : α → Fallible ε σ β}
    (h : p.prog.Always E) (hk : ∀ a, (k a).prog.Once E D) : (p >>= k).prog.Once E D := by
  rw [prog_bind]
  refine Prog.Once.bind_right h fun r => ?_
  cases r with
  | ok a => exact hk a
  | error e => trivial

theorem once_bind_left {E D : (σ → σ) → Prop} {p : Fallible ε σ α} {k : α → Fallible ε σ β}
    (h : p.prog.Once E D) (hk : ∀ a, (k a).prog.Always E) : (p >>= k).prog.Once E D := by
  rw [prog_bind]
  refine h.bind_left fun r => ?_
  cases r with
  | ok a => exact hk a
  | error e => trivial

theorem leads_bind {I : σ → Prop} {G : σ → σ → Prop} {F : Except ε β → Prop}
    {D : (σ → σ) → Prop} {n : Nat} {f : σ → α × σ} {k : α → Fallible ε σ β}
    (h : ∀ s, I s → I (f s).2 ∧ G s (f s).2 ∧ (k (f s).1).prog.Leads I G F D n) :
    (atomically f >>= k).prog.Leads I G F D (n + 1) := by
  rw [prog_atomically_bind]
  exact h

/-- Every action of the program keeps `I`, and a value it returns satisfies `Q`. -/
def Keeps (I : σ → Prop) (p : Fallible ε σ α) (Q : α → Prop) : Prop :=
  p.prog.Maintains I fun r => ∀ a, r = .ok a → Q a

namespace Keeps

variable {I : σ → Prop} {Q : α → Prop} {R : β → Prop}

theorem pure {a : α} (h : Q a) : Keeps I (pure a : Fallible ε σ α) Q := by
  rintro b hb
  exact Except.ok.inj hb ▸ h

theorem throw {e : ε} : Keeps I (throw e : Fallible ε σ α) Q := by
  intro b hb
  cases hb

theorem bind {p : Fallible ε σ α} {k : α → Fallible ε σ β}
    (h : Keeps I p Q) (hk : ∀ a, Q a → Keeps I (k a) R) : Keeps I (p >>= k) R := by
  unfold Keeps
  rw [prog_bind]
  refine Prog.Maintains.bind h fun r hr => ?_
  cases r with
  | ok a => exact hk a (hr a rfl)
  | error e => exact fun b hb => by cases hb

theorem atomically {f : σ → α × σ} (h : ∀ s, I s → I (f s).2 ∧ Q (f s).1) :
    Keeps I (atomically f : Fallible ε σ α) Q :=
  fun s hs => ⟨(h s hs).1, fun _ ha => Except.ok.inj ha ▸ (h s hs).2⟩

/-- `if (c) throw e;` followed by the rest of the program. -/
theorem guard {c : Prop} [Decidable c] {e : ε} {k : PUnit → Fallible ε σ α}
    (h : ¬ c → Keeps I (k ⟨⟩) Q) : Keeps I (if c then MonadExcept.throw e >>= k else k ⟨⟩) Q := by
  split
  next =>
    intro b hb
    cases hb
  next hc => exact h hc

theorem run {p : Fallible ε σ α} (h : Keeps I p Q) {s : σ} (hs : I s) :
    (∀ a, (p.prog.run s).1 = .ok a → Q a) ∧ I (p.prog.run s).2 :=
  Prog.Maintains.run h hs

end Keeps

/-- Run alone from `s`, the program fails and leaves the store as it is, or it returns a
    value that satisfies `Q` together with the store it leaves. -/
def Settles (p : Fallible ε σ α) (s : σ) (Q : α → σ → Prop) : Prop :=
  (∃ e, p.prog.run s = (.error e, s)) ∨ ∃ a s', p.prog.run s = (.ok a, s') ∧ Q a s'

namespace Settles

variable {s : σ} {Q : α → σ → Prop} {R : β → σ → Prop}

theorem throw {e : ε} : Settles (throw e : Fallible ε σ α) s Q := .inl ⟨e, rfl⟩

theorem returns {p : Fallible ε σ α} {a : α} {s' : σ} (h : p.prog.run s = (.ok a, s'))
    (hQ : Q a s') : Settles p s Q := .inr ⟨a, s', h, hQ⟩

/-- An action that only reads, before the rest of the program. -/
theorem read {f : σ → α × σ} {k : α → Fallible ε σ β} (hf : (f s).2 = s)
    (h : Settles (k (f s).1) s R) : Settles (atomically f >>= k) s R := by
  rw [Settles, prog_atomically_bind, Prog.run_act, hf]
  exact h

/-- `if (c) throw e;` followed by the rest of the program. -/
theorem guard {c : Prop} [Decidable c] {e : ε} {k : PUnit → Fallible ε σ α}
    (h : ¬ c → Settles (k ⟨⟩) s Q) : Settles (if c then MonadExcept.throw e >>= k else k ⟨⟩) s Q := by
  split
  next => exact .inl ⟨e, rfl⟩
  next hc => exact h hc

/-- What holds of the store before the run, and of every store a success leaves, holds after it. -/
theorem leaves {p : Fallible ε σ α} {P : σ → Prop} (h : Settles p s Q) (hs : P s)
    (hQ : ∀ a s', Q a s' → P s') : P (p.prog.run s).2 := by
  rcases h with ⟨e, he⟩ | ⟨a, s', ha, hq⟩
  · exact he ▸ hs
  · exact ha ▸ hQ a s' hq

/-- The value and the store of a run that returned. -/
theorem of_ok {p : Fallible ε σ α} (h : Settles p s Q) {a : α} (ha : (p.prog.run s).1 = .ok a) :
    Q a (p.prog.run s).2 := by
  rcases h with ⟨e, he⟩ | ⟨b, s', hb, hQ⟩
  · rw [he] at ha
    cases ha
  · rw [hb] at ha ⊢
    cases ha
    exact hQ

/-- The store of a run that failed. -/
theorem of_error {p : Fallible ε σ α} (h : Settles p s Q) {e : ε}
    (he : (p.prog.run s).1 = .error e) : (p.prog.run s).2 = s := by
  rcases h with ⟨e', he'⟩ | ⟨b, s', hb, -⟩
  · rw [he']
  · rw [hb] at he
    cases he

end Settles

/-- Run alone from a store in `P`, the program returns a value that satisfies `Q` with the
    store it leaves, or it throws and leaves a store in `E`. -/
def Triple (P : σ → Prop) (p : Fallible ε σ α) (Q : α → σ → Prop) (E : σ → Prop) : Prop :=
  ∀ s, P s → match p.prog.run s with
    | (.ok a, s')    => Q a s'
    | (.error _, s') => E s'

namespace Triple

variable {P P' E E' : σ → Prop} {Q Q' : α → σ → Prop} {R : β → σ → Prop}

theorem conseq {p : Fallible ε σ α} (h : Triple P p Q E) (hP : ∀ s, P' s → P s)
    (hQ : ∀ a s, Q a s → Q' a s) (hE : ∀ s, E s → E' s) : Triple P' p Q' E' := by
  intro s hs
  have hrun := h s (hP s hs)
  revert hrun
  match p.prog.run s with
  | (.ok a, s')    => exact hQ a s'
  | (.error _, s') => exact hE s'

/-- A fact in the precondition that does not depend on the store. -/
theorem assume {c : Prop} {p : Fallible ε σ α} (h : c → Triple P p Q E) :
    Triple (fun s => c ∧ P s) p Q E :=
  fun s hs => h hs.1 s hs.2

theorem pure {a : α} (h : ∀ s, P s → Q a s) : Triple P (pure a : Fallible ε σ α) Q E := h

theorem throw {e : ε} (h : ∀ s, P s → E s) : Triple P (throw e : Fallible ε σ α) Q E := h

theorem atomically {f : σ → α × σ} (h : ∀ s, P s → Q (f s).1 (f s).2) :
    Triple P (atomically f : Fallible ε σ α) Q E := h

theorem bind {p : Fallible ε σ α} {k : α → Fallible ε σ β} (h : Triple P p Q E)
    (hk : ∀ a, Triple (Q a) (k a) R E) : Triple P (p >>= k) R E := by
  intro s hs
  have hrun := h s hs
  rw [prog_bind, Prog.run_bind]
  revert hrun
  match p.prog.run s with
  | (.ok a, s')    => exact hk a s'
  | (.error _, s') => exact id

/-- `if (c) throw e;` followed by the rest of the program. -/
theorem guard {c : Prop} [Decidable c] {e : ε} {k : PUnit → Fallible ε σ α}
    (hE : ∀ s, P s → E s) (h : ¬ c → Triple P (k ⟨⟩) Q E) :
    Triple P (if c then MonadExcept.throw e >>= k else k ⟨⟩) Q E := by
  split
  next => exact hE
  next hc => exact h hc

/-- What every action of the program keeps. -/
theorem of_always {p : Fallible ε σ α} (h : p.prog.Always fun upd => ∀ s, P s → P (upd s)) :
    Triple P p (fun _ => P) P := by
  intro s hs
  have hrun : P (p.prog.run s).2 := (h.maintains.run hs).2
  revert hrun
  match p.prog.run s with
  | (.ok a, s')    => exact id
  | (.error _, s') => exact id

/-- What holds of the store after the run in both cases. -/
theorem leaves {p : Fallible ε σ α} (h : Triple P p (fun _ => E) E) {s : σ} (hs : P s) :
    E (p.prog.run s).2 := by
  have hrun := h s hs
  revert hrun
  match p.prog.run s with
  | (.ok a, s')    => exact id
  | (.error _, s') => exact id

end Triple

end Fallible

/-! ## Pools -/

/-- Programs that run concurrently over one store. -/
abbrev Pool {ι : Type*} (σ : Type*) (α : ι → Type*) := (i : ι) → Prog σ (α i)

namespace Pool

variable {ι : Type*} [DecidableEq ι] {σ : Type*} {α : ι → Type*}

/-- Program `i` takes its next action; a program that has returned takes none. -/
def step (c : Pool σ α × σ) (i : ι) : Option (Pool σ α × σ) :=
  match c.1 i with
  | .ret _        => none
  | .act upd next => some (Function.update c.1 i (next c.2), upd c.2)

/-- All programs have returned. -/
def Finished (P : Pool σ α) : Prop := ∀ i, ∃ a, P i = .ret a

omit [DecidableEq ι] in
theorem finished_of_result? {P : Pool σ α} (h : ∀ i, (P i).result?.isSome = true) : Finished P :=
  fun i => (Option.isSome_iff_exists.mp (h i)).imp fun _ => Prog.result?_eq_some.mp

theorem step_eq_some {c c' : Pool σ α × σ} {i : ι} (h : step c i = some c') :
    ∃ upd next, c.1 i = .act upd next ∧
      c' = (Function.update c.1 i (next c.2), upd c.2) := by
  unfold step at h
  split at h
  · cases h
  · rename_i upd next hi
    exact ⟨upd, next, hi, (Option.some.inj h).symm⟩

/-- A pool of programs that all maintain an invariant maintains it under every
    schedule, and what they return satisfies their postconditions. -/
theorem exec_maintains {I : σ → Prop} {Q : ∀ i, α i → Prop} {c c' : Pool σ α × σ}
    {sched : List ι} (hP : ∀ i, (c.1 i).Maintains I (Q i)) (hs : I c.2)
    (h : Trace.exec step c sched = some c') :
    (∀ i, (c'.1 i).Maintains I (Q i)) ∧ I c'.2 := by
  refine Trace.exec_invariant (J := fun c => (∀ i, (c.1 i).Maintains I (Q i)) ∧ I c.2)
    ?_ ⟨hP, hs⟩ h
  rintro c i c' ⟨hP, hs⟩ hstep
  obtain ⟨upd, next, hi, rfl⟩ := step_eq_some hstep
  have hact : I (upd c.2) ∧ (next c.2).Maintains I (Q i) := by
    have := hP i
    rw [hi] at this
    exact this c.2 hs
  refine ⟨fun j => ?_, hact.1⟩
  by_cases hj : j = i
  · subst hj
    simpa using hact.2
  · simpa [Function.update_of_ne hj] using hP j

/-- An invariant that may say how many actions each program has taken. -/
theorem exec_counted {J : (ι → Nat) → Pool σ α × σ → Prop}
    (hstep : ∀ k c i c', J k c → step c i = some c' → J (Function.update k i (k i + 1)) c')
    {k : ι → Nat} {c c' : Pool σ α × σ} {sched : List ι} (hJ : J k c)
    (h : Trace.exec step c sched = some c') : J (fun i => k i + sched.count i) c' := by
  induction sched generalizing k c with
  | nil =>
    simp only [Trace.exec_nil, Option.some.injEq] at h
    simpa [h] using hJ
  | cons i sched ih =>
    obtain ⟨d, hi, hrest⟩ := Trace.exec_cons_some h
    have hcount : (fun j => Function.update k i (k i + 1) j + sched.count j) =
        fun j => k j + (i :: sched).count j := by
      funext j
      by_cases hj : j = i
      · subst hj
        simp [Nat.add_right_comm, Nat.add_assoc]
      · simp [Function.update_of_ne hj, Ne.symm hj]
    exact hcount ▸ ih (hstep k c i d hJ hi) hrest

/-- A schedule in which program `i` takes more than `n` actions splits at its action
    number `n` (from zero). -/
theorem exists_split_of_lt_count {n : Nat} {sched : List ι} {i : ι} (h : n < sched.count i) :
    ∃ pre post, sched = pre ++ i :: post ∧ pre.count i = n := by
  induction sched generalizing n with
  | nil => simp at h
  | cons l sched ih =>
    by_cases hl : l = i
    · subst hl
      cases n with
      | zero => exact ⟨[], sched, rfl, rfl⟩
      | succ n =>
        obtain ⟨pre, post, rfl, hcount⟩ := ih (by simpa using h)
        exact ⟨l :: pre, post, rfl, by simp [hcount]⟩
    · obtain ⟨pre, post, rfl, hcount⟩ := ih (by simpa [hl] using h)
      exact ⟨l :: pre, post, rfl, by simpa [hl] using hcount⟩

/-- The schedule splits where a program takes its action number `n` (from zero) and every
    program that ever takes its action number `n` has then done so. -/
structure LastAct (n : Nat) (sched pre : List ι) (i : ι) (post : List ι) : Prop where
  split : sched = pre ++ i :: post
  count : pre.count i = n
  last : ∀ j, n < sched.count j → n < (pre ++ [i]).count j

theorem exists_lastAct {n : Nat} {sched : List ι} {i : ι} (h : n < sched.count i) :
    ∃ pre j post, LastAct n sched pre j post := by
  induction sched using List.reverseRecOn with
  | nil => simp at h
  | append_singleton sched l ih =>
    by_cases hl : sched.count l = n
    · exact ⟨sched, l, [], rfl, hl, fun _ hj => hj⟩
    · -- the last element is not an action number `n`
      have hmem : ∀ j, n < (sched ++ [l]).count j → n < sched.count j := by
        intro j hj
        by_cases hlj : l = j
        · subst hlj
          have : (sched ++ [l]).count l = sched.count l + 1 := by simp
          omega
        · simpa [List.count_append, hlj] using hj
      obtain ⟨pre, j, post, rfl, hcount, hlast⟩ := ih (hmem i h)
      exact ⟨pre, j, post ++ [l], by simp, hcount, fun k hk => hlast k (hmem k hk)⟩

/-- When all programs have returned, the program that reaches `X` has established it and
    the others have not broken it. -/
theorem exec_reaches {X : σ → Prop} {i : ι} {c c' : Pool σ α × σ} {sched : List ι}
    (hi : (c.1 i).Reaches X)
    (hothers : ∀ j, j ≠ i → (c.1 j).Always fun upd => ∀ s, X s → X (upd s))
    (h : Trace.exec step c sched = some c') (hfin : Finished c'.1) : X c'.2 := by
  let Keeps {β} (p : Prog σ β) : Prop := p.Always fun upd => ∀ s, X s → X (upd s)
  let J : Pool σ α × σ → Prop := fun c =>
    ((c.1 i).Reaches X ∨ Keeps (c.1 i) ∧ X c.2) ∧ ∀ j, j ≠ i → Keeps (c.1 j)
  have hJ : J c' := by
    refine Trace.exec_invariant (J := J) ?_ ⟨.inl hi, hothers⟩ h
    rintro c l c' ⟨hc, hothers⟩ hstep
    obtain ⟨upd, next, hl, rfl⟩ := step_eq_some hstep
    by_cases hli : l = i
    · subst hli
      refine ⟨?_, fun j hj => by simpa [Function.update_of_ne hj] using hothers j hj⟩
      rw [hl] at hc
      rcases hc with (hnow | hlater) | ⟨hkeep, hX⟩
      · exact .inr (by simpa using ⟨(hnow c.2).2, (hnow c.2).1⟩)
      · exact .inl (by simpa using hlater c.2)
      · exact .inr (by simpa using ⟨hkeep.2 c.2, hkeep.1 c.2 hX⟩)
    · have hkeep : Keeps (Prog.act upd next) := hl ▸ hothers l hli
      refine ⟨?_, fun j hj => ?_⟩
      · simp only [Function.update_of_ne (Ne.symm hli)]
        exact hc.imp_right fun ⟨hi, hX⟩ => ⟨hi, hkeep.1 c.2 hX⟩
      · by_cases hjl : j = l
        · subst hjl
          simpa using hkeep.2 c.2
        · simpa [Function.update_of_ne hjl] using hothers j hj
  obtain ⟨hr | ⟨-, hX⟩, -⟩ := hJ
  · obtain ⟨a, ha⟩ := hfin i
    rw [ha] at hr
    exact hr.elim
  · exact hX

end Pool
