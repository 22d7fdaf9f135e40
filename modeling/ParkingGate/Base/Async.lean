-- SUMMARY: Programs of an event loop: code that runs without interruption from one await to the next, weakest preconditions for its pieces, and loops of any number of such programs.
import Mathlib.Logic.Function.Basic

/-!
# Asynchronous programs

An async function runs on the state it shares with the others until it awaits something; then
it is parked, and goes on with the answer. What happens between two awaits is one piece: no
other program runs in between.

`wp E post` is the rule of the library: every piece of the program meets `E`, which speaks
about how the piece was entered, the state it began in, what it awaits at its end and the state
it leaves, and the last piece meets `post`. It composes along `bind`, and a loop whose programs
all meet `E` makes only steps that meet `E`.
-/

/-- A program over the state `σ` that awaits answers `A q` to questions `q` and returns an `α`. -/
inductive Async (σ : Type) {Q : Type} (A : Q → Type) (α : Type) where
  | ret (a : α)
  | act (upd : σ → σ) (next : σ → Async σ A α)
  | await (q : Q) (next : A q → Async σ A α)

namespace Async

variable {σ Q : Type} {A : Q → Type} {α β ε : Type}

def bind : Async σ A α → (α → Async σ A β) → Async σ A β
  | .ret a, k        => k a
  | .act upd next, k => .act upd fun s => (next s).bind k
  | .await q next, k => .await q fun a => (next a).bind k

instance : Monad (Async σ A) where
  pure := .ret
  bind := bind

/-- An action on the state that returns what `f` computes from it. -/
def atomically (f : σ → α × σ) : Async σ A α := .act (fun s => (f s).2) fun s => .ret (f s).1

def ask (q : Q) : Async σ A (A q) := .await q .ret

/-! ## Pieces -/

/-- Run a program to its next await, or to its end. -/
def run : Async σ A α → σ → Async σ A α × σ
  | .ret a, s        => (.ret a, s)
  | .act upd next, s => (next s).run (upd s)
  | .await q next, s => (.await q next, s)

/-- What a parked program awaits. -/
def question? : Async σ A α → Option Q
  | .await q _ => some q
  | _          => none

/-- How a piece of a program is entered. -/
inductive Entry {Q : Type} (A : Q → Type) where
  | start
  | answered (q : Q) (a : A q)

/-- Every piece of the program meets `E`, and the last one `post`, where the current piece was
    entered by `entry` in the state `s₀`, and the program is left to run from `s`. -/
def wp (E : Entry A → σ → Q → σ → Prop) (post : Entry A → σ → α → σ → Prop) :
    Entry A → σ → Async σ A α → σ → Prop
  | entry, s₀, .ret a, s        => post entry s₀ a s
  | entry, s₀, .act upd next, s => wp E post entry s₀ (next s) (upd s)
  | entry, s₀, .await q next, s =>
    E entry s₀ q s ∧ ∀ a s', wp E post (.answered q a) s' (next a) s'

section WeakestPre

variable {E E' : Entry A → σ → Q → σ → Prop} {post post' : Entry A → σ → α → σ → Prop}
  {entry : Entry A} {s₀ s : σ}

@[simp] theorem wp_pure {a : α} :
    wp E post entry s₀ (pure a : Async σ A α) s ↔ post entry s₀ a s := Iff.rfl

@[simp] theorem wp_atomically {f : σ → α × σ} :
    wp E post entry s₀ (atomically f) s ↔ post entry s₀ (f s).1 (f s).2 := Iff.rfl

@[simp] theorem wp_ask {q : Q} {post : Entry A → σ → A q → σ → Prop} :
    wp E post entry s₀ (ask q) s ↔
      E entry s₀ q s ∧ ∀ a s', post (.answered q a) s' a s' := Iff.rfl

@[simp] theorem wp_bind {p : Async σ A α} {k : α → Async σ A β}
    {post : Entry A → σ → β → σ → Prop} :
    wp E post entry s₀ (p >>= k) s ↔
      wp E (fun entry s₀ a s => wp E post entry s₀ (k a) s) entry s₀ p s := by
  induction p generalizing entry s₀ s with
  | ret a => exact Iff.rfl
  | act upd next ih => exact ih s
  | await q next ih => exact and_congr_right fun _ => forall_congr' fun a => forall_congr' fun s' => ih a

theorem wp_mono {p : Async σ A α} (h : wp E post entry s₀ p s)
    (hE : ∀ entry s₀ q s, E entry s₀ q s → E' entry s₀ q s)
    (hpost : ∀ entry s₀ a s, post entry s₀ a s → post' entry s₀ a s) :
    wp E' post' entry s₀ p s := by
  induction p generalizing entry s₀ s with
  | ret a => exact hpost _ _ _ _ h
  | act upd next ih => exact ih s h
  | await q next ih => exact ⟨hE _ _ _ _ h.1, fun a s' => ih a (h.2 a s')⟩

end WeakestPre

/-! ## Exceptions -/

section Exceptions

variable {E : Entry A → σ → Q → σ → Prop} {post : Entry A → σ → Except ε β → σ → Prop}
  {entry : Entry A} {s₀ s : σ}

@[simp] theorem wp_run_pure {a : β} :
    wp E post entry s₀ (ExceptT.run (pure a : ExceptT ε (Async σ A) β)) s ↔
      post entry s₀ (.ok a) s := Iff.rfl

@[simp] theorem wp_run_throw {e : ε} :
    wp E post entry s₀ (ExceptT.run (throw e : ExceptT ε (Async σ A) β)) s ↔
      post entry s₀ (.error e) s := Iff.rfl

@[simp] theorem wp_run_lift {p : Async σ A β} :
    wp E post entry s₀ (ExceptT.run (ExceptT.lift p : ExceptT ε (Async σ A) β)) s ↔
      wp E (fun entry s₀ a s => post entry s₀ (.ok a) s) entry s₀ p s := by
  change wp E post entry s₀ (p >>= fun a => pure (.ok a)) s ↔ _
  exact wp_bind

@[simp] theorem wp_run_bind {p : ExceptT ε (Async σ A) α} {k : α → ExceptT ε (Async σ A) β} :
    wp E post entry s₀ (ExceptT.run (p >>= k)) s ↔
      wp E (fun entry s₀ r s =>
        match r with
        | .ok a    => wp E post entry s₀ (k a).run s
        | .error e => post entry s₀ (.error e) s) entry s₀ p.run s := by
  simp only [ExceptT.run, Bind.bind, ExceptT.bind, ExceptT.mk]
  refine wp_bind.trans (iff_of_eq ?_)
  congr 1
  funext entry s₀ r s
  cases r <;> rfl

@[simp] theorem wp_run_tryCatch {p : ExceptT ε (Async σ A) β}
    {handler : ε → ExceptT ε (Async σ A) β} :
    wp E post entry s₀ (ExceptT.run (tryCatch p handler)) s ↔
      wp E (fun entry s₀ r s =>
        match r with
        | .ok b    => post entry s₀ (.ok b) s
        | .error e => wp E post entry s₀ (handler e).run s) entry s₀ p.run s := by
  simp only [ExceptT.run, tryCatch, tryCatchThe, MonadExceptOf.tryCatch, ExceptT.tryCatch, ExceptT.mk]
  refine wp_bind.trans (iff_of_eq ?_)
  congr 1
  funext entry s₀ r s
  cases r <;> rfl

end Exceptions

/-! ## Loops -/

/-- `E` holds of every piece of the program that is still to run, where `none` stands for the
    end of the program. -/
def Rest (E : Entry A → σ → Option Q → σ → Prop) (entry : Entry A) (s₀ : σ) (p : Async σ A α)
    (s : σ) : Prop :=
  wp (fun entry s₀ q s => E entry s₀ (some q) s) (fun entry s₀ _ s => E entry s₀ none s) entry s₀ p s

/-- `E` holds of every piece of the program. -/
def Meets (E : Entry A → σ → Option Q → σ → Prop) (p : Async σ A α) : Prop :=
  ∀ s, p.Rest E .start s s

/-- `E` holds of every piece of the parked program. -/
def Parked (E : Entry A → σ → Option Q → σ → Prop) (p : Async σ A α) : Prop :=
  ∀ q next, p = .await q next → ∀ a s, (next a).Rest E (.answered q a) s s

/-- The next piece meets `E`, and what is parked afterwards does. -/
theorem Rest.run {E : Entry A → σ → Option Q → σ → Prop} {entry : Entry A} {s₀ s : σ}
    {p : Async σ A α} (h : p.Rest E entry s₀ s) :
    E entry s₀ (p.run s).1.question? (p.run s).2 ∧ (p.run s).1.Parked E := by
  induction p generalizing s with
  | ret a => exact ⟨h, fun q next heq => by cases heq⟩
  | act upd next ih => exact ih s h
  | await q next _ =>
    refine ⟨h.1, ?_⟩
    rintro _ _ ⟨⟩
    exact h.2

/-- Any number of programs over one state. -/
structure Loop (σ : Type) {Q : Type} (A : Q → Type) (α ι : Type) where
  state : σ
  tasks : ι → Option (Async σ A α)

namespace Loop

variable {ι : Type} [DecidableEq ι] (w : Loop σ A α ι) (i : ι)

/-- Run the next piece of the program `p` of task `i`. -/
def put (p : Async σ A α) : Loop σ A α ι :=
  ⟨(p.run w.state).2, Function.update w.tasks i (some (p.run w.state).1)⟩

def start (p : Async σ A α) : Option (Loop σ A α ι) :=
  if (w.tasks i).isSome then none else some (w.put i p)

/-- The question of a parked task is answered, if the state allows the answer. -/
def resume (allows : σ → (q : Q) → A q → Bool) (answer : (q : Q) → A q) :
    Option (Loop σ A α ι) :=
  match w.tasks i with
  | some (.await q next) =>
    if allows w.state q (answer q) then some (w.put i (next (answer q))) else none
  | _ => none

/-- What task `i` awaits. -/
def awaits : Option Q := (w.tasks i).bind question?

variable {w i}

@[simp] theorem awaits_put_self {p : Async σ A α} :
    (w.put i p).awaits i = (p.run w.state).1.question? := by
  simp [awaits, put]

@[simp] theorem awaits_put_of_ne {p : Async σ A α} {j : ι} (h : j ≠ i) :
    (w.put i p).awaits j = w.awaits j := by
  simp [awaits, put, Function.update_of_ne h]

theorem start_eq_some {p : Async σ A α} {w' : Loop σ A α ι} (h : w.start i p = some w') :
    w.tasks i = none ∧ w' = w.put i p := by
  unfold start at h
  split at h
  next => cases h
  next hnone => exact ⟨by simpa using hnone, (Option.some.inj h).symm⟩

theorem resume_eq_some {allows : σ → (q : Q) → A q → Bool} {answer : (q : Q) → A q}
    {w' : Loop σ A α ι} (h : w.resume i allows answer = some w') :
    ∃ q next, w.tasks i = some (.await q next) ∧ allows w.state q (answer q) = true ∧
      w' = w.put i (next (answer q)) := by
  unfold resume at h
  split at h
  next q next htask =>
    split at h
    next hallows => exact ⟨q, next, htask, hallows, (Option.some.inj h).symm⟩
    next => cases h
  next => cases h

end Loop

end Async
