-- SUMMARY: What a program makes of states that it reads at different times: the results of a program of atomic actions, and the questions of an asynchronous one.
import ParkingGate.Base.Async
import ParkingGate.Base.Prog

/-!
# Readings

A program that is interrupted reads the shared state at several times, and what it returns or
asks in the end rests on all of these readings. The judgements here take a property `H` of the
states that are read, typically "the run has been in this state", so that facts about different
states come together in one conclusion, although the state changes in between.

`Visits` is the property of a run: it has been in the state.
`p.Reads H post`: if every action of `p` finds a state with `H`, the result has `post`.
`p.Yields H G post s`: the same for a `post` that also speaks about the state in which `p` ends,
and every action of `p` makes a change in `G`.
`p.Asks H R post s`: left to run from `s`, and with every later piece beginning in a state with
`H`, the program asks only questions with `R` and ends with `post`.
-/

namespace Trace

variable {S L : Type*} {step : S → L → Option S}

/-- The run from `s` is in the state `t` at some time. -/
def Visits (step : S → L → Option S) (s : S) (ls : List L) (t : S) : Prop :=
  ∃ pre, pre <+: ls ∧ exec step s pre = some t

/-- An invariant of the run so far and the state that it has come to. -/
theorem exec_invariant_prefix {J : List L → S → Prop} {s s' : S} {ls : List L}
    (hstep : ∀ pre t l t', pre ++ [l] <+: ls → exec step s pre = some t → J pre t →
      step t l = some t' → J (pre ++ [l]) t')
    (hs : J [] s) (h : exec step s ls = some s') : J ls s' := by
  suffices hpre : ∀ rest pre t, J pre t → pre ++ rest = ls → exec step s pre = some t →
      exec step t rest = some s' → J ls s' from hpre ls [] s hs rfl rfl h
  intro rest
  induction rest with
  | nil =>
    rintro pre t ht rfl - hex
    rw [List.append_nil, ← Option.some.inj hex]
    exact ht
  | cons l rest ih =>
    rintro pre t ht rfl hpre hex
    obtain ⟨t', hl, hrest⟩ := exec_cons_some hex
    refine ih (pre ++ [l]) t' (hstep pre t l t' ?_ hpre ht hl) ?_ (exec_snoc hpre hl) hrest
    · exact List.prefix_append_right_inj _ |>.mpr ⟨rest, rfl⟩
    · rw [List.append_assoc, List.singleton_append]

/-- What every step of the run keeps, from the states that it visits, holds at its end. -/
theorem exec_invariant_visits {J : S → Prop} {s s' : S} {ls : List L}
    (hstep : ∀ t l t', Visits step s ls t → l ∈ ls → J t → step t l = some t' → J t')
    (hs : J s) (h : exec step s ls = some s') : J s' := by
  refine exec_invariant_prefix (J := fun _ => J) (fun pre t l t' hpre hrun ht hl => ?_) hs h
  refine hstep t l t' ⟨pre, (List.prefix_append pre [l]).trans hpre, hrun⟩ (hpre.subset ?_) ht hl
  exact List.mem_append_right pre (List.mem_singleton_self l)

end Trace

namespace Prog

variable {σ α : Type}

def Reads (H : σ → Prop) (post : α → Prop) : Prog σ α → Prop
  | .ret a      => post a
  | .act _ next => ∀ s, H s → Reads H post (next s)

variable {H : σ → Prop}

@[simp] theorem reads_ret {post : α → Prop} {a : α} : (Prog.ret a : Prog σ α).Reads H post ↔ post a :=
  Iff.rfl

@[simp] theorem reads_act {post : α → Prop} {upd : σ → σ} {next : σ → Prog σ α} :
    (Prog.act upd next).Reads H post ↔ ∀ s, H s → (next s).Reads H post := Iff.rfl

theorem Reads.mono {post post' : α → Prop} {p : Prog σ α} (h : p.Reads H post)
    (hpost : ∀ a, post a → post' a) : p.Reads H post' := by
  induction p with
  | ret a => exact hpost a h
  | act upd next ih => exact fun s hs => ih s (h s hs)

theorem reads_true {p : Prog σ α} : p.Reads H fun _ => True := by
  induction p with
  | ret a => exact trivial
  | act upd next ih => exact fun s _ => ih s

/-- What a program reads rests on an invariant that its actions keep. -/
theorem Reads.maintains {post : α → Prop} {p : Prog σ α} (h : p.Reads H post)
    (hkeep : p.Always fun upd => ∀ s, H s → H (upd s)) : p.Maintains H post := by
  induction p with
  | ret a => exact h
  | act upd next ih => exact fun s hs => ⟨hkeep.1 s hs, ih s (h s hs) (hkeep.2 s)⟩

/-- Left to run from `s`, and with every action taken in a state with `H`, each action makes a
    change in `G`, and the program ends with `post` of its result and of the state it leaves. -/
def Yields (H : σ → Prop) (G : σ → σ → Prop) (post : α → σ → Prop) : Prog σ α → σ → Prop
  | .ret a, s        => post a s
  | .act upd next, _ => ∀ s, H s → G s (upd s) ∧ Yields H G post (next s) (upd s)

section Yields

variable {G : σ → σ → Prop} {post : α → σ → Prop} {s : σ}

@[simp] theorem yields_ret {a : α} : (Prog.ret a).Yields H G post s ↔ post a s := Iff.rfl

@[simp] theorem yields_act {upd : σ → σ} {next : σ → Prog σ α} :
    (Prog.act upd next).Yields H G post s ↔
      ∀ s, H s → G s (upd s) ∧ (next s).Yields H G post (upd s) := Iff.rfl

/-- Other programs may act before it goes on, if they keep what it has come to. -/
theorem Yields.stable {p : Prog σ α} {s' : σ} (h : p.Yields H G post s)
    (hpost : ∀ a, post a s → post a s') : p.Yields H G post s' := by
  cases p with
  | ret a => exact hpost a h
  | act upd next => exact h

end Yields

end Prog

namespace Async

variable {σ Q : Type} {A : Q → Type} {α β ε : Type}

def Asks (H : σ → Prop) (R : Q → Prop) (post : α → σ → Prop) : Async σ A α → σ → Prop
  | .ret a, s        => post a s
  | .act upd next, s => Asks H R post (next s) (upd s)
  | .await q next, _ => R q ∧ ∀ a s', H s' → Asks H R post (next a) s'

section Rules

variable {H : σ → Prop} {R R' : Q → Prop} {s : σ}

@[simp] theorem asks_pure {post : α → σ → Prop} {a : α} :
    Asks H R post (pure a : Async σ A α) s ↔ post a s := Iff.rfl

@[simp] theorem asks_atomically {post : α → σ → Prop} {f : σ → α × σ} :
    Asks H R post (atomically f : Async σ A α) s ↔ post (f s).1 (f s).2 := Iff.rfl

@[simp] theorem asks_ask {q : Q} {post : A q → σ → Prop} :
    Asks H R post (ask q) s ↔ R q ∧ ∀ a s', H s' → post a s' := Iff.rfl

@[simp] theorem asks_bind {p : Async σ A α} {k : α → Async σ A β} {post : β → σ → Prop} :
    Asks H R post (p >>= k) s ↔ Asks H R (fun a s => Asks H R post (k a) s) p s := by
  induction p generalizing s with
  | ret a => exact Iff.rfl
  | act upd next ih => exact ih s
  | await q next ih =>
    exact and_congr_right fun _ => forall_congr' fun a => forall_congr' fun s' =>
      imp_congr_right fun _ => ih a

theorem Asks.mono {post post' : α → σ → Prop} {p : Async σ A α} (h : Asks H R post p s)
    (hR : ∀ q, R q → R' q) (hpost : ∀ a s, post a s → post' a s) : Asks H R' post' p s := by
  induction p generalizing s with
  | ret a => exact hpost a s h
  | act upd next ih => exact ih s h
  | await q next ih => exact ⟨hR q h.1, fun a s' hs => ih a (h.2 a s' hs)⟩

end Rules

section Exceptions

variable {H : σ → Prop} {R : Q → Prop} {s : σ} {post : Except ε β → σ → Prop}

@[simp] theorem asks_run_pure {a : β} :
    Asks H R post (ExceptT.run (pure a : ExceptT ε (Async σ A) β)) s ↔ post (.ok a) s := Iff.rfl

@[simp] theorem asks_run_throw {e : ε} :
    Asks H R post (ExceptT.run (throw e : ExceptT ε (Async σ A) β)) s ↔ post (.error e) s := Iff.rfl

@[simp] theorem asks_run_lift {p : Async σ A β} :
    Asks H R post (ExceptT.run (ExceptT.lift p : ExceptT ε (Async σ A) β)) s ↔
      Asks H R (fun a s => post (.ok a) s) p s := by
  change Asks H R post (p >>= fun a => pure (.ok a)) s ↔ _
  exact asks_bind

@[simp] theorem asks_run_bind {p : ExceptT ε (Async σ A) α} {k : α → ExceptT ε (Async σ A) β} :
    Asks H R post (ExceptT.run (p >>= k)) s ↔
      Asks H R (fun r s =>
        match r with
        | .ok a    => Asks H R post (k a).run s
        | .error e => post (.error e) s) p.run s := by
  simp only [ExceptT.run, Bind.bind, ExceptT.bind, ExceptT.mk]
  refine asks_bind.trans (iff_of_eq ?_)
  congr 1
  funext r s
  cases r <;> rfl

end Exceptions

/-! ## Loops -/

section Loop

variable {H : σ → Prop} {R : Q → Prop} {ι : Type} [DecidableEq ι]

/-- A parked program has asked a question with `R`, and goes on with such questions. -/
def Waits (H : σ → Prop) (R : Q → Prop) (p : Async σ A α) : Prop :=
  ∀ q next, p = .await q next → R q ∧ ∀ a s, H s → Asks H R (fun _ _ => True) (next a) s

theorem Asks.run {post : α → σ → Prop} {p : Async σ A α} {s : σ} (h : Asks H R post p s) :
    (p.run s).1.Waits H R := by
  induction p generalizing s with
  | ret a => exact fun q next heq => by cases heq
  | act upd next ih => exact ih s h
  | await q next _ =>
    rintro _ _ ⟨⟩
    exact ⟨h.1, fun a s' hs => (h.2 a s' hs).mono (fun _ h => h) fun _ _ _ => trivial⟩

namespace Loop

/-- Every task is parked with a question that has `R`. -/
def Waits (H : σ → Prop) (R : Q → Prop) (w : Loop σ A α ι) : Prop :=
  ∀ i p, w.tasks i = some p → p.Waits H R

variable {w w' : Loop σ A α ι} {i : ι}

theorem Waits.put (h : w.Waits H R) {post : α → σ → Prop} {p : Async σ A α}
    (hp : Asks H R post p w.state) : (w.put i p).Waits H R := by
  intro j q hq
  by_cases hj : j = i
  · subst hj
    simp only [Loop.put, Function.update_self, Option.some.injEq] at hq
    exact hq ▸ hp.run
  · simp only [Loop.put, Function.update_of_ne hj] at hq
    exact h j q hq

theorem Waits.resume (h : w.Waits H R) (hs : H w.state) {allows : σ → (q : Q) → A q → Bool}
    {answer : (q : Q) → A q} (hstep : w.resume i allows answer = some w') : w'.Waits H R := by
  obtain ⟨q, next, htask, -, rfl⟩ := resume_eq_some hstep
  exact h.put ((h i _ htask q next rfl).2 (answer q) w.state hs)

omit [DecidableEq ι] in
theorem Waits.awaits (h : w.Waits H R) {q : Q} (hq : w.awaits i = some q) : R q := by
  obtain ⟨p, hp, hpq⟩ := Option.bind_eq_some_iff.mp hq
  cases p with
  | ret a => cases hpq
  | act upd next => cases hpq
  | await q' next =>
    obtain rfl := Option.some.inj hpq
    exact (h i _ hp q' next rfl).1

end Loop

end Loop

end Async
