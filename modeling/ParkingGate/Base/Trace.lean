-- SUMMARY: Labelled traces of a partial step function: states reached, conditions on the steps taken, and the rules that carry invariants along a trace.
import Mathlib.Data.List.Infix

/-!
# Traces

A system is a partial step function `step : S → L → Option S`. The label carries
everything the environment decides, so a list of labels determines the trace, and
`none` says that the step is not enabled.

Three judgements are read along a trace: `AllStates I` (the property `I` holds in
every state the trace reaches), `AllSteps C` (every step it takes meets the
condition `C`) and the final state `exec`. The rules at the end relate the first
two: an invariant that is kept by the steps meeting `C` and broken by the others
makes `C` the exact condition for `I`.
-/

namespace Trace

variable {S L : Type*} (step : S → L → Option S)

/-- The state a trace ends in, if all its steps are enabled. -/
def exec : S → List L → Option S
  | s, []      => some s
  | s, l :: ls => (step s l).bind fun s' => exec s' ls

/-- `I` holds in the start state and in every state reached along the trace. -/
def AllStates (I : S → Prop) : S → List L → Prop
  | s, []      => I s
  | s, l :: ls => I s ∧ ∀ s', step s l = some s' → AllStates I s' ls

/-- Every step the trace takes meets the condition `C`. -/
def AllSteps (C : S → L → Prop) : S → List L → Prop
  | _, []      => True
  | s, l :: ls => ∀ s', step s l = some s' → C s l ∧ AllSteps C s' ls

variable {step}

@[simp] theorem exec_nil (s : S) : exec step s [] = some s := rfl

@[simp] theorem exec_cons (s : S) (l : L) (ls : List L) :
    exec step s (l :: ls) = (step s l).bind fun s' => exec step s' ls := rfl

theorem exec_append (s : S) (ls ls' : List L) :
    exec step s (ls ++ ls') = (exec step s ls).bind fun s' => exec step s' ls' := by
  induction ls generalizing s with
  | nil => rfl
  | cons l ls ih =>
    cases h : step s l with
    | none => simp [h]
    | some s' => simpa [h] using ih s'

theorem exec_snoc {s s' s'' : S} {ls : List L} {l : L}
    (h : exec step s ls = some s') (hl : step s' l = some s'') :
    exec step s (ls ++ [l]) = some s'' := by
  simp [exec_append, h, hl]

/-- Splitting a trace at its first step. -/
theorem exec_cons_some {s s'' : S} {l : L} {ls : List L}
    (h : exec step s (l :: ls) = some s'') :
    ∃ s', step s l = some s' ∧ exec step s' ls = some s'' := by
  simpa using Option.bind_eq_some_iff.mp h

/-- Splitting a trace in the middle. -/
theorem exec_append_some {s s'' : S} {ls ls' : List L}
    (h : exec step s (ls ++ ls') = some s'') :
    ∃ s', exec step s ls = some s' ∧ exec step s' ls' = some s'' := by
  rw [exec_append] at h
  simpa using Option.bind_eq_some_iff.mp h

/-! ## Invariants -/

/-- An invariant that every step keeps holds at the end of every trace. -/
theorem exec_invariant {J : S → Prop} (hstep : ∀ s l s', J s → step s l = some s' → J s')
    {s s' : S} {ls : List L} (hs : J s) (h : exec step s ls = some s') : J s' := by
  induction ls generalizing s with
  | nil => simp only [exec_nil, Option.some.injEq] at h; exact h ▸ hs
  | cons l ls ih =>
    obtain ⟨t, hl, hls⟩ := exec_cons_some h
    exact ih (hstep s l t hs hl) hls

/-- The same, of a property that only the labels of the trace keep. -/
theorem exec_invariant_of_mem {J : S → Prop} {ls : List L}
    (hstep : ∀ s, ∀ l ∈ ls, ∀ s', J s → step s l = some s' → J s') {s s' : S} (hs : J s)
    (h : exec step s ls = some s') : J s' := by
  induction ls generalizing s with
  | nil => simp only [exec_nil, Option.some.injEq] at h; exact h ▸ hs
  | cons l ls ih =>
    obtain ⟨t, hl, hls⟩ := exec_cons_some h
    apply ih (fun s m hm => hstep s m (List.mem_cons_of_mem _ hm)) _ hls
    exact hstep s l List.mem_cons_self t hs hl

/-- `AllStates` speaks about exactly the states the prefixes of the trace end in. -/
theorem allStates_iff {I : S → Prop} {s : S} {ls : List L} :
    AllStates step I s ls ↔
      ∀ pre s', pre <+: ls → exec step s pre = some s' → I s' := by
  induction ls generalizing s with
  | nil =>
    constructor
    · intro h pre s' hpre hs
      obtain rfl := List.prefix_nil.mp hpre
      simp only [exec_nil, Option.some.injEq] at hs
      exact hs ▸ h
    · intro h
      exact h [] s (List.prefix_refl _) rfl
  | cons l ls ih =>
    constructor
    · rintro ⟨hs, hl⟩ pre s' hpre hex
      cases pre with
      | nil => simp only [exec_nil, Option.some.injEq] at hex; exact hex ▸ hs
      | cons p pre =>
        obtain ⟨rfl, hpre'⟩ := List.cons_prefix_cons.mp hpre
        obtain ⟨t, ht, hex'⟩ := exec_cons_some hex
        exact ih.mp (hl t ht) pre s' hpre' hex'
    · intro h
      refine ⟨h [] s List.nil_prefix rfl, fun t ht => ih.mpr fun pre s' hpre hex => ?_⟩
      exact h (l :: pre) s' (List.cons_prefix_cons.mpr ⟨rfl, hpre⟩) (by simp [ht, hex])

theorem AllStates.mono {I I' : S → Prop} (hI : ∀ s, I s → I' s) {s : S} {ls : List L}
    (h : AllStates step I s ls) : AllStates step I' s ls :=
  allStates_iff.mpr fun pre s' hpre hex => hI s' (allStates_iff.mp h pre s' hpre hex)

/-- The last state of a trace is one of the states it reaches. -/
theorem AllStates.last {I : S → Prop} {s s' : S} {ls : List L}
    (h : AllStates step I s ls) (hex : exec step s ls = some s') : I s' :=
  allStates_iff.mp h ls s' (List.prefix_refl _) hex

/-! ## Conditions on steps -/

section Conditions

variable {J I : S → Prop} {C F P : S → L → Prop}

theorem allSteps_true {s : S} {ls : List L} : AllSteps step (fun _ _ => True) s ls := by
  induction ls generalizing s with
  | nil => trivial
  | cons l ls ih => exact fun _ _ => ⟨trivial, ih⟩

theorem AllSteps.and {s : S} {ls : List L} (h : AllSteps step C s ls)
    (h' : AllSteps step P s ls) : AllSteps step (fun s l => C s l ∧ P s l) s ls := by
  induction ls generalizing s with
  | nil => trivial
  | cons l ls ih =>
    exact fun s' hl => ⟨⟨(h s' hl).1, (h' s' hl).1⟩, ih (h s' hl).2 (h' s' hl).2⟩

theorem allSteps_append {s : S} {ls ls' : List L} :
    AllSteps step C s (ls ++ ls') ↔
      AllSteps step C s ls ∧ ∀ s', exec step s ls = some s' → AllSteps step C s' ls' := by
  induction ls generalizing s with
  | nil => simp [AllSteps]
  | cons l ls ih =>
    constructor
    · intro h
      refine ⟨fun t hl => ⟨(h t hl).1, (ih.mp (h t hl).2).1⟩, fun s' hex => ?_⟩
      obtain ⟨t, hl, hls⟩ := exec_cons_some hex
      exact (ih.mp (h t hl).2).2 s' hls
    · rintro ⟨h, h'⟩ t hl
      exact ⟨(h t hl).1, ih.mpr ⟨(h t hl).2, fun s' hls => h' s' (by simp [hl, hls])⟩⟩

/-- The condition on the step that a trace takes last. -/
theorem AllSteps.last {s s' s'' : S} {ls : List L} {l : L} (h : AllSteps step C s (ls ++ [l]))
    (hls : exec step s ls = some s') (hl : step s' l = some s'') : C s' l :=
  ((allSteps_append.mp h).2 s' hls s'' hl).1

instance decidableAllSteps [∀ s l, Decidable (C s l)] :
    ∀ s ls, Decidable (AllSteps step C s ls)
  | _, []      => isTrue trivial
  | s, l :: ls =>
    match h : step s l with
    | none    => isTrue fun s' hs => by rw [h] at hs; cases hs
    | some s' =>
      haveI := decidableAllSteps s' ls
      decidable_of_iff (C s l ∧ AllSteps step C s' ls)
        ⟨fun hC t ht => by rw [h] at ht; cases ht; exact hC, fun hC => hC s' h⟩

/-- An invariant kept by the steps that meet `C` holds in every state of a trace
    all of whose steps meet `C`. -/
theorem allStates_of_allSteps
    (hstep : ∀ s l s', J s → C s l → step s l = some s' → J s')
    {s : S} {ls : List L} (hs : J s) (h : AllSteps step C s ls) : AllStates step J s ls := by
  induction ls generalizing s with
  | nil => exact hs
  | cons l ls ih =>
    exact ⟨hs, fun s' hl => ih (hstep s l s' hs (h s' hl).1 hl) (h s' hl).2⟩

/-- Under an invariant kept by the steps that meet `C`, these steps also meet `P`. -/
theorem AllSteps.imp (hCP : ∀ s l s', J s → C s l → step s l = some s' → P s l)
    (hstep : ∀ s l s', J s → C s l → step s l = some s' → J s')
    {s : S} {ls : List L} (hs : J s) (h : AllSteps step C s ls) : AllSteps step P s ls := by
  induction ls generalizing s with
  | nil => trivial
  | cons l ls ih =>
    intro s' hl
    obtain ⟨hC, hrest⟩ := h s' hl
    exact ⟨hCP s l s' hs hC hl, ih (hstep s l s' hs hC hl) hrest⟩

/-- Let `F` be a condition that all steps of a trace meet anyway. If the steps that also
    meet `C` keep the invariant `J`, and under `J` the others break `I`, then `C` is the
    exact condition on the steps for `I` to hold in every state. -/
theorem allStates_iff_allSteps_of (hJI : ∀ s, J s → I s)
    (hstep : ∀ s l s', J s → F s l → C s l → step s l = some s' → J s')
    (hbreak : ∀ s l s', J s → F s l → ¬ C s l → step s l = some s' → ¬ I s')
    {s : S} {ls : List L} (hs : J s) (hF : AllSteps step F s ls) :
    AllStates step I s ls ↔ AllSteps step C s ls := by
  induction ls generalizing s with
  | nil => exact iff_of_true (hJI s hs) trivial
  | cons l ls ih =>
    constructor
    · intro h s' hl
      obtain ⟨hFl, hrest⟩ := hF s' hl
      have hC : C s l := Classical.byContradiction fun hC =>
        hbreak s l s' hs hFl hC hl (allStates_iff.mp (h.2 s' hl) [] s' List.nil_prefix rfl)
      exact ⟨hC, (ih (hstep s l s' hs hFl hC hl) hrest).mp (h.2 s' hl)⟩
    · intro h
      refine ⟨hJI s hs, fun s' hl => ?_⟩
      obtain ⟨hFl, hrest⟩ := hF s' hl
      exact (ih (hstep s l s' hs hFl (h s' hl).1 hl) hrest).mpr (h s' hl).2

/-- The same without a condition on the side. -/
theorem allStates_iff_allSteps (hJI : ∀ s, J s → I s)
    (hstep : ∀ s l s', J s → C s l → step s l = some s' → J s')
    (hbreak : ∀ s l s', J s → ¬ C s l → step s l = some s' → ¬ I s')
    {s : S} {ls : List L} (hs : J s) :
    AllStates step I s ls ↔ AllSteps step C s ls :=
  allStates_iff_allSteps_of hJI (fun s l s' h _ => hstep s l s' h)
    (fun s l s' h _ => hbreak s l s' h) hs allSteps_true

/-- Two conditions that agree under an invariant which they keep hold of the same
    traces. -/
theorem allSteps_congr (hPC : ∀ s l s', J s → step s l = some s' → (P s l ↔ C s l))
    (hstep : ∀ s l s', J s → C s l → step s l = some s' → J s')
    {s : S} {ls : List L} (hs : J s) :
    AllSteps step P s ls ↔ AllSteps step C s ls := by
  induction ls generalizing s with
  | nil => exact Iff.rfl
  | cons l ls ih =>
    refine forall_congr' fun s' => imp_congr_right fun hl => ?_
    rw [hPC s l s' hs hl]
    exact and_congr_right fun hC => ih (hstep s l s' hs hC hl)

end Conditions

end Trace
