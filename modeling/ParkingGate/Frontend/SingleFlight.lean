-- SUMMARY: The refreshes of one page: when two of them are in flight, and when a failing one clears a token that was stored after it was sent.
import ParkingGate.Frontend.Calls
import ParkingGate.Base.Trace

/-!
# Single-flight refresh

`refreshPromise` ties together the refreshes of `apiRequest`: a call that is answered 401
joins the refresh under way. `refreshToken` sends a refresh of its own and neither reads nor
sets the promise. Two refreshes are in flight exactly when one of these is missed.

A refresh that fails clears the token whatever has been stored in the meantime, and
`AuthContext.refresh` does so to its very end: when its request for the user's data fails. It
clears its own predecessor only as long as no other call stores a token between its sending and
its end.
-/

namespace Frontend.SingleFlight

open Trace

/-- The calls of one page on one event loop. `overtaken` says whether another call has stored a
    token since a call sent its first refresh; the code does not know it. -/
structure World (ι : Type) where
  loop : Async.Loop Client Answer Unit ι
  calls : ι → Option Call
  overtaken : ι → Bool

/-- A call is made, or the question of a call is answered. -/
inductive Event (ι : Type) where
  | start (i : ι) (call : Call)
  | resume (i : ι) (answer : (q : Ask) → Answer q)

variable {ι : Type}

namespace World

def init : World ι := ⟨⟨.init, fun _ => none⟩, fun _ => none, fun _ => false⟩

abbrev client (w : World ι) : Client := w.loop.state

/-- What call `i` awaits. -/
def awaits (w : World ι) (i : ι) : Option Ask := w.loop.awaits i

/-- Call `i` has a `POST /auth/refresh` in flight. -/
def InFlight (w : World ι) (i : ι) : Prop := ∃ q, w.awaits i = some q ∧ q.isRefresh = true

instance (w : World ι) (i : ι) : Decidable (w.InFlight i) :=
  decidable_of_iff ((w.awaits i).any Ask.isRefresh = true) (Option.any_eq_true _ _)

/-- Call `i` has sent a refresh whose answer it has not read to the end. -/
def Refreshing (w : World ι) (i : ι) : Prop := ∃ q, w.awaits i = some q ∧ q.refreshes = true

instance (w : World ι) (i : ι) : Decidable (w.Refreshing i) :=
  decidable_of_iff ((w.awaits i).any Ask.refreshes = true) (Option.any_eq_true _ _)

/-- Call `i` is an `AuthContext.refresh` that has not ended. -/
def InContext (w : World ι) (i : ι) : Bool :=
  (w.awaits i).isSome && (w.calls i).any Call.isContextRefresh

/-- Call `i` has sent a refresh, and has not read its answer to the end or goes on to the end of
    `AuthContext.refresh`. -/
def Unfinished (w : World ι) (i : ι) : Prop := w.Refreshing i ∨ w.InContext i = true

instance (w : World ι) (i : ι) : Decidable (w.Unfinished i) := inferInstanceAs (Decidable (_ ∨ _))

/-- Call `i` sends its first refresh in a piece after which it awaits `q`. -/
def sendsFirst (w : World ι) (i : ι) (q : Option Ask) : Bool := q.any Ask.isRefresh && !w.InContext i

/-- The loop has run a piece of call `i`. -/
def record [DecidableEq ι] (w : World ι) (i : ι) (loop : Async.Loop Client Answer Unit ι) : World ι :=
  { w with
    loop := loop
    overtaken := fun j =>
      if j = i then !w.sendsFirst i (loop.awaits i) && w.overtaken i
      else w.overtaken j || loop.state.stores ≠ w.client.stores }

end World

def step [DecidableEq ι] (w : World ι) : Event ι → Option (World ι)
  | .start i call =>
    if call.FromPage then
      (w.loop.start i call.program).map
        (World.record { w with calls := Function.update w.calls i (some call) } i)
    else none
  | .resume i answer => (w.loop.resume i allows answer).map (w.record i)

def Event.task : Event ι → ι
  | .start i _  => i
  | .resume i _ => i

/-- The call whose piece an event runs, and how the piece is entered. -/
def entered (w : World ι) : Event ι → Option (Call × Async.Entry Answer)
  | .start _ call    => some (call, .start)
  | .resume i answer => (w.calls i).bind fun call =>
    (w.awaits i).map fun q => (call, .answered q (answer q))

/-! ## The property and the condition -/

def AtMostOne (w : World ι) : Prop := ∀ i j, w.InFlight i → w.InFlight j → i = j

/-- A refresh does not clear a token that another call has stored since it was sent. -/
def KeepsNewer [DecidableEq ι] (w : World ι) : Event ι → Prop
  | .start _ _       => True
  | .resume i answer => w.Unfinished i → w.overtaken i = true → w.client.accessToken ≠ none →
    ∀ w', step w (.resume i answer) = some w' → w'.client.accessToken ≠ none

instance [DecidableEq ι] (w : World ι) : (e : Event ι) → Decidable (KeepsNewer w e)
  | .start _ _       => inferInstanceAs (Decidable True)
  | .resume i answer => inferInstanceAs (Decidable (_ → _ → _ →
    ∀ w' ∈ step w (.resume i answer), w'.client.accessToken ≠ none))

/-- No refresh is started while another is in flight. -/
def Alone (w : World ι) (e : Event ι) : Prop :=
  ∀ call entry, entered w e = some (call, entry) → call.StartsRefresh entry w.client →
    ∀ j, ¬ w.InFlight j

/-- No token is stored while a refresh of another call is unfinished, unless it is the pending
    page's. -/
def Undisturbed (w : World ι) (e : Event ι) : Prop :=
  ∀ call entry, entered w e = some (call, entry) → call.StoresToken entry →
    ∀ j, j ≠ e.task → w.Unfinished j → w.calls j = some .refreshToken

/-! ## Steps -/

/-- Every parked program is that of a call. -/
def Inv (w : World ι) : Prop :=
  ∀ i p, w.loop.tasks i = some p → ∃ call, w.calls i = some call ∧ p.Parked call.Piece

/-- The piece of `call` that the event `e` runs. -/
structure Ran (w : World ι) (e : Event ι) (call : Call) (entry : Async.Entry Answer)
    (w' : World ι) : Prop where
  entered : entered w e = some (call, entry)
  fresh : entry = .start → w.awaits e.task = none
  piece : call.Piece entry w.client (w'.awaits e.task) w'.client
  awaits : ∀ j, j ≠ e.task → w'.awaits j = w.awaits j
  call : w'.calls e.task = some call
  calls : ∀ j, j ≠ e.task → w'.calls j = w.calls j
  sent : ∀ q, w'.awaits e.task = some q → q.isRefresh = true → w.InContext e.task = false →
    w'.overtaken e.task = false
  own : w'.overtaken e.task = true → w.overtaken e.task = true
  others : ∀ j, j ≠ e.task → w'.overtaken j = true →
    w.overtaken j = true ∨ w'.client.stores ≠ w.client.stores

theorem entered_resume {w : World ι} {i : ι} {f : (q : Ask) → Answer q} {call : Call}
    {entry : Async.Entry Answer} (h : entered w (.resume i f) = some (call, entry)) :
    w.calls i = some call ∧ ∃ q, w.awaits i = some q ∧ entry = .answered q (f q) := by
  obtain ⟨call', hcall, h⟩ := Option.bind_eq_some_iff.mp h
  obtain ⟨q, hq, h⟩ := Option.map_eq_some_iff.mp h
  cases h
  exact ⟨hcall, q, hq, rfl⟩

theorem awaits_of_entered {w : World ι} {e : Event ι} {call : Call} {q : Ask} {answer : Answer q}
    (h : entered w e = some (call, .answered q answer)) :
    w.awaits e.task = some q ∧ w.calls e.task = some call := by
  cases e with
  | start i call => cases h
  | resume i f =>
    obtain ⟨hcall, q', hq, heq⟩ := entered_resume h
    cases heq
    exact ⟨hq, hcall⟩

theorem inContext_of_fresh {w : World ι} {i : ι} (h : w.awaits i = none) : w.InContext i = false := by
  rw [World.InContext, h]
  rfl

section Decidable

variable [DecidableEq ι]

theorem ran_put {w : World ι} {e : Event ι} {call : Call} {entry : Async.Entry Answer}
    {calls : ι → Option Call} {p : Async Client Answer Unit} (hw : Inv w)
    (hentered : entered w e = some (call, entry))
    (hfresh : entry = .start → w.awaits e.task = none) (hcall : calls e.task = some call)
    (hcalls : ∀ j, j ≠ e.task → calls j = w.calls j)
    (hcontext : World.InContext { w with calls := calls } e.task = w.InContext e.task)
    (hrest : p.Rest call.Piece entry w.client w.client) :
    Inv (World.record { w with calls := calls } e.task (w.loop.put e.task p)) ∧
      Ran w e call entry (World.record { w with calls := calls } e.task (w.loop.put e.task p)) := by
  obtain ⟨hpiece, hparked⟩ := hrest.run
  refine ⟨fun j p' hp' => ?_, ?_⟩
  · by_cases hj : j = e.task
    · subst hj
      obtain rfl : (p.run w.loop.state).1 = p' := by
        simpa [World.record, Async.Loop.put] using hp'
      exact ⟨call, hcall, hparked⟩
    · obtain ⟨call', hcall', hparked'⟩ := hw j p' (by
        simpa [World.record, Async.Loop.put, Function.update_of_ne hj] using hp')
      exact ⟨call', (hcalls j hj).trans hcall', hparked'⟩
  · exact {
      entered := hentered
      fresh := hfresh
      piece := by
        rw [World.awaits, World.record, Async.Loop.awaits_put_self]
        exact hpiece
      awaits := fun j hj => Async.Loop.awaits_put_of_ne hj
      call := hcall
      calls := hcalls
      sent := fun q hq hrefresh hout => by
        have hawaits : (w.loop.put e.task p).awaits e.task = some q := hq
        have hfirst : World.sendsFirst { w with calls := calls } e.task (some q) = true := by
          rw [World.sendsFirst, hcontext, hout, Option.any_some, hrefresh]
          rfl
        dsimp only [World.record]
        rw [if_pos rfl, hawaits, hfirst]
        rfl
      own := fun hover => by
        simp only [World.record, if_true, Bool.and_eq_true] at hover
        exact hover.2
      others := fun j hj hover => by
        simpa [World.record, hj] using hover }

/-- A step runs a piece of one call. -/
theorem step_ran {w w' : World ι} {e : Event ι} (hw : Inv w) (h : step w e = some w') :
    Inv w' ∧ ∃ call entry, Ran w e call entry w' := by
  cases e with
  | start i call =>
    rw [step] at h
    split at h
    next hcall =>
      obtain ⟨loop, hloop, rfl⟩ := Option.map_eq_some_iff.mp h
      obtain ⟨hnone, rfl⟩ := Async.Loop.start_eq_some hloop
      have hfresh : w.awaits i = none := by simp [World.awaits, Async.Loop.awaits, hnone]
      have hout : ∀ calls, World.InContext { w with calls := calls } i = false :=
        fun _ => inContext_of_fresh hfresh
      have hran := ran_put (e := .start i call) hw rfl (fun _ => hfresh) (Function.update_self i _ _)
        (fun j hj => Function.update_of_ne hj _ _) ((hout _).trans (hout w.calls).symm)
        (Call.program_meets hcall w.client)
      exact ⟨hran.1, call, _, hran.2⟩
    next => cases h
  | resume i answer =>
    obtain ⟨loop, hloop, rfl⟩ := Option.map_eq_some_iff.mp h
    obtain ⟨q, next, htask, -, rfl⟩ := Async.Loop.resume_eq_some hloop
    obtain ⟨call, hcall, hparked⟩ := hw i _ htask
    have hentered : entered w (.resume i answer) = some (call, .answered q (answer q)) := by
      simp [entered, hcall, World.awaits, Async.Loop.awaits, htask, Async.question?]
    have hran := ran_put (e := .resume i answer) hw hentered (by rintro ⟨⟩) hcall (fun _ _ => rfl)
      rfl (hparked q next rfl (answer q) w.client)
    exact ⟨hran.1, call, _, hran.2⟩

end Decidable

/-! ## One refresh at a time -/

/-- A refresh is in flight only as the first request of its call. -/
def Fetches (w : World ι) : Prop :=
  ∀ i q, w.awaits i = some q → q.isRefresh = true → q = .fetch refreshRequest false

namespace Ran

variable {w w' : World ι} {e : Event ι} {call : Call} {entry : Async.Entry Answer}

theorem fetches (h : Ran w e call entry w') (hw : Fetches w) : Fetches w' := by
  intro j q hq hrefresh
  by_cases hj : j = e.task
  · subst hj
    exact (h.piece.starts q hq hrefresh).1
  · exact hw j q (h.awaits j hj ▸ hq) hrefresh

theorem inFlight_of_ne (h : Ran w e call entry w') {j : ι} (hj : j ≠ e.task) :
    w'.InFlight j ↔ w.InFlight j := by
  rw [World.InFlight, World.InFlight, h.awaits j hj]

theorem inFlight_task (h : Ran w e call entry w') (hflight : w'.InFlight e.task) :
    call.StartsRefresh entry w.client :=
  let ⟨q, hq, hrefresh⟩ := hflight
  (h.piece.starts q hq hrefresh).2

/-- A call that starts a refresh has none in flight. -/
theorem not_inFlight (h : Ran w e call entry w') (hw : Fetches w)
    (hstart : call.StartsRefresh entry w.client) : ¬ w.InFlight e.task := by
  rintro ⟨q, hq, hrefresh⟩
  obtain rfl := hw _ q hq hrefresh
  cases entry with
  | start =>
    rw [h.fresh rfl] at hq
    cases hq
  | answered q' answer =>
    obtain ⟨hawaits, -⟩ := awaits_of_entered h.entered
    obtain rfl := Option.some.inj (hawaits.symm.trans hq)
    cases answer <;> exact hstart

end Ran

/-- A refresh that starts alone is alone afterwards. -/
theorem Ran.atMostOne {w w' : World ι} {e : Event ι} {call : Call} {entry : Async.Entry Answer}
    (h : Ran w e call entry w') (hw : AtMostOne w) (halone : Alone w e) : AtMostOne w' := by
  have hnone : w'.InFlight e.task → ∀ j, ¬ w.InFlight j := fun hflight =>
    halone call entry h.entered (h.inFlight_task hflight)
  intro i j hi hj
  by_cases hie : i = e.task
  · by_cases hje : j = e.task
    · rw [hie, hje]
    · exact absurd ((h.inFlight_of_ne hje).mp hj) (hnone (hie ▸ hi) j)
  · by_cases hje : j = e.task
    · exact absurd ((h.inFlight_of_ne hie).mp hi) (hnone (hje ▸ hj) i)
    · exact hw i j ((h.inFlight_of_ne hie).mp hi) ((h.inFlight_of_ne hje).mp hj)

/-- A refresh that does not start alone is the second in flight. -/
theorem Ran.not_atMostOne {w w' : World ι} {e : Event ι} {call : Call}
    {entry : Async.Entry Answer} (h : Ran w e call entry w') (hw : Fetches w)
    (halone : ¬ Alone w e) : ¬ AtMostOne w' := by
  intro hone
  refine halone fun call' entry' hentered hstart j hj => ?_
  obtain ⟨rfl, rfl⟩ := Prod.mk.inj (Option.some.inj (h.entered.symm.trans hentered))
  have hne : j ≠ e.task := fun heq => h.not_inFlight hw hstart (heq ▸ hj)
  have hsent : w'.InFlight e.task := ⟨_, h.piece.sends hstart, isRefresh_refreshRequest⟩
  exact hne (hone j e.task ((h.inFlight_of_ne hne).mpr hj) hsent)

/-! ## Newer tokens -/

/-- No refresh that clears the token when it fails has been overtaken. -/
def Newest (w : World ι) : Prop :=
  ∀ i call, w.Unfinished i → w.calls i = some call → call ≠ .refreshToken → w.overtaken i = false

namespace Ran

variable {w w' : World ι} {e : Event ι} {call : Call} {entry : Async.Entry Answer}

/-- The piece is that of a call that was running before, if there was one. -/
theorem calls_before (h : Ran w e call entry w') (hawaits : w.awaits e.task ≠ none) :
    w.calls e.task = some call := by
  cases entry with
  | start => exact absurd (h.fresh rfl) hawaits
  | answered q answer => exact (awaits_of_entered h.entered).2

theorem awaits_of_unfinished {i : ι} (h : w.Unfinished i) : w.awaits i ≠ none := by
  rcases h with ⟨q, hq, -⟩ | hcontext
  · exact hq ▸ Option.some_ne_none q
  · rw [World.InContext, Bool.and_eq_true] at hcontext
    exact Option.isSome_iff_ne_none.mp hcontext.1

/-- A refresh that is unfinished after a piece was so before, unless the piece has sent it. -/
theorem unfinished_before (h : Ran w e call entry w') (hunfinished : w'.Unfinished e.task)
    (hover : w'.overtaken e.task = true) : w.Unfinished e.task := by
  rcases hunfinished with ⟨q, hq, hrefresh⟩ | hcontext
  · cases hsent : q.isRefresh with
    | true =>
      refine .inr (Bool.not_eq_false _ ▸ fun hout => ?_)
      rw [h.sent q hq hsent hout] at hover
      cases hover
    | false =>
      -- the body of the answer is read next
      cases q with
      | fetch | retry => exact absurd hrefresh (by simpa [Ask.refreshes, Ask.isRefresh] using hsent)
      | promise p => cases hrefresh
      | json request response =>
        obtain ⟨answer, rfl⟩ := h.piece.reads request response hq hrefresh
        exact .inl ⟨_, (awaits_of_entered h.entered).1, isRefresh_refreshRequest⟩
  · rw [World.InContext, h.call, Option.any_some, Bool.and_eq_true] at hcontext
    obtain rfl := Call.eq_refresh hcontext.2
    cases entry with
    | start =>
      have hout := inContext_of_fresh (h.fresh rfl)
      rw [h.sent _ (h.piece.sends (.inr rfl)) isRefresh_refreshRequest hout] at hover
      cases hover
    | answered q answer =>
      obtain ⟨hawaits, hcalls⟩ := awaits_of_entered h.entered
      refine .inr ?_
      rw [World.InContext, hawaits, hcalls]
      rfl

theorem unfinished_of_ne (h : Ran w e call entry w') {j : ι} (hj : j ≠ e.task) :
    w'.Unfinished j ↔ w.Unfinished j := by
  rw [World.Unfinished, World.Unfinished, World.Refreshing, World.Refreshing, World.InContext,
    World.InContext, h.awaits j hj, h.calls j hj]

theorem newest (h : Ran w e call entry w') (hw : Newest w) (hC : Undisturbed w e) : Newest w' := by
  intro j call' hunfinished hcall hne
  refine Bool.eq_false_iff.mpr fun hover => ?_
  by_cases hj : j = e.task
  · subst hj
    obtain rfl : call = call' := Option.some.inj (h.call.symm.trans hcall)
    have hbefore := h.unfinished_before hunfinished hover
    have hfalse := hw _ call hbefore (h.calls_before (awaits_of_unfinished hbefore)) hne
    rw [h.own hover] at hfalse
    cases hfalse
  · have hbefore := (h.unfinished_of_ne hj).mp hunfinished
    have hcallBefore : w.calls j = some call' := (h.calls j hj).symm.trans hcall
    rcases h.others j hj hover with hover | hstores
    · rw [hw j call' hbefore hcallBefore hne] at hover
      cases hover
    · have hstored := h.piece.stores.resolve_left hstores
      have := hC call entry h.entered hstored j hj hbefore
      exact hne (Option.some.inj (hcallBefore.symm.trans this))

end Ran

section Decidable

variable [DecidableEq ι]

/-- What a step keeps newer if no refresh has been overtaken. -/
theorem keepsNewer_of_newest {w w' : World ι} {e : Event ι} (hinv : Inv w) (hw : Newest w)
    (h : step w e = some w') : KeepsNewer w e := by
  obtain ⟨-, call, entry, hran⟩ := step_ran hinv h
  cases e with
  | start i call => trivial
  | resume i answer =>
    intro hunfinished hover htoken w'' hstep
    obtain rfl := Option.some.inj (h.symm.trans hstep)
    have hcalls : w.calls i = some call := (entered_resume hran.entered).1
    by_cases hcall : call = .refreshToken
    · exact hran.piece.keeps hcall htoken
    · rw [hw i call hunfinished hcalls hcall] at hover
      cases hover

/-- The network fails a call: no answer comes, or its body cannot be read. -/
def failing : (q : Ask) → Answer q
  | .fetch ..  => none
  | .retry _   => none
  | .json ..   => none
  | .promise _ => none

/-- A refresh that was overtaken loses the newer token to the first failure, be it that of the
    request for the user's data in `AuthContext.refresh`. -/
theorem loses_newer {w : World ι} {i : ι} {call : Call} {q : Ask} (hinv : Inv w)
    (hcall : w.calls i = some call) (hne : call ≠ .refreshToken) (hawaits : w.awaits i = some q)
    (hq : ∀ p, q ≠ .promise p) (hunfinished : w.Unfinished i) (hover : w.overtaken i = true)
    (htoken : w.client.accessToken ≠ none) : ¬ KeepsNewer w (.resume i failing) := by
  intro hkeeps
  have hclears : call.ClearsToken (.answered q (failing q)) := by
    have hlost : call = .refresh ∨ call ≠ .refreshToken ∧ q.refreshes = true := by
      rcases hunfinished with ⟨q', hq', hrefresh⟩ | hcontext
      · obtain rfl := Option.some.inj (hawaits.symm.trans hq')
        exact .inr ⟨hne, hrefresh⟩
      · rw [World.InContext, hcall, Option.any_some, Bool.and_eq_true] at hcontext
        exact .inl (Call.eq_refresh hcontext.2)
    cases q with
    | fetch | retry | json => exact hlost
    | promise p => exact absurd rfl (hq p)
  have hallows : allows w.client q (failing q) = true := by
    cases q with
    | fetch | retry | json => rfl
    | promise p => exact absurd rfl (hq p)
  obtain ⟨w', hstep⟩ : ∃ w', step w (.resume i failing) = some w' := by
    obtain ⟨p, htask, hquestion⟩ := Option.bind_eq_some_iff.mp hawaits
    cases p with
    | ret | act => cases hquestion
    | await q' next =>
      obtain rfl := Option.some.inj hquestion
      refine ⟨w.record i (w.loop.put i (next (failing q'))), ?_⟩
      rw [step, Async.Loop.resume, htask]
      dsimp only
      rw [if_pos hallows]
      rfl
  obtain ⟨-, call', entry, hran⟩ := step_ran hinv hstep
  obtain ⟨hcall', q', hawaits', rfl⟩ := entered_resume hran.entered
  obtain rfl := Option.some.inj (hcall.symm.trans hcall')
  obtain rfl := Option.some.inj (hawaits.symm.trans hawaits')
  exact hkeeps hunfinished hover htoken w' hstep (hran.piece.clears hclears)

/-- The refreshes of a page are in flight one at a time exactly if each starts alone. If no token
    is stored while a refresh of another call is unfinished, none is lost to a refresh that was
    sent before it. -/
theorem refreshes_race_free (events : List (Event ι)) :
    (AllStates step AtMostOne World.init events ↔ AllSteps step Alone World.init events) ∧
      (AllSteps step Undisturbed World.init events →
        AllSteps step KeepsNewer World.init events) := by
  have hinit : Inv (World.init : World ι) := nofun
  constructor
  · refine allStates_iff_allSteps (J := fun w => Inv w ∧ Fetches w ∧ AtMostOne w)
      (fun w h => h.2.2) ?_ ?_ ⟨hinit, nofun, ?_⟩
    · rintro w e w' ⟨hinv, hfetches, hone⟩ halone hstep
      obtain ⟨hinv', call, entry, hran⟩ := step_ran hinv hstep
      exact ⟨hinv', hran.fetches hfetches, hran.atMostOne hone halone⟩
    · rintro w e w' ⟨hinv, hfetches, -⟩ halone hstep
      obtain ⟨-, call, entry, hran⟩ := step_ran hinv hstep
      exact hran.not_atMostOne hfetches halone
    · rintro i - ⟨q, hq, -⟩
      cases hq
  · refine AllSteps.imp (J := fun w => Inv w ∧ Newest w) ?_ ?_ ⟨hinit, ?_⟩
    · rintro w e w' ⟨hinv, hnewest⟩ - hstep
      exact keepsNewer_of_newest hinv hnewest hstep
    · rintro w e w' ⟨hinv, hnewest⟩ hC hstep
      obtain ⟨hinv', call, entry, hran⟩ := step_ran hinv hstep
      exact ⟨hinv', hran.newest hnewest hC⟩
    · rintro i call (⟨q, hq, -⟩ | hcontext)
      · cases hq
      · cases hcontext

end Decidable

/-- The same answer whatever is asked. -/
def reply (response : Option Response) (data : Option Data) (token : Option String) :
    (q : Ask) → Answer q
  | .fetch ..  => response
  | .retry _   => response
  | .json ..   => data
  | .promise _ => token

def unauthorized : Response := ⟨401, "Unauthorized", false⟩

/-- `AuthContext.refresh` is in flight when the request of `checkDeviceStatus`, sent without a
    token, is answered 401. -/
def overlapping : List (Event Nat) :=
  [.start 0 .refresh, .start 1 (.apiRequest "/admin/device-status" {} ""),
    .resume 1 (reply (some unauthorized) none none)]

/-- `AuthContext.refresh` is in flight while a login stores its token, and is refused then. -/
def overtaken : List (Event Nat) :=
  [.start 0 .refresh, .start 1 (.login "credentials"),
    .resume 1 (reply (some ⟨200, "OK", true⟩) none none),
    .resume 1 (reply none (some (.object .other (some "token"))) none),
    .resume 0 (reply (some unauthorized) none none)]

/-- `AuthContext.refresh` has its token, and its request for the user's data is answered 401. Its
    second refresh is refused. A login stores its token then, before the body of that first 401 is
    read. -/
def overtakenLater : List (Event Nat) :=
  [.start 0 .refresh, .resume 0 (reply (some ⟨200, "OK", true⟩) none none),
    .resume 0 (reply none (some (.object .other (some "first"))) none),
    .resume 0 (reply (some ⟨401, "Unauthorized", true⟩) none none),
    .resume 0 (reply (some unauthorized) none none), .resume 0 (reply none none none),
    .start 1 (.login "credentials"), .resume 1 (reply (some ⟨200, "OK", true⟩) none none),
    .resume 1 (reply none (some (.object .other (some "second"))) none),
    .resume 0 (reply none (some (.object .other none)) none)]

theorem refreshes_race :
    ¬ AllStates step AtMostOne World.init overlapping ∧
      ¬ AllSteps step KeepsNewer World.init overtaken ∧
        ¬ AllSteps step KeepsNewer World.init overtakenLater := by
  refine ⟨fun h => ?_, by decide +kernel, by decide +kernel⟩
  have hboth : ∃ w ∈ exec step World.init overlapping, w.InFlight 0 ∧ w.InFlight 1 := by
    decide +kernel
  obtain ⟨w, hw, h0, h1⟩ := hboth
  exact absurd (h.last hw 0 1 h0 h1) (by decide)

end Frontend.SingleFlight
