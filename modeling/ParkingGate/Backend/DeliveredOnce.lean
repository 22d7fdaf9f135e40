-- SUMMARY: Overlapping polls of one device: no command is delivered twice as long as no poll finds a command that another poll is about to mark.
import ParkingGate.Backend.DeviceCommands

/-!
# Overlapping polls

`consumePending` finds a document and marks it in two round trips, and the second one does
not ask whether the document has been marked meanwhile. A poll that looks a command up while
another poll holds it, delivers it as well. In all other interleavings of polls and
`setPending` calls each document is delivered by one poll only.
-/

namespace Backend.DeliveredOnce

/-- A call with its arguments, its clock reading and the choice of the database. -/
inductive Call where
  | consumePending (deviceId : String) (now choice : Nat)
  | setPending (deviceId : String) (action : DeviceCommandAction) (reason : Option String)
      (ttlSeconds : Option Nat) (now : Nat)

inductive Answer where
  | pending (response : PendingResponse)
  | set (response : SetPendingResponse)

abbrev Calls (ι : Type) := Pool CommandStore fun _ : ι => Except CommandError Answer

variable {ι : Type} (call : ι → Call)

def calls : Calls ι := fun i =>
  match call i with
  | .consumePending deviceId now choice =>
    (Answer.pending <$> consumePending deviceId now choice).prog
  | .setPending deviceId action reason ttlSeconds now =>
    (Answer.set <$> setPending deviceId action reason ttlSeconds now).prog

/-- The call is a poll that has returned the document `id`. -/
def Delivers (P : Calls ι) (i : ι) (id : Nat) : Prop :=
  ∃ response, P i = .ret (.ok (.pending response)) ∧ response.id = some id

/-- No document is returned by two polls. -/
def Once (c : Calls ι × CommandStore) : Prop :=
  ∀ i j id, Delivers c.1 i id → Delivers c.1 j id → i = j

/-- The second round trip of a poll that has found `doc`. -/
def mark (deviceId : String) (now : Nat) (doc : PendingCommand) :
    Prog CommandStore (Except CommandError Answer) :=
  .act (·.saveConsumed doc.id now) fun s =>
    if s.has doc.id then .ret (.ok (.pending (pendingResponse deviceId (some doc))))
    else .ret (.error .documentNotFound)

/-- The poll has found the document `id` and not marked it yet. -/
def Holds (P : Calls ι) (i : ι) (id : Nat) : Prop :=
  ∃ deviceId now doc, P i = mark deviceId now doc ∧ doc.id = id

/-- A poll that starts does not find a document that another poll holds. -/
def Exclusive (c : Calls ι × CommandStore) (j : ι) : Prop :=
  ∀ deviceId now choice doc, call j = .consumePending deviceId now choice →
    c.1 j = calls call j → c.2.findPending deviceId now choice = some doc →
    ∀ i, ¬ Holds c.1 i doc.id

variable {call}

theorem calls_consumePending {i : ι} {deviceId : String} {now choice : Nat}
    (h : call i = .consumePending deviceId now choice) :
    calls call i = .act id fun s =>
      match s.findPending deviceId now choice with
      | none     => .ret (.ok (.pending (pendingResponse deviceId none)))
      | some doc => mark deviceId now doc := by
  have hprog : calls call i = (Answer.pending <$> consumePending deviceId now choice).prog := by
    simp [calls, h]
  rw [hprog, map_eq_pure_bind, consumePending, bind_assoc, Fallible.prog_atomically_bind]
  congr 1
  funext s
  cases s.findPending deviceId now choice with
  | none => rfl
  | some doc =>
    simp only [bind_assoc, Fallible.prog_atomically_bind, mark]
    congr 1
    funext t
    cases t.has doc.id <;> rfl

/-- A call of `setPending` makes one step, which deletes the commands of its device or
    creates one. -/
theorem calls_setPending {i : ι} {deviceId : String} {action : DeviceCommandAction}
    {reason : Option String} {ttlSeconds : Option Nat} {now : Nat}
    (h : call i = .setPending deviceId action reason ttlSeconds now) :
    ∃ upd next, calls call i = .act upd next ∧ (∀ s, ∃ response, next s = .ret (.ok (.set response))) ∧
      ∀ s, upd s = s.deletePending deviceId ∨
        upd s = s.create deviceId action reason (expiryOf ttlSeconds now) now := by
  have hprog : calls call i =
      (Answer.set <$> setPending deviceId action reason ttlSeconds now).prog := by
    simp [calls, h]
  rw [hprog, map_eq_pure_bind, setPending]
  split
  · exact ⟨_, _, rfl, fun _ => ⟨_, rfl⟩, fun _ => .inl rfl⟩
  · exact ⟨_, _, rfl, fun _ => ⟨_, rfl⟩, fun _ => .inr rfl⟩

/-! ## Marked documents -/

/-- Every document with the id is marked as consumed, if there is one. -/
def Marked (s : CommandStore) (id : Nat) : Prop :=
  ∀ doc ∈ s.commands, doc.id = id → doc.consumedAt ≠ none

section Marked

variable {s : CommandStore} {id : Nat}

theorem Marked.deletePending (h : Marked s id) (deviceId : String) :
    Marked (s.deletePending deviceId) id := fun doc hdoc =>
  h doc (Collection.mem_deleteMany.mp hdoc).1

theorem Marked.create (h : Marked s id) (hid : id < s.nextId) (deviceId : String)
    (action : DeviceCommandAction) (reason : Option String) (expiresAt : Option Nat) (now : Nat) :
    Marked (s.create deviceId action reason expiresAt now) id := by
  intro doc hdoc hdocId
  rcases List.mem_append.mp hdoc with hdoc | hdoc
  · exact h doc hdoc hdocId
  · rw [List.mem_singleton.mp hdoc, CommandStore.newCommand] at hdocId
    simp only at hdocId
    omega

theorem Marked.saveConsumed (h : Marked s id) (other now : Nat) :
    Marked (s.saveConsumed other now) id := by
  intro doc hdoc hdocId
  obtain ⟨old, hold, rfl⟩ := List.mem_map.mp hdoc
  by_cases hother : old.id = other
  · simp [hother, PendingCommand.consume]
  · simp only [if_neg hother] at hdocId ⊢
    exact h old hold hdocId

theorem marked_saveConsumed (s : CommandStore) (id now : Nat) : Marked (s.saveConsumed id now) id := by
  intro doc hdoc hdocId
  obtain ⟨old, hold, rfl⟩ := List.mem_map.mp hdoc
  by_cases hid : old.id = id
  · simp [hid, PendingCommand.consume]
  · simp only [if_neg hid] at hdocId
    exact absurd hdocId hid

/-- A poll finds no document that is marked. -/
theorem not_marked_of_findPending {deviceId : String} {now choice : Nat} {doc : PendingCommand}
    (h : s.findPending deviceId now choice = some doc) : ¬ Marked s doc.id := by
  obtain ⟨hdoc, hp, -⟩ := Collection.of_findGreatest h
  exact fun hmarked => hmarked doc hdoc rfl (PendingCommand.pendingFor_iff.mp hp).2.1

end Marked

/-- What every step keeps of the collection. -/
structure Advances (s s' : CommandStore) : Prop where
  nextId : s.nextId ≤ s'.nextId
  fresh : (∀ doc ∈ s.commands, doc.id < s.nextId) → ∀ doc ∈ s'.commands, doc.id < s'.nextId
  marked : ∀ id, id < s.nextId → Marked s id → Marked s' id

theorem Advances.refl (s : CommandStore) : Advances s s :=
  ⟨Nat.le_refl _, fun h => h, fun _ _ h => h⟩

theorem Advances.deletePending (s : CommandStore) (deviceId : String) :
    Advances s (s.deletePending deviceId) where
  nextId := Nat.le_refl _
  fresh h doc hdoc := h doc (Collection.mem_deleteMany.mp hdoc).1
  marked _ _ h := h.deletePending deviceId

theorem Advances.create (s : CommandStore) (deviceId : String) (action : DeviceCommandAction)
    (reason : Option String) (expiresAt : Option Nat) (now : Nat) :
    Advances s (s.create deviceId action reason expiresAt now) where
  nextId := Nat.le_succ _
  fresh h doc hdoc := by
    rcases List.mem_append.mp hdoc with hdoc | hdoc
    · exact (h doc hdoc).trans (Nat.lt_succ_self _)
    · rw [List.mem_singleton.mp hdoc]
      exact Nat.lt_succ_self _
  marked _ hid h := h.create hid deviceId action reason expiresAt now

theorem Advances.saveConsumed (s : CommandStore) (id now : Nat) :
    Advances s (s.saveConsumed id now) where
  nextId := Nat.le_refl _
  fresh h doc hdoc := by
    obtain ⟨old, hold, rfl⟩ := List.mem_map.mp hdoc
    split <;> exact h old hold
  marked _ _ h := h.saveConsumed id now

/-! ## What a call claims -/

/-- The poll has found or returned the document `id`. -/
def Claims (P : Calls ι) (i : ι) (id : Nat) : Prop := Holds P i id ∨ Delivers P i id

/-- Two marking steps that do the same mark the same document. -/
theorem mark_inj {deviceId deviceId' : String} {now now' : Nat} {doc doc' : PendingCommand}
    (h : mark deviceId now doc = mark deviceId' now' doc') : doc.id = doc'.id := by
  have hupd := congrFun (Prog.act.inj h).1 ⟨[{ doc with consumedAt := none }], 0⟩
  by_contra hne
  simp [CommandStore.saveConsumed, PendingCommand.consume, hne] at hupd

/-- No call begins with a marking step. -/
theorem calls_ne_mark {i : ι} {deviceId : String} {now : Nat} {doc : PendingCommand} :
    calls call i ≠ mark deviceId now doc := by
  intro h
  let s : CommandStore := ⟨[{ doc with consumedAt := none }], 0⟩
  have hmarked : (s.saveConsumed doc.id now).commands = [doc.consume now] := by
    simp [s, CommandStore.saveConsumed, PendingCommand.consume]
  cases hcall : call i with
  | consumePending d n choice =>
    rw [calls_consumePending hcall] at h
    have hupd := congrFun (Prog.act.inj h).1 s
    simp [← hupd, s, PendingCommand.consume] at hmarked
  | setPending d action reason ttlSeconds n =>
    obtain ⟨upd, next, hprog, -, hupd⟩ := calls_setPending hcall
    rw [hprog] at h
    have heq : upd s = s.saveConsumed doc.id now := congrFun (Prog.act.inj h).1 s
    rcases hupd s with hdelete | hcreate
    · have hmem : doc.consume now ∈ (s.deletePending d).commands := by
        rw [← hdelete, heq, hmarked]
        exact List.mem_singleton_self _
      have hold := (Collection.mem_deleteMany.mp hmem).1
      simp [s, PendingCommand.consume] at hold
    · have hid := congrArg (·.nextId) (hcreate.symm.trans heq)
      simp [CommandStore.create, CommandStore.saveConsumed] at hid

section Claims

variable {P : Calls ι} {i : ι} {id : Nat}

theorem not_claims_start (h : P i = calls call i) : ¬ Claims P i id := by
  rintro (⟨deviceId, now, doc, hmark, -⟩ | ⟨response, hret, -⟩)
  · exact calls_ne_mark (h.symm.trans hmark)
  · cases hcall : call i with
    | consumePending d n choice =>
      rw [calls_consumePending hcall] at h
      cases h.symm.trans hret
    | setPending d action reason ttlSeconds n =>
      obtain ⟨upd, next, hprog, -⟩ := calls_setPending hcall
      rw [hprog] at h
      cases h.symm.trans hret

theorem claims_mark {deviceId : String} {now : Nat} {doc : PendingCommand}
    (h : P i = mark deviceId now doc) (hclaims : Claims P i id) : doc.id = id := by
  rcases hclaims with ⟨deviceId', now', doc', hmark, rfl⟩ | ⟨response, hret, -⟩
  · exact mark_inj (h.symm.trans hmark)
  · cases h.symm.trans hret

theorem claims_ret {r : Except CommandError Answer} (h : P i = .ret r) (hclaims : Claims P i id) :
    ∃ response, r = .ok (.pending response) ∧ response.id = some id := by
  rcases hclaims with ⟨deviceId, now, doc, hmark, -⟩ | ⟨response, hret, hid⟩
  · cases h.symm.trans hmark
  · exact ⟨response, Prog.ret.inj (h.symm.trans hret), hid⟩

theorem claims_congr {P' : Calls ι} (h : P' i = P i) : Claims P' i id ↔ Claims P i id := by
  unfold Claims Holds Delivers
  rw [h]

end Claims

/-! ## Runs -/

/-- Where a call stands. -/
inductive Stage (call : ι → Call) (i : ι) : Prog CommandStore (Except CommandError Answer) → Prop
  | start : Stage call i (calls call i)
  | marking (deviceId now doc) : Stage call i (mark deviceId now doc)
  | returned (r) : Stage call i (.ret r)

variable (call) in
/-- What holds as long as every poll has been exclusive. -/
structure Inv (c : Calls ι × CommandStore) : Prop where
  stage : ∀ i, Stage call i (c.1 i)
  fresh : ∀ doc ∈ c.2.commands, doc.id < c.2.nextId
  bound : ∀ i id, Claims c.1 i id → id < c.2.nextId
  claimed : ∀ i j id, Claims c.1 i id → Claims c.1 j id → i = j
  marked : ∀ i id, Delivers c.1 i id → Marked c.2 id

namespace Inv

theorem init : Inv call (calls call, CommandStore.init) where
  stage _ := .start
  fresh := by simp [CommandStore.init]
  bound _ _ h := absurd h (not_claims_start (P := calls call) rfl)
  claimed _ _ _ h := absurd h (not_claims_start (P := calls call) rfl)
  marked _ _ h := absurd (.inr h) (not_claims_start (P := calls call) rfl)

variable {c c' : Calls ι × CommandStore}

theorem once (h : Inv call c) : Once c :=
  fun i j id hi hj => h.claimed i j id (.inr hi) (.inr hj)

variable [DecidableEq ι]

/-- Call `j` moves on to `p`; what it claims then, no other call claims. -/
private theorem update (h : Inv call c) {j : ι} {p : Prog CommandStore (Except CommandError Answer)}
    {s' : CommandStore} (hadv : Advances c.2 s') (hstage : Stage call j p)
    (hnew : ∀ id, Claims (Function.update c.1 j p) j id →
      id < s'.nextId ∧ ∀ i, i ≠ j → ¬ Claims c.1 i id)
    (hmarked : ∀ id, Delivers (Function.update c.1 j p) j id → Marked s' id) :
    Inv call (Function.update c.1 j p, s') := by
  have hclaims : ∀ i, i ≠ j → ∀ id, Claims (Function.update c.1 j p) i id ↔ Claims c.1 i id :=
    fun i hi id => claims_congr (Function.update_of_ne hi _ _)
  refine ⟨fun i => ?_, hadv.fresh h.fresh, fun i id hi => ?_, fun i i' id hi hi' => ?_,
    fun i id hi => ?_⟩
  · by_cases hij : i = j
    · subst hij
      simpa using hstage
    · simpa [Function.update_of_ne hij] using h.stage i
  · by_cases hij : i = j
    · subst hij
      exact (hnew id hi).1
    · exact (h.bound i id ((hclaims i hij id).mp hi)).trans_le hadv.nextId
  · by_cases hij : i = j
    · subst hij
      by_contra hne
      exact (hnew id hi).2 i' (Ne.symm hne) ((hclaims i' (Ne.symm hne) id).mp hi')
    · by_cases hij' : i' = j
      · subst hij'
        exact absurd ((hclaims i hij id).mp hi) ((hnew id hi').2 i hij)
      · exact h.claimed i i' id ((hclaims i hij id).mp hi) ((hclaims i' hij' id).mp hi')
  · by_cases hij : i = j
    · subst hij
      exact hmarked id hi
    · have hold : Delivers c.1 i id := by
        simpa only [Delivers, Function.update_of_ne hij] using hi
      exact hadv.marked id (h.bound i id (.inr hold)) (h.marked i id hold)

/-- Call `j` moves on to a program that claims nothing. -/
private theorem updateIdle (h : Inv call c) {j : ι} {p : Prog CommandStore (Except CommandError Answer)}
    {s' : CommandStore} (hadv : Advances c.2 s') (hstage : Stage call j p)
    (hnone : ∀ id, ¬ Claims (Function.update c.1 j p) j id) :
    Inv call (Function.update c.1 j p, s') :=
  h.update hadv hstage (fun id hid => absurd hid (hnone id)) fun id hid => absurd (.inr hid) (hnone id)

/-- A poll finds nothing. -/
private theorem findNone (h : Inv call c) (j : ι) (deviceId : String) :
    Inv call (Function.update c.1 j (.ret (.ok (.pending (pendingResponse deviceId none)))), c.2) := by
  refine h.updateIdle (.refl _) (.returned _) fun id hid => ?_
  obtain ⟨response, hresponse, hid⟩ := claims_ret (Function.update_self _ _ _) hid
  cases hresponse
  cases hid

/-- A poll finds a document that no other poll holds; if one had returned it, the document
    would be marked. -/
private theorem find (h : Inv call c) (j : ι) {deviceId : String} {now choice : Nat}
    {doc : PendingCommand} (hfound : c.2.findPending deviceId now choice = some doc)
    (hexclusive : ∀ i, ¬ Holds c.1 i doc.id) :
    Inv call (Function.update c.1 j (mark deviceId now doc), c.2) := by
  refine h.update (.refl _) (.marking deviceId now doc) (fun id hid => ?_) fun id hid => ?_
  · obtain rfl := claims_mark (Function.update_self _ _ _) hid
    refine ⟨h.fresh doc (Collection.of_findGreatest hfound).1, fun i _ hi => ?_⟩
    rcases hi with hholds | hdelivers
    · exact hexclusive i hholds
    · exact not_marked_of_findPending hfound (h.marked i _ hdelivers)
  · obtain ⟨response, hret, -⟩ := hid
    rw [Function.update_self] at hret
    cases hret

/-- A poll marks the document that it holds and returns it. -/
private theorem save (h : Inv call c) {j : ι} {deviceId : String} {now : Nat} {doc : PendingCommand}
    (hp : c.1 j = mark deviceId now doc) {r : Except CommandError Answer}
    (hr : ∀ response, r = .ok (.pending response) → response.id = some doc.id) :
    Inv call (Function.update c.1 j (.ret r), c.2.saveConsumed doc.id now) := by
  have hold : Claims c.1 j doc.id := .inl ⟨deviceId, now, doc, hp, rfl⟩
  have hid : ∀ id, Claims (Function.update c.1 j (.ret r)) j id → id = doc.id := by
    intro id hid
    obtain ⟨response, hresponse, hid⟩ := claims_ret (Function.update_self _ _ _) hid
    exact Option.some.inj (hid.symm.trans (hr response hresponse))
  refine h.update (.saveConsumed _ _ _) (.returned _) (fun id hclaims => ?_) fun id hdelivers => ?_
  · obtain rfl := hid id hclaims
    exact ⟨h.bound j _ hold, fun i hi hclaims => hi (h.claimed i j _ hclaims hold)⟩
  · obtain rfl := hid id (.inr hdelivers)
    exact marked_saveConsumed c.2 doc.id now

theorem step {j : ι} (h : Inv call c) (hexclusive : Exclusive call c j)
    (hstep : Pool.step c j = some c') : Inv call c' := by
  obtain ⟨upd, next, hj, rfl⟩ := Pool.step_eq_some hstep
  have hstage := h.stage j
  generalize hp : c.1 j = p at hstage
  cases hstage with
  | start =>
    cases hcall : call j with
    | consumePending deviceId now choice =>
      obtain ⟨rfl, rfl⟩ := Prog.act.inj ((hp.trans (calls_consumePending hcall)).symm.trans hj)
      cases hfound : c.2.findPending deviceId now choice with
      | none =>
        simp only [hfound]
        exact h.findNone j deviceId
      | some doc =>
        simp only [hfound]
        exact h.find j hfound (hexclusive deviceId now choice doc hcall hp hfound)
    | setPending deviceId action reason ttlSeconds now =>
      obtain ⟨upd', next', hprog, hret, hupd⟩ := calls_setPending hcall
      obtain ⟨rfl, rfl⟩ := Prog.act.inj ((hp.trans hprog).symm.trans hj)
      obtain ⟨response, hresponse⟩ := hret c.2
      rw [hresponse]
      have hnone : ∀ id, ¬ Claims (Function.update c.1 j (.ret (.ok (.set response)))) j id := by
        intro id hid
        obtain ⟨r, hr, -⟩ := claims_ret (Function.update_self _ _ _) hid
        cases hr
      rcases hupd c.2 with heq | heq <;> rw [heq]
      · exact h.updateIdle (.deletePending _ _) (.returned _) hnone
      · exact h.updateIdle (.create _ _ _ _ _ _) (.returned _) hnone
  | marking deviceId now doc =>
    obtain ⟨rfl, rfl⟩ := Prog.act.inj (hp.symm.trans hj)
    simp only
    split
    · exact h.save hp fun response hresponse => by cases hresponse; rfl
    · exact h.save hp fun response hresponse => by cases hresponse
  | returned r => cases hp.symm.trans hj

end Inv

section Runs

variable [DecidableEq ι] {c : Calls ι × CommandStore} {j : ι}

/-- In every interleaving in which no poll finds a document that another poll holds, no
    document is delivered twice. -/
theorem delivered_once (call : ι → Call) (sched : List ι)
    (h : Trace.AllSteps Pool.step (Exclusive call) (calls call, CommandStore.init) sched) :
    Trace.AllStates Pool.step Once (calls call, CommandStore.init) sched :=
  (Trace.allStates_of_allSteps (J := Inv call) (fun _ _ _ h hexclusive hstep =>
    h.step hexclusive hstep) Inv.init h).mono fun _ h => h.once

theorem step_act {upd : CommandStore → CommandStore}
    {next : CommandStore → Prog CommandStore (Except CommandError Answer)}
    (h : c.1 j = .act upd next) :
    Pool.step c j = some (Function.update c.1 j (next c.2), upd c.2) := by
  simp [Pool.step, h]

theorem step_find {deviceId : String} {now choice : Nat} {doc : PendingCommand}
    (hcall : call j = .consumePending deviceId now choice) (hstart : c.1 j = calls call j)
    (hfound : c.2.findPending deviceId now choice = some doc) :
    Pool.step c j = some (Function.update c.1 j (mark deviceId now doc), c.2) := by
  rw [step_act (hstart.trans (calls_consumePending hcall)), hfound]
  rfl

/-- If a poll finds a document that another poll holds, both may go on to deliver it. -/
theorem shared_reaches (hshared : ¬ Exclusive call c j) :
    ∃ i c', Trace.exec Pool.step c [j, i, j] = some c' ∧ ¬ Once c' := by
  unfold Exclusive at hshared
  push Not at hshared
  obtain ⟨deviceId, now, choice, doc, hcall, hstart, hfound, i, deviceId', now', held, hi, hid⟩ :=
    hshared
  have hij : i ≠ j := by
    rintro rfl
    exact calls_ne_mark (hstart.symm.trans hi)
  have hhas : c.2.has doc.id = true := has_of_findPending c.2 deviceId now choice hfound
  let answer (d : String) (doc : PendingCommand) : Prog CommandStore (Except CommandError Answer) :=
    .ret (.ok (.pending (pendingResponse d (some doc))))
  let P₁ : Calls ι := Function.update c.1 j (mark deviceId now doc)
  let P₂ : Calls ι := Function.update P₁ i (answer deviceId' held)
  let P₃ : Calls ι := Function.update P₂ j (answer deviceId doc)
  have hfind : Pool.step c j = some (P₁, c.2) := step_find hcall hstart hfound
  have hfirst : Pool.step (P₁, c.2) i = some (P₂, c.2.saveConsumed held.id now') := by
    rw [step_act ((Function.update_of_ne hij _ _).trans hi)]
    simp only [hid, hhas]
    rfl
  have hsecond : Pool.step (P₂, c.2.saveConsumed held.id now') j =
      some (P₃, (c.2.saveConsumed held.id now').saveConsumed doc.id now) := by
    rw [step_act ((Function.update_of_ne (Ne.symm hij) _ _).trans (Function.update_self _ _ _))]
    simp only [CommandStore.has_saveConsumed, hhas]
    rfl
  have hi₃ : P₃ i = answer deviceId' held :=
    (Function.update_of_ne hij _ _).trans (Function.update_self _ _ _)
  refine ⟨i, _, by rw [Trace.exec_cons, hfind, Option.bind_some, Trace.exec_cons, hfirst,
    Option.bind_some, Trace.exec_cons, hsecond]; rfl, fun honce => hij (honce i j doc.id ?_ ?_)⟩
  · exact ⟨_, hi₃, congrArg some hid⟩
  · exact ⟨_, Function.update_self _ _ _, rfl⟩

end Runs

/-! ## A retried poll -/

/-- A reboot is ordered, and the device polls twice. -/
def retriedPoll : Fin 3 → Call
  | 0 => .setPending "mitspe6-gate-001" .reboot none none 0
  | 1 => .consumePending "mitspe6-gate-001" 1000 0
  | 2 => .consumePending "mitspe6-gate-001" 1200 0

theorem exclusive_of_not_holds {c : Calls ι × CommandStore} {j : ι} (h : ∀ i id, ¬ Holds c.1 i id) :
    Exclusive call c j :=
  fun _ _ _ doc _ _ _ i => h i doc.id

theorem exclusive_of_started {c : Calls ι × CommandStore} {j : ι} (h : c.1 j ≠ calls call j) :
    Exclusive call c j :=
  fun _ _ _ _ _ hstart _ _ => absurd hstart h

/-- The second poll comes after the first one. -/
theorem delivered_once_retriedPoll :
    Trace.AllSteps Pool.step (Exclusive retriedPoll) (calls retriedPoll, CommandStore.init)
        [0, 1, 1, 2] ∧
      Trace.AllStates Pool.step Once (calls retriedPoll, CommandStore.init) [0, 1, 1, 2] := by
  have hstart : ∀ {P : Calls (Fin 3)} {i id}, P i = calls retriedPoll i → ¬ Holds P i id :=
    fun h hholds => not_claims_start h (.inl hholds)
  have hret : ∀ {P : Calls (Fin 3)} {i id r}, P i = .ret r → ¬ Holds P i id := by
    rintro P i id r h ⟨deviceId, now, doc, hmark, -⟩
    cases h.symm.trans hmark
  have hcall : retriedPoll 1 = .consumePending "mitspe6-gate-001" 1000 0 := rfl
  have hfound : (CommandStore.init.create "mitspe6-gate-001" .reboot none none 0).findPending
      "mitspe6-gate-001" 1000 0 =
      some ⟨0, "mitspe6-gate-001", .reboot, none, none, none, 0⟩ := rfl
  have hsteps : Trace.AllSteps Pool.step (Exclusive retriedPoll)
      (calls retriedPoll, CommandStore.init) [0, 1, 1, 2] := by
    intro c₁ h₁
    obtain rfl := Option.some.inj h₁
    refine ⟨exclusive_of_not_holds fun i id => hstart rfl, fun c₂ h₂ => ?_⟩
    obtain rfl := Option.some.inj (h₂.symm.trans (step_find hcall rfl hfound))
    refine ⟨exclusive_of_not_holds fun i id => ?_, fun c₃ h₃ => ?_⟩
    · match i with
      | 0 => exact hret rfl
      | 1 => exact hstart rfl
      | 2 => exact hstart rfl
    obtain rfl := Option.some.inj h₃
    refine ⟨exclusive_of_started fun h => calls_ne_mark h.symm, fun c₄ h₄ => ?_⟩
    obtain rfl := Option.some.inj h₄
    refine ⟨exclusive_of_not_holds fun i id => ?_, trivial⟩
    match i with
    | 0 => exact hret rfl
    | 1 => exact hret rfl
    | 2 => exact hstart rfl
  exact ⟨hsteps, delivered_once retriedPoll [0, 1, 1, 2] hsteps⟩

/-- Both lookups come before the first save: both polls deliver the reboot. -/
theorem retriedPoll_delivers_twice :
    ¬ Trace.AllStates Pool.step Once (calls retriedPoll, CommandStore.init) [0, 1, 2, 1, 2] := by
  intro h
  have hrun : (Trace.exec Pool.step (calls retriedPoll, CommandStore.init) [0, 1, 2, 1, 2]).map
      (fun c => ((c.1 1).result?, (c.1 2).result?)) =
      some (some (.ok (.pending ⟨some 0, "mitspe6-gate-001", .reboot, none, some 0⟩)),
        some (.ok (.pending ⟨some 0, "mitspe6-gate-001", .reboot, none, some 0⟩))) := by
    rfl
  obtain ⟨c, hc, hresults⟩ := Option.map_eq_some_iff.mp hrun
  obtain ⟨hfirst, hsecond⟩ := Prod.mk.inj hresults
  have honce := h.last hc 1 2 0 ⟨_, Prog.result?_eq_some.mp hfirst, rfl⟩
    ⟨_, Prog.result?_eq_some.mp hsecond, rfl⟩
  exact absurd honce (by decide)

end Backend.DeliveredOnce
