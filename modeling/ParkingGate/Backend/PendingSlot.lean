-- SUMMARY: The pending command as a single slot: when polls see exactly the command that was set last, and how a superseded command resurfaces.
import Mathlib.Logic.Function.Basic
import ParkingGate.Backend.DeviceCommands

/-!
# One slot for each device

To the admin page there is one pending command for each device. The abstract model is a
register that holds the command that was set last until it is delivered, removed or expired.
The collection keeps the superseded documents as well. The newest document that is still
pending is the one in the register exactly as long as the document set last is pending
itself, or no older one is; after it has been consumed or has expired, an older one shows.
-/

namespace Backend

/-! ## The register -/

/-- The command of each device that was set last and has not been delivered. -/
abbrev Register := String → Option PendingCommand

namespace Register

def empty : Register := fun _ => none

/-- What a poll at `now` is to deliver. -/
def peek (r : Register) (deviceId : String) (now : Nat) : Option PendingCommand :=
  (r deviceId).filter (·.unexpired now)

/-- The command is delivered if it has not expired. -/
def take (r : Register) (deviceId : String) (now : Nat) : Register :=
  if (r.peek deviceId now).isSome then Function.update r deviceId none else r

end Register

/-! ## The last command of a device -/

namespace CommandStore

variable {s : CommandStore} {deviceId : String} {doc last : PendingCommand}

/-- The command that was set last, whether it has been consumed or not. -/
def latest (s : CommandStore) (deviceId : String) : Option PendingCommand :=
  (s.commands.filter (·.deviceId == deviceId)).getLast?

theorem of_latest (h : s.latest deviceId = some doc) :
    doc ∈ s.commands ∧ doc.deviceId = deviceId := by
  simpa using List.mem_filter.mp (List.mem_of_getLast? h)

/-- No document of the device is newer than the last one. -/
theorem createdAt_le_latest (hsorted : s.commands.Pairwise (·.createdAt ≤ ·.createdAt))
    (h : s.latest deviceId = some last) (hdoc : doc ∈ s.commands) (hdevice : doc.deviceId = deviceId) :
    doc.createdAt ≤ last.createdAt := by
  obtain ⟨init, hinit⟩ := List.getLast?_eq_some_iff.mp h
  have hmem : doc ∈ s.commands.filter (·.deviceId == deviceId) :=
    List.mem_filter.mpr ⟨hdoc, by simp [hdevice]⟩
  have hpairs := hsorted.filter (·.deviceId == deviceId)
  rw [hinit] at hmem hpairs
  rcases List.mem_append.mp hmem with hmem | hmem
  · exact (List.pairwise_append.mp hpairs).2.2 doc hmem last (by simp)
  · exact (List.mem_singleton.mp hmem) ▸ Nat.le_refl _

theorem latest_deletePending (s : CommandStore) (deviceId d : String) :
    (s.deletePending deviceId).latest d = if d = deviceId then none else s.latest d := by
  unfold latest deletePending Collection.deleteMany
  rw [List.filter_filter]
  split
  next hd =>
    subst hd
    rw [List.filter_eq_nil_iff.mpr (by simp)]
    rfl
  next hd =>
    congr 1
    refine List.filter_congr fun doc _ => ?_
    by_cases hdoc : doc.deviceId = d
    · simp [hdoc, hd]
    · simp [hdoc]

theorem latest_create (s : CommandStore) (deviceId d : String) (action : DeviceCommandAction)
    (reason : Option String) (expiresAt : Option Nat) (now : Nat) :
    (s.create deviceId action reason expiresAt now).latest d =
      if d = deviceId then some (s.newCommand deviceId action reason expiresAt now)
      else s.latest d := by
  unfold latest create
  rw [List.filter_append]
  split
  next hd => simp [newCommand, hd]
  next hd => simp [newCommand, Ne.symm hd]

theorem latest_saveConsumed (s : CommandStore) (id now : Nat) (d : String) :
    (s.saveConsumed id now).latest d =
      (s.latest d).map fun doc => if doc.id = id then doc.consume now else doc := by
  unfold latest saveConsumed
  rw [List.filter_map, List.getLast?_map]
  congr 2
  refine List.filter_congr fun doc _ => ?_
  simp only [Function.comp]
  split <;> rfl

end CommandStore

/-! ## Runs -/

/-- The collection with the time, and the register beside it. -/
structure CommandWorld where
  store : CommandStore
  register : Register
  clock : Nat

inductive CommandEvent where
  | setPending (deviceId : String) (action : DeviceCommandAction) (reason : Option String)
      (ttlSeconds : Option Nat)
  | consumePending (deviceId : String) (choice : Nat)
  | getLatestPending (deviceId : String) (choice : Nat)
  | tick (ms : Nat)

/-- The device whose pending command the event looks up. -/
def CommandEvent.polls : CommandEvent → Option String
  | .consumePending deviceId _ | .getLatestPending deviceId _ => some deviceId
  | _ => none

namespace CommandWorld

open CommandStore

def init : CommandWorld := ⟨CommandStore.init, Register.empty, 0⟩

/-- One call at a time, or the passing of time. -/
def step (w : CommandWorld) : CommandEvent → Option CommandWorld
  | .setPending deviceId action reason ttlSeconds => some { w with
      store := ((setPending deviceId action reason ttlSeconds w.clock).prog.run w.store).2
      register := Function.update w.register deviceId
        (if action = .none then none
        else some (w.store.newCommand deviceId action reason (expiryOf ttlSeconds w.clock) w.clock)) }
  | .consumePending deviceId choice => some { w with
      store := ((consumePending deviceId w.clock choice).prog.run w.store).2
      register := w.register.take deviceId w.clock }
  | .getLatestPending deviceId choice => some { w with
      store := ((getLatestPending deviceId w.clock choice).prog.run w.store).2 }
  | .tick ms => some { w with clock := w.clock + ms }

/-- The call answers with the command in the register, whatever order the database returns
    documents of the same time in. -/
def AnswersSlot (w : CommandWorld) : CommandEvent → Prop
  | .consumePending deviceId _ => ∀ choice,
    ((consumePending deviceId w.clock choice).prog.run w.store).1 =
      .ok (pendingResponse deviceId (w.register.peek deviceId w.clock))
  | .getLatestPending deviceId _ => ∀ choice,
    ((getLatestPending deviceId w.clock choice).prog.run w.store).1 =
      .ok (latestResponse deviceId (w.register.peek deviceId w.clock))
  | _ => True

/-- Every pending command of the device other than the last one is older than the last one,
    and the last one is pending. -/
def Hidden (w : CommandWorld) (deviceId : String) : Prop :=
  ∀ doc ∈ w.store.commands, doc.pendingFor deviceId w.clock = true →
    w.store.latest deviceId = some doc ∨
    ∃ last, w.store.latest deviceId = some last ∧ last.pendingFor deviceId w.clock = true ∧
      doc.createdAt < last.createdAt

/-- Polled devices have no superseded command that shows. -/
def PollsHidden (w : CommandWorld) (e : CommandEvent) : Prop :=
  ∀ deviceId, e.polls = some deviceId → w.Hidden deviceId

/-- The register holds the last command of each device as long as it is not consumed. -/
structure Refines (w : CommandWorld) : Prop where
  sorted : w.store.commands.Pairwise (·.createdAt ≤ ·.createdAt)
  past : ∀ doc ∈ w.store.commands, doc.createdAt ≤ w.clock
  keyed : Collection.Keyed (·.id) w.store.commands
  fresh : ∀ doc ∈ w.store.commands, doc.id < w.store.nextId
  slot : ∀ deviceId, w.register deviceId =
    (w.store.latest deviceId).filter (·.consumedAt.isNone)

theorem init_refines : init.Refines where
  sorted := .nil
  past := by simp [init, CommandStore.init]
  keyed := by simp [init, CommandStore.init, Collection.Keyed]
  fresh := by simp [init, CommandStore.init]
  slot := by simp [init, CommandStore.init, latest, Register.empty]

namespace Refines

variable {w : CommandWorld} (h : w.Refines)

include h

/-- What a poll is to deliver is the last command, if it is pending. -/
theorem peek_eq (deviceId : String) : w.register.peek deviceId w.clock =
    (w.store.latest deviceId).filter (·.pendingFor deviceId w.clock) := by
  rw [Register.peek, h.slot deviceId]
  cases hlast : w.store.latest deviceId with
  | none => rfl
  | some last =>
    rw [Option.filter_filter, Option.filter_some, Option.filter_some, PendingCommand.pendingFor,
      (of_latest hlast).2, beq_self_eq_true, Bool.true_and]

/-- A poll finds the command in the register if no superseded one shows. -/
theorem findPending_eq_peek {deviceId : String} (hhidden : w.Hidden deviceId) (choice : Nat) :
    w.store.findPending deviceId w.clock choice = w.register.peek deviceId w.clock := by
  rw [h.peek_eq deviceId]
  -- the last command is the newest of the pending ones
  have hshown : ∀ last, w.store.latest deviceId = some last →
      last.pendingFor deviceId w.clock = true →
      w.store.findPending deviceId w.clock choice = some last := by
    intro last hlast hpending
    refine Collection.findGreatest_eq_some (of_latest hlast).1 hpending fun doc hdoc hp => ?_
    rcases hhidden doc hdoc hp with hdoc' | ⟨last', hlast', -, hlt⟩
    · exact .inl (Option.some.inj (hdoc'.symm.trans hlast))
    · exact .inr (Option.some.inj (hlast'.symm.trans hlast) ▸ hlt)
  cases hfilter : (w.store.latest deviceId).filter (·.pendingFor deviceId w.clock) with
  | some last =>
    obtain ⟨hlast, hpending⟩ := Option.filter_eq_some_iff.mp hfilter
    exact hshown last hlast hpending
  | none =>
    refine Collection.findGreatest_eq_none_iff.mpr fun doc hdoc => ?_
    by_contra hp
    have hnot := Option.filter_eq_none_iff.mp hfilter
    rcases hhidden doc hdoc (by simpa using hp) with hdoc' | ⟨last, hlast, hpending, -⟩
    · exact hnot doc hdoc' (by simpa using hp)
    · exact hnot last hlast hpending

/-- If a superseded command shows, the database may return a command that is not the one in
    the register. -/
theorem findPending_ne_peek {deviceId : String} (hhidden : ¬ w.Hidden deviceId) :
    ∃ choice doc, w.store.findPending deviceId w.clock choice = some doc ∧
      w.register.peek deviceId w.clock ≠ some doc := by
  unfold Hidden at hhidden
  push Not at hhidden
  obtain ⟨doc, hdoc, hp, hother, hshows⟩ := hhidden
  rw [h.peek_eq deviceId]
  cases hfilter : (w.store.latest deviceId).filter (·.pendingFor deviceId w.clock) with
  | none =>
    cases hfound : w.store.findPending deviceId w.clock 0 with
    | none => simp [Collection.findGreatest_eq_none_iff.mp hfound doc hdoc] at hp
    | some found => exact ⟨0, found, hfound, by simp⟩
  | some last =>
    obtain ⟨hlast, hpending⟩ := Option.filter_eq_some_iff.mp hfilter
    have hle := hshows last hlast hpending
    -- nothing is newer than the last command, and so nothing is newer than `doc`
    obtain ⟨choice, hfound⟩ : ∃ choice, w.store.findPending deviceId w.clock choice = some doc :=
      Collection.exists_findGreatest hdoc hp fun doc' hdoc' hp' =>
        (createdAt_le_latest h.sorted hlast hdoc' (PendingCommand.pendingFor_iff.mp hp').1).trans hle
    refine ⟨choice, doc, hfound, fun heq => hother ?_⟩
    exact hlast.trans heq

/-- The lookup is right for every choice of the database, or it can be told from the register. -/
theorem found_eq_peek_iff (deviceId : String) :
    (∀ choice, (w.store.findPending deviceId w.clock choice).map (·.id) =
      (w.register.peek deviceId w.clock).map (·.id)) ↔ w.Hidden deviceId := by
  constructor
  · intro heq
    by_contra hhidden
    obtain ⟨choice, doc, hfound, hne⟩ := h.findPending_ne_peek hhidden
    have hids := heq choice
    rw [hfound, Option.map_some, eq_comm, Option.map_eq_some_iff] at hids
    obtain ⟨last, hpeek, hid⟩ := hids
    rw [h.peek_eq deviceId] at hpeek hne
    have hlast := (of_latest (Option.filter_eq_some_iff.mp hpeek).1).1
    have hdoc := (Collection.of_findGreatest hfound).1
    exact hne (hpeek.trans (congrArg some (h.keyed.eq_of_key hlast hdoc hid)))
  · intro hhidden choice
    rw [h.findPending_eq_peek hhidden choice]

omit h in
theorem pendingResponse_id (deviceId : String) (found : Option PendingCommand) :
    (pendingResponse deviceId found).id = found.map (·.id) := by
  cases found <;> rfl

omit h in
theorem latestResponse_id (deviceId : String) (found : Option PendingCommand) :
    (latestResponse deviceId found).id = found.map (·.id) := by
  cases found <;> rfl

/-- A call answers from the register exactly if the devices it polls have no superseded
    command that shows. -/
theorem answersSlot_iff (e : CommandEvent) : w.AnswersSlot e ↔ w.PollsHidden e := by
  cases e with
  | setPending | tick => simp [AnswersSlot, PollsHidden, CommandEvent.polls]
  | consumePending deviceId choice =>
    simp only [AnswersSlot, PollsHidden, CommandEvent.polls, Option.some.injEq, forall_eq',
      consumePending_run, Except.ok.injEq]
    rw [← h.found_eq_peek_iff deviceId]
    constructor
    · intro heq choice
      simpa only [pendingResponse_id] using congrArg (·.id) (heq choice)
    · intro heq choice
      rw [h.findPending_eq_peek ((h.found_eq_peek_iff deviceId).mp heq) choice]
  | getLatestPending deviceId choice =>
    simp only [AnswersSlot, PollsHidden, CommandEvent.polls, Option.some.injEq, forall_eq',
      getLatestPending_run, Except.ok.injEq]
    rw [← h.found_eq_peek_iff deviceId]
    constructor
    · intro heq choice
      simpa only [latestResponse_id] using congrArg (·.id) (heq choice)
    · intro heq choice
      rw [h.findPending_eq_peek ((h.found_eq_peek_iff deviceId).mp heq) choice]

/-! ## One call keeps the register in step -/

private theorem deletePending (deviceId : String) : Refines { w with
    store := w.store.deletePending deviceId
    register := Function.update w.register deviceId none } where
  sorted := h.sorted.filter _
  past doc hdoc := h.past doc (Collection.mem_deleteMany.mp hdoc).1
  keyed := h.keyed.deleteMany
  fresh doc hdoc := h.fresh doc (Collection.mem_deleteMany.mp hdoc).1
  slot d := by
    rw [latest_deletePending]
    by_cases hd : d = deviceId
    · simp [hd]
    · simp [hd, h.slot d]

private theorem create (deviceId : String) (action : DeviceCommandAction) (reason : Option String)
    (expiresAt : Option Nat) : Refines { w with
      store := w.store.create deviceId action reason expiresAt w.clock
      register := Function.update w.register deviceId
        (some (w.store.newCommand deviceId action reason expiresAt w.clock)) } where
  sorted := List.pairwise_append.mpr ⟨h.sorted, List.pairwise_singleton _ _, fun doc hdoc new hnew => by
    rw [List.mem_singleton.mp hnew]
    exact h.past doc hdoc⟩
  past doc hdoc := by
    rcases List.mem_append.mp hdoc with hdoc | hdoc
    · exact h.past doc hdoc
    · rw [List.mem_singleton.mp hdoc]
      exact Nat.le_refl _
  keyed := by
    unfold Collection.Keyed CommandStore.create
    rw [List.map_append]
    refine List.nodup_append.mpr ⟨h.keyed, List.nodup_singleton _, fun id hid new hnew heq => ?_⟩
    obtain ⟨doc, hdoc, rfl⟩ := List.mem_map.mp hid
    have hlt := h.fresh doc hdoc
    rw [heq, List.mem_singleton.mp hnew] at hlt
    exact Nat.lt_irrefl _ hlt
  fresh doc hdoc := by
    rcases List.mem_append.mp hdoc with hdoc | hdoc
    · exact (h.fresh doc hdoc).trans (Nat.lt_succ_self _)
    · rw [List.mem_singleton.mp hdoc]
      exact Nat.lt_succ_self _
  slot d := by
    rw [latest_create]
    by_cases hd : d = deviceId
    · simp [hd, Option.filter_some, newCommand]
    · simp [hd, h.slot d]

/-- The command in the register is consumed. -/
private theorem consumed {deviceId : String} {doc : PendingCommand}
    (hlast : w.store.latest deviceId = some doc) : Refines { w with
      store := w.store.saveConsumed doc.id w.clock
      register := Function.update w.register deviceId none } where
  sorted := by
    refine List.pairwise_map.mpr (h.sorted.imp fun {a b} hle => ?_)
    split <;> split <;> exact hle
  past doc' hdoc' := by
    obtain ⟨old, hold, rfl⟩ := List.mem_map.mp hdoc'
    split <;> exact h.past old hold
  keyed := by
    unfold Collection.Keyed saveConsumed
    rw [List.map_map]
    refine (List.map_congr_left fun old _ => ?_) ▸ h.keyed
    simp only [Function.comp]
    split <;> rfl
  fresh doc' hdoc' := by
    obtain ⟨old, hold, rfl⟩ := List.mem_map.mp hdoc'
    split <;> exact h.fresh old hold
  slot d := by
    rw [latest_saveConsumed]
    by_cases hd : d = deviceId
    · subst hd
      simp [hlast, Option.filter_some, PendingCommand.consume]
    · simp only [Function.update_of_ne hd, h.slot d]
      cases hother : w.store.latest d with
      | none => rfl
      | some other =>
        have hid : other.id ≠ doc.id := by
          intro hid
          have heq := h.keyed.eq_of_key (of_latest hother).1 (of_latest hlast).1 hid
          exact hd ((of_latest hother).2.symm.trans (heq ▸ (of_latest hlast).2))
        simp [hid]

omit h in
theorem step {w w' : CommandWorld} {e : CommandEvent} (h : w.Refines) (hhidden : w.PollsHidden e)
    (hstep : w.step e = some w') : w'.Refines := by
  cases e with
  | setPending deviceId action reason ttlSeconds =>
    obtain rfl := Option.some.inj hstep
    rw [setPending_run]
    split
    · exact h.deletePending deviceId
    · exact h.create deviceId action reason (expiryOf ttlSeconds w.clock)
  | consumePending deviceId choice =>
    obtain rfl := Option.some.inj hstep
    have hfound := h.findPending_eq_peek (hhidden deviceId rfl) choice
    simp only [consumePending_run, hfound, Register.take]
    cases hpeek : w.register.peek deviceId w.clock with
    | none => exact h
    | some doc =>
      rw [h.peek_eq deviceId] at hpeek
      exact h.consumed (Option.filter_eq_some_iff.mp hpeek).1
  | getLatestPending deviceId choice => exact Option.some.inj hstep ▸ h
  | tick ms =>
    obtain rfl := Option.some.inj hstep
    exact ⟨h.sorted, fun doc hdoc => (h.past doc hdoc).trans (Nat.le_add_right _ _), h.keyed,
      h.fresh, h.slot⟩

end Refines

/-- Every call answers from the register exactly if no poll meets a superseded command that
    shows. -/
theorem answers_slot_iff (es : List CommandEvent) :
    Trace.AllSteps step AnswersSlot init es ↔ Trace.AllSteps step PollsHidden init es :=
  Trace.allSteps_congr (J := Refines) (fun _ e _ h _ => h.answersSlot_iff e)
    (fun _ _ _ h hhidden hstep => h.step hhidden hstep) init_refines

/-- A reboot is ordered, then a PPP rebuild instead; the device polls twice. -/
def supersededRun : List CommandEvent :=
  [.setPending "mitspe6-gate-001" .reboot none none, .tick 1000,
    .setPending "mitspe6-gate-001" .rebuildPpp none none, .tick 1000,
    .consumePending "mitspe6-gate-001" 0, .tick 1000]

/-- The second poll reboots the device. -/
theorem supersededRun_resurfaces :
    ¬ Trace.AllSteps step AnswersSlot init
      (supersededRun ++ [.consumePending "mitspe6-gate-001" 0]) := by
  intro h
  have hrun : (Trace.exec step init supersededRun).map (fun w =>
      (((consumePending "mitspe6-gate-001" w.clock 0).prog.run w.store).1,
        w.register.peek "mitspe6-gate-001" w.clock)) =
      some (.ok ⟨some 0, "mitspe6-gate-001", .reboot, none, some 0⟩, none) := by
    rfl
  obtain ⟨w, hw, hpoll⟩ := Option.map_eq_some_iff.mp hrun
  obtain ⟨hanswer, hpeek⟩ := Prod.mk.inj hpoll
  have hslot := h.last hw rfl 0
  rw [hanswer, hpeek] at hslot
  simp [pendingResponse] at hslot

end CommandWorld

end Backend
