-- SUMMARY: Which timer rejects a promise of the MQTT gate device: the own one, unless a timer finds another attempt stored under its request id.
import ParkingGate.Backend.RetryLoop
import ParkingGate.Backend.NoHang

/-!
# Timers and their attempts

A timer does not hold its own attempt. When it fires, it rejects the attempt that is stored
in `pendingRequests` under its request id, and two attempts may share an id. The exact
condition for timers to reject only their own attempts is that none fires while another
attempt is stored under its id. Distinct request ids and publish callbacks that strand no
retry are enough for that.
-/

namespace Backend

namespace GateDevice

variable {Id : Type*}

/-- The promise of attempt `b` is rejected with `GatewayTimeoutException`. -/
def TimedOut (s : GateDevice Id) (b : Nat) : Prop :=
  ∃ att : Attempt Id, s.attempts[b]? = some att ∧
    ∃ message, att.outcome = some (.rejected (.gatewayTimeout message))

theorem timedOut_iff {s : GateDevice Id} {b : Nat} : s.TimedOut b ↔
    ∃ message, (s.attempts.map (·.outcome))[b]? =
      some (some (.rejected (.gatewayTimeout message))) := by
  simp only [TimedOut, List.getElem?_map, Option.map_eq_some_iff]
  constructor
  · rintro ⟨att, hatt, message, hout⟩
    exact ⟨message, att, hatt, hout⟩
  · rintro ⟨message, att, hatt, hout⟩
    exact ⟨att, hatt, message, hout⟩

/-- The timer of attempt `b` is armed and its time is over. -/
def Due (cfg : GateConfig) (s : GateDevice Id) (b : Nat) : Prop :=
  ∃ att : Attempt Id, s.attempts[b]? = some att ∧ att.timerArmed = true ∧
    att.startTime + cfg.timeoutMs ≤ s.clock

/-- A timer fires while another attempt is stored under its request id. -/
def MeetsOther (s : GateDevice Id) (e : GateEvent Id) : Prop :=
  ∃ (a : Nat) (att : Attempt Id) (b : Nat), e = .timer a ∧ s.attempts[a]? = some att ∧
    s.pendingRequests att.requestId = some b ∧ b ≠ a

/-- An entry of the map is an open attempt under its own request id. -/
def StoredOpen (s : GateDevice Id) : Prop :=
  ∀ r b, s.pendingRequests r = some b →
    ∃ att : Attempt Id, s.attempts[b]? = some att ∧ att.requestId = r ∧ att.outcome = none

/-- What a timer does, beside disarming itself. -/
theorem timer_cases [DecidableEq Id] {cfg : GateConfig} {s s' : GateDevice Id} {a : Nat}
    (h : s.timer cfg a = some s') :
    s.Due cfg a ∧ ∃ att : Attempt Id, s.attempts[a]? = some att ∧
      ((s.pendingRequests att.requestId = none ∧ s' = s.clearTimeout a) ∨
      ∃ b, s.pendingRequests att.requestId = some b ∧
        s' = ((s.clearTimeout a).deletePending att.requestId).settle b
          (.rejected (.gatewayTimeout "תקשורת עם השער ארכה יותר מדי זמן"))) := by
  obtain ⟨att, hatt, hrun⟩ := Option.bind_eq_some_iff.mp h
  split at hrun
  · cases hrun
  · rename_i hfires
    refine ⟨⟨att, hatt, by simpa using hfires⟩, att, hatt, ?_⟩
    cases hr : s.pendingRequests att.requestId with
    | none =>
      simp only [GateDevice.clearTimeout, hr, Option.some.injEq] at hrun
      exact .inl ⟨rfl, hrun.symm⟩
    | some b =>
      simp only [GateDevice.clearTimeout, hr, Option.some.injEq] at hrun
      exact .inr ⟨b, rfl, hrun.symm⟩

/-! ## What is stored is open -/

namespace StoredOpen

variable {s s' : GateDevice Id}

theorem congr (h : s.StoredOpen) (hp : s'.pendingRequests = s.pendingRequests)
    (ha : s'.attempts = s.attempts) : s'.StoredOpen := by
  unfold StoredOpen
  rw [hp, ha]
  exact h

theorem init [DecidableEq Id] : StoredOpen (GateDevice.init : GateDevice Id) := by
  intro r b hr
  cases hr

/-- Changing attempts in anything but their ids and outcomes. -/
private theorem modifyAttempt {f : Attempt Id → Attempt Id} (h : s.StoredOpen) (a : Nat)
    (hid : ∀ att, (f att).requestId = att.requestId) (hout : ∀ att, (f att).outcome = att.outcome) :
    ({ s with attempts := s.attempts.modify a f } : GateDevice Id).StoredOpen := by
  intro r b hr
  obtain ⟨old, hold, rfl, hopen⟩ := h r b hr
  refine ⟨if a = b then f old else old, ?_, by split <;> simp [hid], by split <;> simp [hout, hopen]⟩
  simp only [List.getElem?_modify, hold]
  rfl

variable [DecidableEq Id]

/-- Removing the entry for `r` and settling an attempt under `r`. -/
private theorem retire (h : s.StoredOpen) (a : Nat) {b : Nat} {r : Id} (outcome : Settled)
    (hb : ∀ att, s.attempts[b]? = some att → att.requestId = r) :
    (((s.clearTimeout a).deletePending r).settle b outcome).StoredOpen := by
  have hcleared : (s.clearTimeout a).StoredOpen := h.modifyAttempt a (fun _ => rfl) fun _ => rfl
  intro r' b' hr'
  have hne : r' ≠ r := by
    rintro rfl
    simp [settle, deletePending] at hr'
  obtain ⟨att, hatt, rfl, hopen⟩ := hcleared r' b' ((Function.update_of_ne hne _ _).symm.trans hr')
  have hbb' : b ≠ b' := by
    rintro rfl
    obtain ⟨old, hold, rfl⟩ := getElem?_modify_cases hatt
    refine hne ((hb old hold) ▸ ?_)
    split <;> rfl
  exact ⟨att, (List.getElem?_modify_ne _ _ hbb').trans hatt, rfl, hopen⟩

private theorem handleAckMessage (h : s.StoredOpen) (ack : Ack Id) :
    (s.handleAckMessage ack).StoredOpen := by
  unfold GateDevice.handleAckMessage
  cases hr : s.pendingRequests ack.requestId with
  | none => exact h
  | some b =>
    obtain ⟨att, hatt, hid, -⟩ := h ack.requestId b hr
    have hb : ∀ att', s.attempts[b]? = some att' → att'.requestId = ack.requestId := by
      intro att' hatt'
      exact Option.some.inj (hatt.symm.trans hatt') ▸ hid
    simp only
    split <;> exact h.retire b _ hb

private theorem publishCallback {a : Nat} {error : Bool} (h : s.StoredOpen)
    (hstep : s.publishCallback a error = some s') : s'.StoredOpen := by
  obtain ⟨att, hatt, hrun⟩ := Option.bind_eq_some_iff.mp hstep
  have hcalled := h.modifyAttempt a (f := fun att => { att with callbackDue := false })
    (fun _ => rfl) fun _ => rfl
  split at hrun
  · cases hrun
  · split at hrun
    · refine Option.some.inj hrun ▸ hcalled.retire a _ fun att' hatt' => ?_
      obtain ⟨old, hold, rfl⟩ := getElem?_modify_cases hatt'
      rw [Option.some.inj (hatt.symm.trans hold)]
      split <;> rfl
    · exact Option.some.inj hrun ▸ hcalled

private theorem timer {cfg : GateConfig} {a : Nat} (h : s.StoredOpen)
    (hstep : s.timer cfg a = some s') : s'.StoredOpen := by
  obtain ⟨-, att, -, ⟨-, rfl⟩ | ⟨b, hr, rfl⟩⟩ := timer_cases hstep
  · exact h.modifyAttempt a (fun _ => rfl) fun _ => rfl
  · obtain ⟨own, hown, hid, -⟩ := h _ b hr
    refine h.retire a _ fun att' hatt' => ?_
    exact Option.some.inj (hown.symm.trans hatt') ▸ hid

/-- A new attempt is open if it is stored. -/
private theorem publish (h : s.StoredOpen) (i : Nat) (r : Id) (userId : String) :
    (s.publishCommandAndWaitForAck i r userId).2.StoredOpen := by
  unfold publishCommandAndWaitForAck
  split
  · intro r' b hr'
    obtain ⟨att, hatt, hid, hopen⟩ := h r' b hr'
    exact ⟨att, getElem?_concat_of_some hatt, hid, hopen⟩
  · intro r' b hr'
    by_cases hne : r' = r
    · subst hne
      simp only [Function.update_self, Option.some.injEq] at hr'
      subst hr'
      exact ⟨_, List.getElem?_concat_length, rfl, rfl⟩
    · simp only [Function.update_of_ne hne] at hr'
      obtain ⟨att, hatt, hid, hopen⟩ := h r' b hr'
      exact ⟨att, getElem?_concat_of_some hatt, hid, hopen⟩

theorem step {cfg : GateConfig} {e : GateEvent Id} (h : s.StoredOpen)
    (hstep : step cfg s e = some s') : s'.StoredOpen := by
  cases step_cases hstep with
  | openGate r userId created =>
    rcases s.openGate_cases r userId created with ⟨promise, heq⟩ | heq <;> rw [heq]
    · obtain ⟨hpending, hattempts, -, -⟩ := s.connect_frame created
      exact h.congr hpending hattempts
    · exact h.publish s.calls.length r userId
  | resume hc hresumed =>
    cases hresumed with
    | attempt n => exact startAttempt_eq s _ _ n ▸ h.publish _ _ _
    | next t state ht =>
      rcases ht with rfl | ⟨metadata, rfl⟩
      · exact h
      · exact h
  | ack message => exact h.handleAckMessage message
  | publishCallback hcallback => exact h.publishCallback hcallback
  | timer htimer => exact h.timer htimer
  | disconnect => intro r b hr; cases hr
  | idle _ hpending hattempts => exact h.congr hpending hattempts

end StoredOpen

/-! ## Who rejects a promise with a timeout -/

section TimedOut

variable {s s' : GateDevice Id} {a b : Nat}

theorem TimedOut.congr (h : s'.TimedOut b) (ha : s'.attempts = s.attempts) : s.TimedOut b := by
  unfold TimedOut at h
  rwa [ha] at h

/-- Changing an attempt without giving it a timeout. -/
private theorem TimedOut.of_modify {f : Attempt Id → Attempt Id} (h : s'.TimedOut b)
    (ha : s'.attempts = s.attempts.modify a f)
    (hf : ∀ att message, (f att).outcome = some (.rejected (.gatewayTimeout message)) →
      att.outcome = some (.rejected (.gatewayTimeout message))) : s.TimedOut b := by
  obtain ⟨att, hatt, message, hout⟩ := h
  rw [ha] at hatt
  obtain ⟨old, hold, rfl⟩ := getElem?_modify_cases hatt
  refine ⟨old, hold, message, ?_⟩
  split at hout
  · exact hf old message hout
  · exact hout

private theorem TimedOut.of_clearTimeout (h : (s.clearTimeout a).TimedOut b) : s.TimedOut b :=
  h.of_modify rfl fun _ _ hout => hout

/-- Settling a promise with anything but a timeout. -/
private theorem TimedOut.of_settle {outcome : Settled} (hne : ¬ outcome.TimedOut)
    (h : (s.settle a outcome).TimedOut b) : s.TimedOut b := by
  refine h.of_modify rfl fun att message hout => ?_
  cases hold : att.outcome with
  | none =>
    simp only [Attempt.settle, hold, Option.getD_none, Option.some.injEq] at hout
    exact absurd ⟨message, hout⟩ hne
  | some o => simpa [Attempt.settle, hold] using hout

private theorem TimedOut.of_settle_ne {outcome : Settled} (hne : a ≠ b)
    (h : (s.settle a outcome).TimedOut b) : s.TimedOut b := by
  obtain ⟨att, hatt, hout⟩ := h
  exact ⟨att, (List.getElem?_modify_ne _ _ hne).symm.trans hatt, hout⟩

/-- A promise that is open becomes timed out when it is settled so. -/
private theorem timedOut_settle {att : Attempt Id} (hatt : s.attempts[b]? = some att)
    (hopen : att.outcome = none) (message : String) :
    (s.settle b (.rejected (.gatewayTimeout message))).TimedOut b :=
  ⟨att.settle (.rejected (.gatewayTimeout message)), by simp [settle, hatt], message,
    by simp [Attempt.settle, hopen]⟩

variable [DecidableEq Id] {cfg : GateConfig} {e : GateEvent Id}

private theorem TimedOut.of_publish {i : Nat} {r : Id} {userId : String}
    (h : (s.publishCommandAndWaitForAck i r userId).2.TimedOut b) : s.TimedOut b := by
  unfold publishCommandAndWaitForAck at h
  obtain ⟨att, hatt, message, hout⟩ := h
  split at hatt <;>
  · rcases getElem?_concat_cases hatt with hatt | ⟨-, rfl⟩
    · exact ⟨att, hatt, message, hout⟩
    · simp at hout

/-- A promise is rejected with a timeout only when a timer finds it under its request id. -/
theorem timedOut_step (hstep : step cfg s e = some s') (h : s'.TimedOut b) :
    s.TimedOut b ∨ ∃ (a : Nat) (att : Attempt Id), e = .timer a ∧ s.Due cfg a ∧
      s.attempts[a]? = some att ∧ s.pendingRequests att.requestId = some b := by
  cases step_cases hstep with
  | openGate r userId created =>
    rcases s.openGate_cases r userId created with ⟨promise, heq⟩ | heq <;> rw [heq] at h
    · exact .inl (h.congr (s.connect_frame created).2.1)
    · exact .inl (TimedOut.of_publish h)
  | resume hc hresumed =>
    cases hresumed with
    | attempt n => exact .inl (TimedOut.of_publish (startAttempt_eq s _ _ n ▸ h))
    | next t state ht =>
      rcases ht with rfl | ⟨metadata, rfl⟩
      · exact .inl h
      · exact .inl h
  | ack message =>
    unfold handleAckMessage at h
    split at h
    · exact .inl h
    · simp only at h
      split at h <;> exact .inl (TimedOut.of_clearTimeout (h.of_settle (by simp [Settled.TimedOut])))
  | @publishCallback a error _ hcallback =>
    obtain ⟨att, -, hrun⟩ := Option.bind_eq_some_iff.mp hcallback
    have hcalled : ∀ {b}, ({ s with
        attempts := s.attempts.modify a fun att => { att with callbackDue := false } } :
        GateDevice Id).TimedOut b → s.TimedOut b := fun h => h.of_modify rfl fun _ _ hout => hout
    split at hrun
    · cases hrun
    · split at hrun
      · refine .inl (hcalled (TimedOut.of_clearTimeout (a := a) ?_))
        exact (Option.some.inj hrun ▸ h).of_settle (by simp [Settled.TimedOut])
      · exact .inl (hcalled (Option.some.inj hrun ▸ h))
  | @timer a _ htimer =>
    obtain ⟨hdue, att, hatt, ⟨-, rfl⟩ | ⟨b', hr, rfl⟩⟩ := timer_cases htimer
    · exact .inl h.of_clearTimeout
    · by_cases hbb' : b' = b
      · subst hbb'
        exact .inr ⟨a, att, rfl, hdue, hatt, hr⟩
      · exact .inl (TimedOut.of_clearTimeout (a := a) (h.of_settle_ne hbb'))
  | disconnect =>
    obtain ⟨att, hatt, message, hout⟩ := h
    simp only [disconnect, List.getElem?_mapIdx, Option.map_eq_some_iff] at hatt
    obtain ⟨old, hold, rfl⟩ := hatt
    refine .inl ⟨old, hold, message, ?_⟩
    split at hout
    · cases hout' : old.outcome with
      | none => simp [Attempt.settle, Attempt.clearTimeout, hout'] at hout
      | some o => simpa [Attempt.settle, Attempt.clearTimeout, hout'] using hout
    · exact hout
  | idle _ _ hattempts => exact .inl (h.congr hattempts)

end TimedOut

/-! ## Runs -/

/-- Every promise that the event rejects with a timeout has its own timer fire, and the timer
    was due. -/
def RejectsOwn [DecidableEq Id] (cfg : GateConfig) (s : GateDevice Id) (e : GateEvent Id) : Prop :=
  ∀ s', step cfg s e = some s' → ∀ b, s'.TimedOut b → ¬ s.TimedOut b → e = .timer b ∧ s.Due cfg b

variable [DecidableEq Id] {cfg : GateConfig}

/-- One event rejects only the attempt that its timer belongs to, or the timer has met another
    attempt. -/
theorem rejectsOwn_iff {s s' : GateDevice Id} {e : GateEvent Id} (hs : s.StoredOpen)
    (hstep : step cfg s e = some s') : s.RejectsOwn cfg e ↔ ¬ s.MeetsOther e := by
  constructor
  · rintro h ⟨a, att, b, rfl, hatt, hr, hne⟩
    obtain ⟨own, hown, -, hopen⟩ := hs _ b hr
    obtain ⟨-, att', hatt', hcases⟩ := timer_cases hstep
    obtain rfl := Option.some.inj (hatt.symm.trans hatt')
    have hb : ¬ s.TimedOut b := by
      rintro ⟨att', hatt', message, hout⟩
      obtain rfl := Option.some.inj (hown.symm.trans hatt')
      simp [hopen] at hout
    have hb' : s'.TimedOut b := by
      rcases hcases with ⟨hnone, -⟩ | ⟨b', hr', rfl⟩
      · simp [hr] at hnone
      · obtain rfl := Option.some.inj (hr.symm.trans hr')
        exact timedOut_settle ((List.getElem?_modify_ne _ _ (Ne.symm hne)).trans hown) hopen _
    exact hne (by simpa using (h s' hstep b hb' hb).1.symm)
  · intro h t ht b hb hold
    rcases timedOut_step ht hb with hb | ⟨a, att, rfl, hdue, hatt, hr⟩
    · exact absurd hb hold
    · have hba : b = a := by
        by_contra hne
        exact h ⟨a, att, b, rfl, hatt, hr, hne⟩
      subst hba
      exact ⟨rfl, hdue⟩

private theorem allSteps_rejectsOwn (cfg : GateConfig) (es : List (GateEvent Id)) :
    Trace.AllSteps (step cfg) (RejectsOwn cfg) init es ↔
      Trace.AllSteps (step cfg) (fun s e => ¬ s.MeetsOther e) init es :=
  Trace.allSteps_congr (J := StoredOpen) (fun _ _ _ hs hstep => rejectsOwn_iff hs hstep)
    (fun _ _ _ hs _ hstep => hs.step hstep) StoredOpen.init

/-- Whatever the order of events, timers reject only their own attempts exactly when none
    fires while another attempt is stored under its request id. -/
theorem rejected_by_own_timer_iff (cfg : GateConfig) (es : List (GateEvent Id)) :
    Trace.AllSteps (step cfg) (RejectsOwn cfg) init es ↔
      Trace.AllSteps (step cfg) (fun s e => ¬ s.MeetsOther e) init es :=
  allSteps_rejectsOwn cfg es

/-- With distinct request ids a timer meets another attempt only after a publish error that
    strands a retry. -/
theorem allSteps_rejectsOwn_of_distinct {es : List (GateEvent Id)} (h : (openedIds es).Nodup)
    (hstrands : Trace.AllSteps (step cfg) (fun s e => ¬ s.StrandsRetry e) init es) :
    Trace.AllSteps (step cfg) (RejectsOwn cfg) init es := by
  have hfresh : Trace.AllSteps (step cfg) Fresh (init : GateDevice Id) es :=
    allSteps_fresh (by simpa [init] using h)
  refine (allSteps_rejectsOwn cfg es).mpr ((hfresh.and hstrands).imp (J := Consistent) ?_
    (fun _ _ _ hs h hstep => hs.step h.1 h.2 hstep) init_consistent)
  rintro s e s' hs - hstep ⟨a, att, b, rfl, hatt, hr, hne⟩
  obtain ⟨⟨att', hatt', harmed, -⟩, -⟩ := timer_cases hstep
  obtain rfl := Option.some.inj (hatt.symm.trans hatt')
  -- an armed timer belongs to the attempt stored under the id
  have hown := (hs.noHang a att hatt (hs.armed a att hatt harmed)).1
  exact hne (Option.some.inj (hr.symm.trans hown))

/-- Two commands with one request id, the second four seconds after the first. -/
def reusedIdRun : List (GateEvent String) :=
  [.onModuleInit true, .mqttConnect, .subscribed 0 true,
    .openGate "11111111-1111-4111-8111-111111111111" "64b0c2f1a1b2c3d4e5f60718" true, .tick 4000,
    .openGate "11111111-1111-4111-8111-111111111111" "64b0c2f1a1b2c3d4e5f60718" true, .tick 1000]

/-- The timer of the first attempt rejects the second one after a second. -/
theorem reusedIdRun_rejectsOther :
    ¬ Trace.AllSteps (step defaultConfig) (RejectsOwn defaultConfig) init
      (reusedIdRun ++ [.timer 0]) := by
  intro h
  have hrun : (Trace.exec (step defaultConfig) init reusedIdRun).bind (fun s =>
      (step defaultConfig s (.timer 0)).map fun s' =>
        (s.attempts.map (·.outcome), s'.attempts.map (·.outcome))) =
      some ([none, none], [none,
        some (.rejected (.gatewayTimeout "תקשורת עם השער ארכה יותר מדי זמן"))]) := by
    decide
  obtain ⟨s, hs, hlast⟩ := Option.bind_eq_some_iff.mp hrun
  obtain ⟨s', hs', houtcomes⟩ := Option.map_eq_some_iff.mp hlast
  obtain ⟨hbefore, hafter⟩ := Prod.mk.inj houtcomes
  have hopen : ¬ s.TimedOut 1 := by simp [timedOut_iff, hbefore]
  have hrejected : s'.TimedOut 1 := timedOut_iff.mpr ⟨_, by rw [hafter]; rfl⟩
  simpa using (h.last hs hs' s' hs' 1 hrejected hopen).1

end GateDevice

end Backend
