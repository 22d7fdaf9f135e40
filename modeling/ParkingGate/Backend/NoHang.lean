-- SUMMARY: Which attempts of the MQTT gate device can hang: an attempt stays under its own timer unless a late publish error of an earlier attempt removes it.
import ParkingGate.Backend.MqttGateDevice

/-!
# Attempts do not hang

An attempt whose promise is open should be the one stored in `pendingRequests` under its
request id, with its own timer armed. ACKs, timers and `disconnect` keep this, because they
settle the attempt they remove. The publish callback removes whatever is stored under the
request id but rejects its own promise, so the error of an earlier attempt strands a retry.
With distinct request ids this is the only way to hang, and `noHang_iff` says so.
-/

namespace Backend

namespace GateDevice

variable {Id : Type*}

/-- Every open attempt is stored under its request id and has its timer armed. -/
def NoHang (s : GateDevice Id) : Prop :=
  ∀ (a : Nat) (att : Attempt Id), s.attempts[a]? = some att → att.outcome = none →
    s.pendingRequests att.requestId = some a ∧ att.timerArmed = true

/-- A publish error of one attempt while another one is stored under its request id. -/
def StrandsRetry (s : GateDevice Id) (e : GateEvent Id) : Prop :=
  ∃ (a : Nat) (att : Attempt Id) (b : Nat), e = .publishCallback a true ∧ s.attempts[a]? = some att ∧
    s.pendingRequests att.requestId = some b ∧ b ≠ a

/-- The request id of a new call is not in use. -/
def Fresh (s : GateDevice Id) (e : GateEvent Id) : Prop :=
  ∀ requestId userId created, e = .openGate requestId userId created →
    requestId ∉ s.calls.map (·.requestId)

/-- What the service maintains between its promises, its map and its calls. -/
structure Consistent (s : GateDevice Id) : Prop where
  noHang : s.NoHang
  stored : ∀ r a, s.pendingRequests r = some a →
    ∃ att : Attempt Id, s.attempts[a]? = some att ∧ att.requestId = r ∧ att.outcome = none
  armed : ∀ (a : Nat) (att : Attempt Id), s.attempts[a]? = some att → att.timerArmed = true → att.outcome = none
  owner : ∀ (a : Nat) (att : Attempt Id), s.attempts[a]? = some att →
    ∃ c : Call Id, s.calls[att.call]? = some c ∧ c.requestId = att.requestId ∧
      (att.outcome = none → ∃ n, c.state = .waiting n a)
  distinct : (s.calls.map (·.requestId)).Nodup

theorem init_consistent [DecidableEq Id] : (init : GateDevice Id).Consistent where
  noHang _ _ h := by simp [init] at h
  stored _ _ h := by simp [init] at h
  armed _ _ h := by simp [init] at h
  owner _ _ h := by simp [init] at h
  distinct := by simp [init]

namespace Consistent

/-- Only the promises, the map and the calls matter. -/
theorem congr {s s' : GateDevice Id} (h : s.Consistent) (hp : s'.pendingRequests = s.pendingRequests)
    (ha : s'.attempts = s.attempts) (hc : s'.calls = s.calls) : s'.Consistent where
  noHang := by unfold NoHang; rw [hp, ha]; exact h.noHang
  stored := by rw [hp, ha]; exact h.stored
  armed := by rw [ha]; exact h.armed
  owner := by rw [ha, hc]; exact h.owner
  distinct := by rw [hc]; exact h.distinct

/-! ## Settling -/

/-- What an attempt keeps when only its callback or the timer of a settled promise changes. -/
private structure Keeps (old att : Attempt Id) : Prop where
  call : att.call = old.call
  requestId : att.requestId = old.requestId
  outcome : att.outcome = old.outcome
  timer : att.timerArmed = old.timerArmed ∨ (old.outcome ≠ none ∧ att.timerArmed = false)

private theorem modifyAttempt {s : GateDevice Id} (h : s.Consistent) (a : Nat)
    {f : Attempt Id → Attempt Id} (hf : ∀ old, s.attempts[a]? = some old → Keeps old (f old)) :
    ({ s with attempts := s.attempts.modify a f } : GateDevice Id).Consistent := by
  have hold : ∀ (b : Nat) (att : Attempt Id), (s.attempts.modify a f)[b]? = some att →
      ∃ old, s.attempts[b]? = some old ∧ Keeps old att := by
    intro b att hatt
    obtain ⟨old, hold, rfl⟩ := getElem?_modify_cases hatt
    by_cases hab : a = b
    · subst hab
      simp only [if_true]
      exact ⟨old, hold, hf old hold⟩
    · simp only [if_neg hab]
      exact ⟨old, hold, rfl, rfl, rfl, .inl rfl⟩
  constructor
  case noHang =>
    intro b att hatt hopen
    obtain ⟨old, hb, hk⟩ := hold b att hatt
    obtain ⟨hstored, harmed⟩ := h.noHang b old hb (hk.outcome.symm.trans hopen)
    refine ⟨hk.requestId ▸ hstored, ?_⟩
    rcases hk.timer with htimer | ⟨hsettled, -⟩
    · exact htimer.trans harmed
    · exact absurd (hk.outcome.symm.trans hopen) hsettled
  case stored =>
    intro r b hr
    obtain ⟨old, hb, rfl, hopen⟩ := h.stored r b hr
    by_cases hab : a = b
    · subst hab
      have hk := hf old hb
      exact ⟨f old, by simp [hb], hk.requestId, hk.outcome.trans hopen⟩
    · exact ⟨old, by simp [hab, hb], rfl, hopen⟩
  case armed =>
    intro b att hatt harmed
    obtain ⟨old, hb, hk⟩ := hold b att hatt
    rcases hk.timer with htimer | ⟨-, hoff⟩
    · exact hk.outcome.trans (h.armed b old hb (htimer.symm.trans harmed))
    · simp [harmed] at hoff
  case owner =>
    intro b att hatt
    obtain ⟨old, hb, hk⟩ := hold b att hatt
    obtain ⟨c, hc, hcid, hwait⟩ := h.owner b old hb
    exact ⟨c, hk.call ▸ hc, hcid.trans hk.requestId.symm,
      fun hopen => hwait (hk.outcome.symm.trans hopen)⟩
  case distinct => exact h.distinct

theorem disconnect {s : GateDevice Id} (h : s.Consistent) : s.disconnect.Consistent := by
  have hold : ∀ (a : Nat) (att : Attempt Id), s.disconnect.attempts[a]? = some att →
      att.outcome ≠ none ∧ att.timerArmed = false ∧
        ∃ old : Attempt Id, s.attempts[a]? = some old ∧ att.call = old.call ∧
          att.requestId = old.requestId := by
    intro a att hatt
    simp only [GateDevice.disconnect, List.getElem?_mapIdx, Option.map_eq_some_iff] at hatt
    obtain ⟨old, hold, rfl⟩ := hatt
    split
    · exact ⟨by simp [Attempt.settle], rfl, old, hold, rfl, rfl⟩
    · -- Whatever is not stored is settled, and its timer is off.
      rename_i hnot
      have hsettled : old.outcome ≠ none := fun hopen => hnot (h.noHang a old hold hopen).1
      refine ⟨hsettled, ?_, old, hold, rfl, rfl⟩
      cases harmed : old.timerArmed with
      | false => rfl
      | true => exact absurd (h.armed a old hold harmed) hsettled
  constructor
  case noHang => exact fun a att hatt hopen => absurd hopen (hold a att hatt).1
  case stored => exact fun r a hr => by cases hr
  case armed =>
    intro a att hatt harmed
    simp [(hold a att hatt).2.1] at harmed
  case owner =>
    intro a att hatt
    obtain ⟨hsettled, -, old, hold, hcall, hid⟩ := hold a att hatt
    obtain ⟨c, hc, hcid, -⟩ := h.owner a old hold
    exact ⟨c, hcall ▸ hc, hcid.trans hid.symm, fun hopen => absurd hopen hsettled⟩
  case distinct => exact h.distinct

variable [DecidableEq Id]

/-- Removing an entry of the map together with its timer and its promise. -/
theorem retire {s : GateDevice Id} (h : s.Consistent) {r : Id} {a : Nat}
    (hr : s.pendingRequests r = some a) (outcome : Settled) :
    (((s.clearTimeout a).deletePending r).settle a outcome).Consistent := by
  obtain ⟨own, hown, hreq, -⟩ := h.stored r a hr
  have hattempts : (((s.clearTimeout a).deletePending r).settle a outcome).attempts =
      s.attempts.modify a ((·.settle outcome) ∘ Attempt.clearTimeout) :=
    List.modify_modify_eq _ _ _ _
  -- Every attempt afterwards is an old one, settled and disarmed if it is `a`.
  have hold : ∀ b att, (((s.clearTimeout a).deletePending r).settle a outcome).attempts[b]? =
      some att → ∃ old, s.attempts[b]? = some old ∧ att.call = old.call ∧
        att.requestId = old.requestId ∧
        ((b = a ∧ att.outcome ≠ none ∧ att.timerArmed = false) ∨ (b ≠ a ∧ att = old)) := by
    intro b att hatt
    rw [hattempts] at hatt
    obtain ⟨old, hold, rfl⟩ := getElem?_modify_cases hatt
    by_cases hba : b = a
    · subst hba
      exact ⟨old, hold, by simp [Attempt.settle, Attempt.clearTimeout],
        by simp [Attempt.settle, Attempt.clearTimeout],
        .inl ⟨rfl, by simp [Attempt.settle], by simp [Attempt.settle, Attempt.clearTimeout]⟩⟩
    · simp only [if_neg (Ne.symm hba)]
      exact ⟨old, hold, rfl, rfl, .inr ⟨hba, rfl⟩⟩
  -- Two attempts stored under one id are the same, so the other entries stay.
  have hother : ∀ b old, s.attempts[b]? = some old → old.outcome = none → b ≠ a →
      old.requestId ≠ r := by
    rintro b old hb hopen hba rfl
    have := (h.noHang b old hb hopen).1
    exact hba (Option.some.inj (this.symm.trans hr))
  constructor
  case noHang =>
    intro b att hatt hopen
    obtain ⟨old, hb, -, -, ⟨-, hsettled, -⟩ | ⟨hba, rfl⟩⟩ := hold b att hatt
    · exact absurd hopen hsettled
    · obtain ⟨hstored, harmed⟩ := h.noHang b att hb hopen
      exact ⟨(Function.update_of_ne (hother b att hb hopen hba) _ _).trans hstored, harmed⟩
  case stored =>
    intro r' b hr'
    have hne : r' ≠ r := by
      rintro rfl
      simp [settle, deletePending] at hr'
    have hb : s.pendingRequests r' = some b :=
      (Function.update_of_ne hne _ _).symm.trans hr'
    obtain ⟨att, hatt, rfl, hopen⟩ := h.stored r' b hb
    have hba : a ≠ b := by
      rintro rfl
      exact hne (Option.some.inj (hatt.symm.trans hown) ▸ hreq)
    refine ⟨att, ?_, rfl, hopen⟩
    rw [hattempts, List.getElem?_modify_ne _ _ hba]
    exact hatt
  case armed =>
    intro b att hatt htimer
    obtain ⟨old, hb, -, -, ⟨-, -, hcleared⟩ | ⟨-, rfl⟩⟩ := hold b att hatt
    · simp [htimer] at hcleared
    · exact h.armed b att hb htimer
  case owner =>
    intro b att hatt
    obtain ⟨old, hb, hcall, hid, hcase⟩ := hold b att hatt
    obtain ⟨c, hc, hcid, hwait⟩ := h.owner b old hb
    refine ⟨c, hcall ▸ hc, hcid.trans hid.symm, fun hopen => ?_⟩
    rcases hcase with ⟨-, hsettled, -⟩ | ⟨-, rfl⟩
    · exact absurd hopen hsettled
    · exact hwait hopen
  case distinct => exact h.distinct

theorem handleAckMessage {s : GateDevice Id} (h : s.Consistent) (ack : Ack Id) :
    (s.handleAckMessage ack).Consistent := by
  unfold GateDevice.handleAckMessage
  cases hr : s.pendingRequests ack.requestId with
  | none => exact h
  | some a =>
    simp only
    split
    · exact h.retire hr _
    · exact h.retire hr _

theorem timer {cfg : GateConfig} {s s' : GateDevice Id} {a : Nat} (h : s.Consistent)
    (hstep : s.timer cfg a = some s') : s'.Consistent := by
  obtain ⟨att, hatt, hrun⟩ := Option.bind_eq_some_iff.mp hstep
  split at hrun
  · cases hrun
  rename_i hfires
  have harmed : att.timerArmed = true := by
    by_contra hoff
    simp [hoff] at hfires
  -- An armed timer belongs to the attempt stored under the id.
  have hown := (h.noHang a att hatt (h.armed a att hatt harmed)).1
  have hpending : (s.clearTimeout a).pendingRequests att.requestId = some a := hown
  simp only [hpending, Option.some.injEq] at hrun
  subst hrun
  exact h.retire hown _

/-- A failed publish callback changes its own attempt in three steps. -/
private theorem attempts_publishCallback (s : GateDevice Id) (a : Nat) (r : Id)
    (outcome : Settled) :
    (((({ s with attempts := s.attempts.modify a fun att => { att with callbackDue := false } } :
      GateDevice Id).clearTimeout a).deletePending r).settle a outcome).attempts =
    s.attempts.modify a fun att =>
      ({ att with callbackDue := false } : Attempt Id).clearTimeout.settle outcome := by
  simp only [settle, deletePending, GateDevice.clearTimeout, List.modify_modify_eq]
  rfl

/-- A publish callback that strands no retry. -/
theorem publishCallback {s s' : GateDevice Id} {a : Nat} {error : Bool} (h : s.Consistent)
    (hC : ¬ s.StrandsRetry (.publishCallback a error))
    (hstep : s.publishCallback a error = some s') : s'.Consistent := by
  obtain ⟨att, hatt, hrun⟩ := Option.bind_eq_some_iff.mp hstep
  split at hrun
  · cases hrun
  have hcalled : ({ s with
      attempts := s.attempts.modify a fun att => { att with callbackDue := false } } :
        GateDevice Id).Consistent :=
    h.modifyAttempt a fun _ _ => ⟨rfl, rfl, rfl, .inl rfl⟩
  cases error with
  | false =>
    simp only [Bool.false_eq_true, if_false, Option.some.injEq] at hrun
    exact hrun ▸ hcalled
  | true =>
    simp only [if_true, Option.some.injEq] at hrun
    subst hrun
    cases hr : s.pendingRequests att.requestId with
    | some b =>
      have hba : b = a := by
        by_contra hne
        exact hC ⟨a, att, b, rfl, hatt, hr, hne⟩
      subst hba
      exact hcalled.retire hr _
    | none =>
      -- The attempt is not stored, so it is settled and nothing changes.
      have hsettled : att.outcome ≠ none := fun hopen => by
        simp [(h.noHang a att hatt hopen).1] at hr
      refine (h.modifyAttempt a fun old hold => ?_).congr
        (Function.update_eq_self_iff.mpr hr.symm) (attempts_publishCallback s a _ _) rfl
      obtain rfl := Option.some.inj (hatt.symm.trans hold)
      obtain ⟨o, hout⟩ := Option.ne_none_iff_exists'.mp hsettled
      exact ⟨rfl, rfl, by simp [Attempt.settle, Attempt.clearTimeout, hout], .inr ⟨hsettled, rfl⟩⟩

/-! ## Calls -/

/-- Call `i` has no open attempt. -/
private def Free (s : GateDevice Id) (i : Nat) : Prop :=
  ∀ (a : Nat) (att : Attempt Id), s.attempts[a]? = some att → att.call = i → att.outcome ≠ none

omit [DecidableEq Id] in
/-- A call that is not waiting for an open attempt has none. -/
private theorem free_of_state {s : GateDevice Id} (h : s.Consistent) {i : Nat} {c : Call Id}
    (hc : s.calls[i]? = some c)
    (hstate : ∀ n a, c.state = .waiting n a → s.attempts[a]?.bind (·.outcome) ≠ none) :
    Free s i := by
  rintro a att hatt rfl hopen
  obtain ⟨c', hc', -, hwait⟩ := h.owner a att hatt
  obtain ⟨n, hn⟩ := hwait hopen
  obtain rfl := Option.some.inj (hc.symm.trans hc')
  exact hstate n a hn (by simp [hatt, hopen])

omit [DecidableEq Id] in
/-- A change of a call that keeps its id, when the call has no open attempt or keeps its
    state. -/
private theorem modifyCall {s : GateDevice Id} (h : s.Consistent) (i : Nat)
    {f : Call Id → Call Id} (hid : ∀ c, (f c).requestId = c.requestId)
    (hfree : Free s i ∨ ∀ c, (f c).state = c.state) :
    ({ s with calls := s.calls.modify i f } : GateDevice Id).Consistent where
  noHang := h.noHang
  stored := h.stored
  armed := h.armed
  owner a att hatt := by
    obtain ⟨c, hc, hcid, hwait⟩ := h.owner a att hatt
    by_cases hi : att.call = i
    · subst hi
      refine ⟨f c, by simp [hc], (hid c).trans hcid, fun hopen => ?_⟩
      rcases hfree with hfree | hstate
      · exact absurd hopen (hfree a att hatt rfl)
      · exact hstate c ▸ hwait hopen
    · exact ⟨c, by simp [Ne.symm hi, hc], hcid, hwait⟩
  distinct := by
    rw [map_modify_of_eq i hid]
    exact h.distinct

omit [DecidableEq Id] in
private theorem setCallState {s : GateDevice Id} (h : s.Consistent) {i : Nat} (hfree : Free s i)
    (state : CallState) : (s.setCallState i state).Consistent :=
  h.modifyCall i (fun _ => rfl) (.inl hfree)

omit [DecidableEq Id] in
private theorem setMetadata {s : GateDevice Id} (h : s.Consistent) (i : Nat)
    (metadata : McuCallMetadata) : (s.setMetadata i metadata).Consistent :=
  h.modifyCall i (fun _ => rfl) (.inr fun _ => rfl)

omit [DecidableEq Id] in
/-- A new attempt, which is stored if it is open. The open attempts of before stay stored, and
    the calls go with all of them. -/
private theorem concat {s s' : GateDevice Id} (h : s.Consistent) {att : Attempt Id}
    (hattempts : s'.attempts = s.attempts ++ [att])
    (hkept : ∀ (a : Nat) (old : Attempt Id), s.attempts[a]? = some old → old.outcome = none →
      s'.pendingRequests old.requestId = some a)
    (hnew : att.outcome = none → s'.pendingRequests att.requestId = some s.attempts.length)
    (hpending : ∀ r a, s'.pendingRequests r = some a → s.pendingRequests r = some a ∨
      r = att.requestId ∧ a = s.attempts.length ∧ att.outcome = none)
    (htimer : att.timerArmed = true ↔ att.outcome = none)
    (howner : ∀ (a : Nat) (b : Attempt Id), s'.attempts[a]? = some b →
      ∃ c, s'.calls[b.call]? = some c ∧ c.requestId = b.requestId ∧
        (b.outcome = none → ∃ n, c.state = .waiting n a))
    (hdistinct : (s'.calls.map (·.requestId)).Nodup) : s'.Consistent where
  noHang := by
    intro a b hb hopen
    rw [hattempts] at hb
    rcases getElem?_concat_cases hb with hb | ⟨rfl, rfl⟩
    · exact ⟨hkept a b hb hopen, (h.noHang a b hb hopen).2⟩
    · exact ⟨hnew hopen, htimer.mpr hopen⟩
  stored := by
    intro r a hr
    rw [hattempts]
    rcases hpending r a hr with hr | ⟨rfl, rfl, hopen⟩
    · obtain ⟨old, hold, hid, hopen⟩ := h.stored r a hr
      exact ⟨old, getElem?_concat_of_some hold, hid, hopen⟩
    · exact ⟨att, List.getElem?_concat_length, rfl, hopen⟩
  armed := by
    intro a b hb harmed
    rw [hattempts] at hb
    rcases getElem?_concat_cases hb with hb | ⟨-, rfl⟩
    · exact h.armed a b hb harmed
    · exact htimer.mp harmed
  owner := howner
  distinct := hdistinct

/-- A new attempt of call `i`, which has no open one and whose request id no other call
    has. The calls afterwards only differ in call `i`, which waits for the attempt. -/
private theorem publish {s : GateDevice Id} (h : s.Consistent) {i : Nat} {r : Id}
    {userId : String} {calls : List (Call Id)} (hfree : Free s i)
    (hown : ∀ (j : Nat) (c : Call Id), s.calls[j]? = some c → (c.requestId = r ↔ j = i))
    (hother : ∀ j, j ≠ i → calls[j]? = s.calls[j]?)
    (hcall : ∃ c n, calls[i]? = some c ∧ c.requestId = r ∧ c.state = .waiting n s.attempts.length)
    (hdistinct : (calls.map (·.requestId)).Nodup) :
    ({ (s.publishCommandAndWaitForAck i r userId).2 with calls := calls } :
      GateDevice Id).Consistent := by
  obtain ⟨c, n, hc, hcid, hwait⟩ := hcall
  -- The owners of the old attempts are still there.
  have howner : ∀ (a : Nat) (att : Attempt Id), s.attempts[a]? = some att →
      ∃ c, calls[att.call]? = some c ∧ c.requestId = att.requestId ∧
        (att.outcome = none → ∃ n, c.state = .waiting n a) := by
    intro a att hatt
    obtain ⟨c', hc', hcid', hwait'⟩ := h.owner a att hatt
    by_cases hi : att.call = i
    · refine ⟨c, hi ▸ hc, ?_, fun hopen => absurd hopen (hfree a att hatt hi)⟩
      rw [hcid, ← hcid', (hown att.call c' hc').mpr hi]
    · exact ⟨c', (hother _ hi).trans hc', hcid', hwait'⟩
  unfold publishCommandAndWaitForAck
  split
  · -- Not connected: the new attempt is rejected from the start.
    refine h.concat rfl (fun a old hold hopen => (h.noHang a old hold hopen).1) nofun
      (fun _ _ => .inl) (by simp) (fun a att hatt => ?_) hdistinct
    rcases getElem?_concat_cases hatt with hatt | ⟨-, rfl⟩
    · exact howner a att hatt
    · exact ⟨c, hc, hcid, nofun⟩
  · -- Open attempts stored under `r` would belong to call `i`.
    have hunused : ∀ (a : Nat) (att : Attempt Id), s.attempts[a]? = some att → att.outcome = none →
        att.requestId ≠ r := by
      rintro a att hatt hopen rfl
      obtain ⟨c', hc', hcid', -⟩ := h.owner a att hatt
      exact hfree a att hatt ((hown att.call c' hc').mp hcid') hopen
    refine h.concat rfl (fun a old hold hopen => ?_) (fun _ => Function.update_self ..)
      (fun r' a hr => ?_) (by simp) (fun a att hatt => ?_) hdistinct
    · exact (Function.update_of_ne (hunused a old hold hopen) ..).trans (h.noHang a old hold hopen).1
    · by_cases hr' : r' = r
      · subst hr'
        simp only [Function.update_self, Option.some.injEq] at hr
        exact .inr ⟨rfl, hr.symm, rfl⟩
      · simp only [Function.update_of_ne hr'] at hr
        exact .inl hr
    · rcases getElem?_concat_cases hatt with hatt | ⟨rfl, rfl⟩
      · exact howner a att hatt
      · exact ⟨c, hc, hcid, fun _ => ⟨n, hwait⟩⟩

private theorem startAttempt {s : GateDevice Id} (h : s.Consistent) {i : Nat} {c : Call Id}
    (hc : s.calls[i]? = some c) (hfree : Free s i) (n : Nat) :
    (s.startAttempt i c n).Consistent := by
  have heq : s.startAttempt i c n =
      { (s.publishCommandAndWaitForAck i c.requestId c.userId).2 with
        calls := s.calls.modify i fun c => { c with state := .waiting n s.attempts.length } } := by
    rw [startAttempt_eq, GateDevice.setCallState, publishCommandAndWaitForAck_calls]
  rw [heq]
  refine h.publish hfree (fun j c' hc' => ?_) (fun j hj => by simp [Ne.symm hj])
    ⟨{ c with state := .waiting n s.attempts.length }, n, by simp [hc], rfl, rfl⟩ ?_
  · refine ⟨fun hid => ?_, fun hj => ?_⟩
    · have hlt := (List.getElem?_eq_some_iff.mp hc').1
      exact (List.getElem?_inj (by simpa using hlt) h.distinct).mp (by simp [hc, hc', hid])
    · subst hj
      rw [Option.some.inj (hc'.symm.trans hc)]
  · have hids := map_modify_of_eq (l := s.calls) i
      (fun c => (rfl : ({ c with state := .waiting n s.attempts.length } : Call Id).requestId = _))
    exact hids ▸ h.distinct

omit [DecidableEq Id] in
private theorem distinct_append {s : GateDevice Id} (h : s.Consistent) {c : Call Id}
    (hfresh : c.requestId ∉ s.calls.map (·.requestId)) :
    ((s.calls ++ [c]).map (·.requestId)).Nodup := by
  simp only [List.map_append, List.map_cons, List.map_nil]
  refine List.nodup_append.mpr ⟨h.distinct, by simp, ?_⟩
  rintro r hr _ hc rfl
  exact hfresh (List.mem_singleton.mp hc ▸ hr)

omit [DecidableEq Id] in
/-- A further call that has made no attempt yet. -/
private theorem addCall {s : GateDevice Id} (h : s.Consistent) {c : Call Id}
    (hfresh : c.requestId ∉ s.calls.map (·.requestId)) :
    (s.addCall c).Consistent where
  noHang := h.noHang
  stored := h.stored
  armed := h.armed
  owner a att hatt := by
    obtain ⟨c', hc', hid, hwait⟩ := h.owner a att hatt
    have hlt := (List.getElem?_eq_some_iff.mp hc').1
    exact ⟨c', (List.getElem?_append_left hlt).trans hc', hid, hwait⟩
  distinct := h.distinct_append hfresh

theorem openGate {s : GateDevice Id} (h : s.Consistent) {r : Id} (userId : String)
    (created : Bool) (hfresh : r ∉ s.calls.map (·.requestId)) :
    (s.openGate r userId created).Consistent := by
  have hlt : ∀ (a : Nat) (att : Attempt Id), s.attempts[a]? = some att →
      att.call < s.calls.length := by
    intro a att hatt
    obtain ⟨c, hc, -⟩ := h.owner a att hatt
    exact (List.getElem?_eq_some_iff.mp hc).1
  rcases s.openGate_cases r userId created with ⟨promise, heq⟩ | heq <;> rw [heq]
  · -- The call waits for the connection.
    obtain ⟨hpending, hattempts, hcalls, -⟩ := s.connect_frame created
    exact (h.congr hpending hattempts hcalls).addCall (by rw [hcalls]; exact hfresh)
  · rw [GateDevice.addCall, publishCommandAndWaitForAck_calls]
    refine h.publish (fun a att hatt hi => absurd hi (hlt a att hatt).ne) (fun j c hc => ?_)
      (fun j hj => ?_) ⟨_, 0, List.getElem?_concat_length, rfl, rfl⟩ ?_
    · have hj := (List.getElem?_eq_some_iff.mp hc).1
      refine iff_of_false (fun hid => hfresh ?_) hj.ne
      exact List.mem_map.mpr ⟨c, List.mem_of_getElem? hc, hid⟩
    · rcases Nat.lt_or_gt_of_ne hj with hj | hj
      · exact List.getElem?_append_left hj
      · rw [List.getElem?_eq_none (by simp; omega), List.getElem?_eq_none (by omega)]
    · exact h.distinct_append hfresh

theorem resumed {s s' : GateDevice Id} {i : Nat} {c : Call Id} (h : s.Consistent)
    (hc : s.calls[i]? = some c) (hstep : Resumed s i c s') : s'.Consistent := by
  cases hstep with
  | attempt n hstate =>
    exact h.startAttempt hc (h.free_of_state hc fun n a hw => absurd hw (hstate n a)) n
  | next t state ht hsettled =>
    have hfree := h.free_of_state hc hsettled
    rcases ht with rfl | ⟨metadata, rfl⟩
    · exact h.setCallState hfree state
    · exact (h.setMetadata i metadata).setCallState hfree state

/-- Every event keeps the invariant, except a publish error that strands a retry. -/
theorem step {cfg : GateConfig} {s s' : GateDevice Id} {e : GateEvent Id} (h : s.Consistent)
    (hfresh : s.Fresh e) (hC : ¬ s.StrandsRetry e) (hstep : step cfg s e = some s') :
    s'.Consistent := by
  cases step_cases hstep with
  | openGate r userId created => exact h.openGate userId created (hfresh r userId created rfl)
  | resume hc hresumed => exact h.resumed hc hresumed
  | ack message => exact h.handleAckMessage message
  | publishCallback hcallback => exact h.publishCallback hC hcallback
  | timer htimer => exact h.timer htimer
  | disconnect => exact h.disconnect
  | idle _ hpending hattempts hcalls => exact h.congr hpending hattempts hcalls

/-- A publish error that strands a retry leaves an open attempt outside the map. -/
theorem strands {cfg : GateConfig} {s s' : GateDevice Id} {e : GateEvent Id} (h : s.Consistent)
    (hbad : s.StrandsRetry e) (hstep : GateDevice.step cfg s e = some s') : ¬ s'.NoHang := by
  obtain ⟨a, att, b, rfl, hatt, hr, hba⟩ := hbad
  obtain ⟨old, hold, hid, hopen⟩ := h.stored att.requestId b hr
  simp only [GateDevice.step, GateDevice.publishCallback, hatt, Option.bind_some] at hstep
  split at hstep
  · cases hstep
  simp only [if_true, Option.some.injEq] at hstep
  subst hstep
  intro hnohang
  have hget : (((({ s with
      attempts := s.attempts.modify a fun att => { att with callbackDue := false } } :
        GateDevice Id).clearTimeout a).deletePending att.requestId).settle a
        (.rejected (.badGateway "שגיאה בשליחת פקודה להשער"))).attempts[b]? = some old := by
    rw [attempts_publishCallback, List.getElem?_modify_ne _ _ (Ne.symm hba)]
    exact hold
  have hstored := (hnohang b old hget hopen).1
  simp [settle, deletePending, hid] at hstored

end Consistent

/-! ## Runs -/

variable [DecidableEq Id]

/-- Calls with distinct request ids are fresh when they are made. -/
theorem allSteps_fresh {cfg : GateConfig} {s : GateDevice Id} {es : List (GateEvent Id)}
    (h : (s.calls.map (·.requestId) ++ openedIds es).Nodup) :
    Trace.AllSteps (step cfg) Fresh s es := by
  induction es generalizing s with
  | nil => trivial
  | cons e es ih =>
    intro s' hstep
    have hsplit : openedIds (e :: es) = openedIds [e] ++ openedIds es := by
      simp only [openedIds, ← List.filterMap_append, List.singleton_append]
    rw [hsplit] at h
    refine ⟨?_, ih ?_⟩
    · rintro r userId created rfl hmem
      have hdisjoint := (List.nodup_append.mp h).2.2 r hmem r (by simp [openedIds])
      exact hdisjoint rfl
    · rw [step_callIds hstep, List.append_assoc]
      exact h

/-- With distinct request ids, no attempt ever hangs exactly when no publish error strands
    a retry. -/
theorem noHang_iff (cfg : GateConfig) (es : List (GateEvent Id)) (h : (openedIds es).Nodup) :
    Trace.AllStates (step cfg) NoHang init es ↔
      Trace.AllSteps (step cfg) (fun s e => ¬ s.StrandsRetry e) init es :=
  Trace.allStates_iff_allSteps_of (J := Consistent) (fun _ h => h.noHang)
    (fun _ _ _ h hfresh hC hstep => h.step hfresh hC hstep)
    (fun _ _ _ h _ hbad hstep => h.strands (not_not.mp hbad) hstep)
    init_consistent (allSteps_fresh (by simpa [init] using h))

/-- The default settings. -/
def defaultConfig : GateConfig := ⟨5000, 1, 250⟩

/-- The device refuses the first command, and the broker's publish error for that command
    arrives after the retry was sent. -/
def lateErrorRun : List (GateEvent String) :=
  [.openGate "11111111-1111-4111-8111-111111111111" "64b0c2f1a1b2c3d4e5f60718" true,
    .mqttConnect, .subscribed 0 true, .resume 0,
    .ack ⟨"11111111-1111-4111-8111-111111111111", false, some "COOLDOWN"⟩, .resume 0,
    .tick 250, .resume 0, .publishCallback 0 true, .tick 5000, .timer 1]

theorem noHang_iff_lateErrorRun :
    Trace.AllStates (step defaultConfig) NoHang init lateErrorRun ↔
      Trace.AllSteps (step defaultConfig) (fun s e => ¬ s.StrandsRetry e) init lateErrorRun :=
  noHang_iff defaultConfig lateErrorRun (by decide)

/-- At the end the retry is open, it is not stored, and its timer has fired. -/
theorem lateErrorRun_hangs :
    (openedIds lateErrorRun).Nodup ∧
      ¬ Trace.AllStates (step defaultConfig) NoHang init lateErrorRun := by
  refine ⟨by decide, fun h => ?_⟩
  have hrun : (Trace.exec (step defaultConfig) init lateErrorRun).map (fun s =>
      (s.attempts.map fun att => (att.outcome, att.timerArmed))) =
      some [(some (.rejected (.badGateway "MCU error: COOLDOWN")), false), (none, false)] := by
    decide
  obtain ⟨s, hs, hattempts⟩ := Option.map_eq_some_iff.mp hrun
  have hget := congrArg (·[1]?) hattempts
  simp only [List.getElem?_map, List.getElem?_cons_succ, List.getElem?_cons_zero,
    Option.map_eq_some_iff, Prod.mk.injEq] at hget
  obtain ⟨att, hatt, hopen, hoff⟩ := hget
  have harmed := ((h.last hs) 1 att hatt hopen).2
  simp [hoff] at harmed

end GateDevice

end Backend
