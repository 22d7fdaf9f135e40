-- SUMMARY: A call of `openGate` resolves only through an ACK with `ok: true` for its own request id.
import ParkingGate.Backend.MqttGateDevice

/-!
# Where a success comes from

`P` is any property of request ids that holds of the ids of all ACKs with `ok: true`
received so far. Then it holds of the id of every resolved attempt and of every call that
returned `ok: true`, whatever the order of events and however often an id was retried.

`Succeeds` says the same of the calls themselves, which may share an id: `P` is a property
of a key of the call, and an attempt has the key of the call that made it.
-/

namespace Backend

namespace GateDevice

variable {Id : Type*} {κ : Type*}

/-- The attempt that an ACK for `requestId` settles. -/
def pendingAttempt (s : GateDevice Id) (requestId : Id) : Option (Attempt Id) :=
  (s.pendingRequests requestId).bind fun a => s.attempts[a]?

/-- Only calls with `P` have succeeded, where call `i` under the id `r` is told by `key i r`. -/
structure Succeeds (key : Nat → Id → κ) (P : κ → Prop) (s : GateDevice Id) : Prop where
  resolved : ∀ (a : Nat) (att : Attempt Id), s.attempts[a]? = some att →
    att.outcome = some .resolved → P (key att.call att.requestId)
  stored : ∀ r a, s.pendingRequests r = some a →
    ∃ att : Attempt Id, s.attempts[a]? = some att ∧ att.requestId = r
  waiting : ∀ (i : Nat) (c : Call Id) (n a : Nat), s.calls[i]? = some c →
    c.state = .waiting n a → ∃ att : Attempt Id, s.attempts[a]? = some att ∧
      key att.call att.requestId = key i c.requestId
  done : ∀ (i : Nat) (c : Call Id), s.calls[i]? = some c → c.state = .done (.ok ()) →
    P (key i c.requestId)

/-- Only ids with `P` have succeeded. -/
def SucceedsOnly (P : Id → Prop) (s : GateDevice Id) : Prop := s.Succeeds (fun _ r => r) P

/-- Calls, and so commands, are only made for ids with `Q`. -/
structure IdsIn (Q : Id → Prop) (s : GateDevice Id) : Prop where
  calls : ∀ c ∈ s.calls, Q c.requestId
  published : ∀ cmd ∈ s.published, Q cmd.requestId

namespace Succeeds

variable {key : Nat → Id → κ} {P P' : κ → Prop} {s : GateDevice Id}

theorem init : Succeeds key P (GateDevice.init : GateDevice Id) where
  resolved _ _ h := by simp [GateDevice.init] at h
  stored _ _ h := by simp [GateDevice.init] at h
  waiting _ _ _ _ h := by simp [GateDevice.init] at h
  done _ _ h := by simp [GateDevice.init] at h

/-- The property may change, as long as what has succeeded keeps it. -/
theorem mono (h : s.Succeeds key P)
    (hatt : ∀ att ∈ s.attempts, P (key att.call att.requestId) → P' (key att.call att.requestId))
    (hcall : ∀ (i : Nat) (c : Call Id), s.calls[i]? = some c → P (key i c.requestId) →
      P' (key i c.requestId)) : s.Succeeds key P' where
  resolved a att ha hres := hatt att (List.mem_of_getElem? ha) (h.resolved a att ha hres)
  stored := h.stored
  waiting := h.waiting
  done i c hc hdone := hcall i c hc (h.done i c hc hdone)

theorem imp (h : s.Succeeds key P) (hP : ∀ k, P k → P' k) : s.Succeeds key P' :=
  h.mono (fun _ _ => hP _) fun _ _ _ => hP _

theorem congr {s' : GateDevice Id} (h : s.Succeeds key P)
    (hp : s'.pendingRequests = s.pendingRequests) (ha : s'.attempts = s.attempts)
    (hc : s'.calls = s.calls) : s'.Succeeds key P where
  resolved := by rw [ha]; exact h.resolved
  stored := by rw [hp, ha]; exact h.stored
  waiting := by rw [ha, hc]; exact h.waiting
  done := by rw [hc]; exact h.done

/-- Attempts may change in anything but their call and id, and resolve only for a call with
    `P`. -/
private theorem changeAttempts {attempts : List (Attempt Id)} (h : s.Succeeds key P)
    (hold : ∀ (a : Nat) (att : Attempt Id), attempts[a]? = some att → ∃ old : Attempt Id,
      s.attempts[a]? = some old ∧ att.call = old.call ∧ att.requestId = old.requestId ∧
        (att.outcome = some .resolved →
          old.outcome = some .resolved ∨ P (key old.call old.requestId)))
    (hnew : ∀ (a : Nat) (old : Attempt Id), s.attempts[a]? = some old →
      ∃ att : Attempt Id, attempts[a]? = some att ∧ att.call = old.call ∧
        att.requestId = old.requestId) :
    ({ s with attempts := attempts } : GateDevice Id).Succeeds key P where
  resolved a att hatt hres := by
    obtain ⟨old, ha, hcall, hid, hcase⟩ := hold a att hatt
    rw [hcall, hid]
    exact (hcase hres).elim (h.resolved a old ha) fun hP => hP
  stored r a hr := by
    obtain ⟨old, ha, hid⟩ := h.stored r a hr
    obtain ⟨att, hatt, -, hid'⟩ := hnew a old ha
    exact ⟨att, hatt, hid'.trans hid⟩
  waiting i c n a hc hwait := by
    obtain ⟨old, ha, hkey⟩ := h.waiting i c n a hc hwait
    obtain ⟨att, hatt, hcall, hid⟩ := hnew a old ha
    exact ⟨att, hatt, by rw [hcall, hid, hkey]⟩
  done := h.done

private theorem modifyAttempt {f : Attempt Id → Attempt Id} (h : s.Succeeds key P) (a : Nat)
    (hcall : ∀ att, (f att).call = att.call) (hid : ∀ att, (f att).requestId = att.requestId)
    (hres : ∀ att, s.attempts[a]? = some att → (f att).outcome = some .resolved →
      att.outcome = some .resolved ∨ P (key att.call att.requestId)) :
    ({ s with attempts := s.attempts.modify a f } : GateDevice Id).Succeeds key P := by
  refine h.changeAttempts (fun b att hatt => ?_) (fun b old hold => ?_)
  · obtain ⟨old, hold, rfl⟩ := getElem?_modify_cases hatt
    by_cases hab : a = b
    · subst hab
      simp only [if_true]
      exact ⟨old, hold, hcall old, hid old, hres old hold⟩
    · simp only [if_neg hab]
      exact ⟨old, hold, rfl, rfl, .inl⟩
  · by_cases hab : a = b
    · subst hab
      exact ⟨f old, by simp [hold], hcall old, hid old⟩
    · exact ⟨old, by simp [hab, hold], rfl, rfl⟩

/-- Rejecting a promise, or resolving one whose call has `P`. -/
private theorem settle (h : s.Succeeds key P) (a : Nat) {outcome : Settled}
    (houtcome : ∀ att : Attempt Id, s.attempts[a]? = some att → outcome = .resolved →
      P (key att.call att.requestId)) :
    (s.settle a outcome).Succeeds key P := by
  refine h.modifyAttempt a (fun _ => rfl) (fun _ => rfl) fun att hatt hres => ?_
  cases hout : att.outcome with
  | none => exact .inr (houtcome att hatt (by simpa [Attempt.settle, hout] using hres))
  | some o => exact .inl (by simpa [Attempt.settle, hout] using hres)

private theorem clearTimeout (h : s.Succeeds key P) (a : Nat) :
    (s.clearTimeout a).Succeeds key P :=
  h.modifyAttempt a (fun _ => rfl) (fun _ => rfl) fun _ _ hres => .inl hres

private theorem deletePending [DecidableEq Id] (h : s.Succeeds key P) (r : Id) :
    (s.deletePending r).Succeeds key P where
  resolved := h.resolved
  stored r' a hr := by
    by_cases hne : r' = r
    · subst hne
      simp [GateDevice.deletePending] at hr
    · exact h.stored r' a ((Function.update_of_ne hne _ _).symm.trans hr)
  waiting := h.waiting
  done := h.done

/-- A call moves on; it waits only for an attempt of its own key. -/
private theorem modifyCall {f : Call Id → Call Id} (h : s.Succeeds key P) (i : Nat)
    (hid : ∀ c, (f c).requestId = c.requestId)
    (hwait : ∀ (c : Call Id) (n a : Nat), s.calls[i]? = some c → (f c).state = .waiting n a →
      ∃ att : Attempt Id, s.attempts[a]? = some att ∧
        key att.call att.requestId = key i c.requestId)
    (hdone : ∀ c, s.calls[i]? = some c → (f c).state = .done (.ok ()) →
      P (key i c.requestId)) :
    ({ s with calls := s.calls.modify i f } : GateDevice Id).Succeeds key P where
  resolved := h.resolved
  stored := h.stored
  waiting j c n a hc hstate := by
    obtain ⟨old, hold, rfl⟩ := getElem?_modify_cases hc
    by_cases hij : i = j
    · subst hij
      simp only [if_true] at hstate ⊢
      rw [hid]
      exact hwait old n a hold hstate
    · simp only [if_neg hij] at hstate ⊢
      exact h.waiting j old n a hold hstate
  done j c hc hstate := by
    obtain ⟨old, hold, rfl⟩ := getElem?_modify_cases hc
    by_cases hij : i = j
    · subst hij
      simp only [if_true] at hstate ⊢
      rw [hid]
      exact hdone old hold hstate
    · simp only [if_neg hij] at hstate ⊢
      exact h.done j old hold hstate

private theorem setMetadata (h : s.Succeeds key P) (i : Nat) (metadata : McuCallMetadata) :
    (s.setMetadata i metadata).Succeeds key P :=
  h.modifyCall i (fun _ => rfl) (fun c n a hc hstate => h.waiting i c n a hc hstate)
    fun c hc hstate => h.done i c hc hstate

/-- A call sleeps, fails, or returns with `P`. -/
private theorem setCallState (h : s.Succeeds key P) {i : Nat} {c : Call Id} {state : CallState}
    (hc : s.calls[i]? = some c) (hwait : ∀ n a, state ≠ .waiting n a)
    (hdone : state = .done (.ok ()) → P (key i c.requestId)) :
    (s.setCallState i state).Succeeds key P := by
  refine h.modifyCall i (fun _ => rfl) (fun _ n a _ hstate => absurd hstate (hwait n a))
    fun c' hc' hstate => ?_
  rw [Option.some.inj (hc'.symm.trans hc)]
  exact hdone hstate

variable [DecidableEq Id]

/-- A new attempt exists for its call under its id and has not resolved. -/
private theorem publish (h : s.Succeeds key P) (i : Nat) (r : Id) (userId : String) :
    (s.publishCommandAndWaitForAck i r userId).2.Succeeds key P ∧
    ∃ att : Attempt Id, (s.publishCommandAndWaitForAck i r userId).2.attempts[s.attempts.length]? =
      some att ∧ att.call = i ∧ att.requestId = r := by
  have hresolved : ∀ {new : Attempt Id}, new.outcome ≠ some .resolved → ∀ (a : Nat)
      (att : Attempt Id), (s.attempts ++ [new])[a]? = some att → att.outcome = some .resolved →
      P (key att.call att.requestId) := by
    intro new hnew a att hatt hres
    rcases getElem?_concat_cases hatt with hatt | ⟨-, rfl⟩
    · exact h.resolved a att hatt hres
    · exact absurd hres hnew
  have hwaiting : ∀ {new : Attempt Id} (j : Nat) (c : Call Id) (n a : Nat),
      s.calls[j]? = some c → c.state = .waiting n a →
      ∃ att : Attempt Id, (s.attempts ++ [new])[a]? = some att ∧
        key att.call att.requestId = key j c.requestId := by
    intro new j c n a hc hstate
    obtain ⟨att, hatt, hkey⟩ := h.waiting j c n a hc hstate
    exact ⟨att, getElem?_concat_of_some hatt, hkey⟩
  unfold publishCommandAndWaitForAck
  split
  · refine ⟨⟨hresolved (by simp), fun r' a hr => ?_, hwaiting, h.done⟩,
      _, List.getElem?_concat_length, rfl, rfl⟩
    obtain ⟨att, hatt, hid⟩ := h.stored r' a hr
    exact ⟨att, getElem?_concat_of_some hatt, hid⟩
  · refine ⟨⟨hresolved (by simp), fun r' a hr => ?_, hwaiting, h.done⟩,
      _, List.getElem?_concat_length, rfl, rfl⟩
    by_cases hr' : r' = r
    · subst hr'
      simp only [Function.update_self, Option.some.injEq] at hr
      subst hr
      exact ⟨_, List.getElem?_concat_length, rfl⟩
    · simp only [Function.update_of_ne hr'] at hr
      obtain ⟨att, hatt, hid⟩ := h.stored r' a hr
      exact ⟨att, getElem?_concat_of_some hatt, hid⟩

private theorem startAttempt (h : s.Succeeds key P) {i : Nat} {c : Call Id}
    (hc : s.calls[i]? = some c) (n : Nat) : (s.startAttempt i c n).Succeeds key P := by
  obtain ⟨hpublish, att, hatt, hcall, hid⟩ := h.publish i c.requestId c.userId
  have hcalls := publishCommandAndWaitForAck_calls s i c.requestId c.userId
  rw [startAttempt_eq]
  refine hpublish.modifyCall i (fun _ => rfl) (fun c' n' a hc' hstate => ?_)
    fun c' hc' hstate => by cases hstate
  obtain rfl : c' = c := Option.some.inj (hc'.symm.trans (hcalls ▸ hc))
  simp only [CallState.waiting.injEq] at hstate
  exact ⟨att, hstate.2 ▸ hatt, by rw [hcall, hid]⟩

omit [DecidableEq Id] in
/-- A new call that waits for nothing, or for an attempt of its own key. -/
private theorem addCall (h : s.Succeeds key P) {c : Call Id}
    (hwait : ∀ n a, c.state = .waiting n a → ∃ att : Attempt Id, s.attempts[a]? = some att ∧
      key att.call att.requestId = key s.calls.length c.requestId)
    (hdone : c.state ≠ .done (.ok ())) :
    (s.addCall c).Succeeds key P := by
  refine ⟨h.resolved, h.stored, fun i c' n a hc' hstate => ?_, fun i c' hc' hstate => ?_⟩
  · rcases getElem?_concat_cases hc' with hc' | ⟨rfl, rfl⟩
    · exact h.waiting i c' n a hc' hstate
    · exact hwait n a hstate
  · rcases getElem?_concat_cases hc' with hc' | ⟨-, rfl⟩
    · exact h.done i c' hc' hstate
    · exact absurd hstate hdone

private theorem openGate (h : s.Succeeds key P) (r : Id) (userId : String) (created : Bool) :
    (s.openGate r userId created).Succeeds key P := by
  rcases s.openGate_cases r userId created with ⟨promise, heq⟩ | heq <;> rw [heq]
  · obtain ⟨hpending, hattempts, hcalls, -⟩ := s.connect_frame created
    exact (h.congr hpending hattempts hcalls).addCall (fun n a hstate => by cases hstate) (by simp)
  · obtain ⟨hpublish, att, hatt, hcall, hid⟩ := h.publish s.calls.length r userId
    refine hpublish.addCall (fun n a hstate => ?_) (by simp)
    simp only [CallState.waiting.injEq] at hstate
    refine ⟨att, hstate.2 ▸ hatt, ?_⟩
    rw [publishCommandAndWaitForAck_calls, hcall, hid]

private theorem resumed {s' : GateDevice Id} {i : Nat} {c : Call Id} (h : s.Succeeds key P)
    (hc : s.calls[i]? = some c) (hstep : Resumed s i c s') : s'.Succeeds key P := by
  cases hstep with
  | attempt n => exact h.startAttempt hc n
  | next t state ht _ hstate hdone =>
    -- The attempt a successful call waited for has resolved, and it has the call's key.
    have hP : state = .done (.ok ()) → P (key i c.requestId) := by
      intro hok
      obtain ⟨n, a, hwait, hres⟩ := hdone hok
      obtain ⟨att, hatt, hkey⟩ := h.waiting i c n a hc hwait
      exact hkey ▸ h.resolved a att hatt (by simpa [hatt] using hres)
    rcases ht with rfl | ⟨metadata, rfl⟩
    · exact h.setCallState hc hstate hP
    · have hmeta : (s.setMetadata i metadata).calls[i]? = some { c with metadata } := by
        simp [GateDevice.setMetadata, hc]
      exact (h.setMetadata i metadata).setCallState hmeta hstate hP

/-- An ACK resolves the attempt stored under its id, whichever call made it. -/
theorem handleAckMessage (h : s.Succeeds key P) (ack : Ack Id)
    (hP : ack.ok = true → ∀ att, s.pendingAttempt ack.requestId = some att →
      P (key att.call ack.requestId)) :
    (s.handleAckMessage ack).Succeeds key P := by
  unfold GateDevice.handleAckMessage
  cases hr : s.pendingRequests ack.requestId with
  | none => exact h
  | some a =>
    obtain ⟨own, hown, hid⟩ := h.stored ack.requestId a hr
    have hremoved := (h.clearTimeout a).deletePending ack.requestId
    simp only
    split
    · rename_i hok
      refine hremoved.settle a fun att hatt _ => ?_
      have hcleared : att = own.clearTimeout := by
        obtain ⟨old, hold, rfl⟩ := getElem?_modify_cases (l := s.attempts) hatt
        obtain rfl := Option.some.inj (hold.symm.trans hown)
        exact if_pos rfl
      have hpending : s.pendingAttempt ack.requestId = some own := by
        simp [pendingAttempt, hr, hown]
      subst hcleared
      exact hid ▸ hP hok own hpending
    · exact hremoved.settle a fun _ _ hres => by cases hres

private theorem publishCallback {s' : GateDevice Id} {a : Nat} {error : Bool}
    (h : s.Succeeds key P) (hstep : s.publishCallback a error = some s') : s'.Succeeds key P := by
  obtain ⟨att, -, hrun⟩ := Option.bind_eq_some_iff.mp hstep
  have hcalled := h.modifyAttempt a (f := fun att => { att with callbackDue := false })
    (fun _ => rfl) (fun _ => rfl) fun _ _ hres => .inl hres
  split at hrun
  · cases hrun
  · split at hrun
    · exact Option.some.inj hrun ▸ ((hcalled.clearTimeout a).deletePending att.requestId).settle a
        fun _ _ hres => by cases hres
    · exact Option.some.inj hrun ▸ hcalled

private theorem timer {cfg : GateConfig} {s' : GateDevice Id} {a : Nat} (h : s.Succeeds key P)
    (hstep : s.timer cfg a = some s') : s'.Succeeds key P := by
  obtain ⟨att, -, hrun⟩ := Option.bind_eq_some_iff.mp hstep
  split at hrun
  · cases hrun
  · simp only at hrun
    split at hrun
    · exact Option.some.inj hrun ▸ h.clearTimeout a
    · exact Option.some.inj hrun ▸ ((h.clearTimeout a).deletePending att.requestId).settle _
        fun _ _ hres => by cases hres

omit [DecidableEq Id] in
private theorem disconnect (h : s.Succeeds key P) : s.disconnect.Succeeds key P := by
  have hattempts : ({ s with attempts := s.disconnect.attempts } : GateDevice Id).Succeeds key P := by
    refine h.changeAttempts (fun a att hatt => ?_) (fun a old hold => ?_)
    · simp only [GateDevice.disconnect, List.getElem?_mapIdx, Option.map_eq_some_iff] at hatt
      obtain ⟨old, hold, rfl⟩ := hatt
      refine ⟨old, hold, by split <;> rfl, by split <;> rfl, fun hres => .inl ?_⟩
      split at hres
      · cases hout : old.outcome with
        | none => simp [Attempt.settle, Attempt.clearTimeout, hout] at hres
        | some o => simpa [Attempt.settle, Attempt.clearTimeout, hout] using hres
      · exact hres
    · refine ⟨_, by simp only [GateDevice.disconnect, List.getElem?_mapIdx, hold]; rfl, ?_, ?_⟩
      · simp only
        split <;> rfl
      · simp only
        split <;> rfl
  exact ⟨hattempts.resolved, fun r a hr => by simp [GateDevice.disconnect] at hr,
    hattempts.waiting, hattempts.done⟩

/-- Every event other than an ACK keeps the set of successful calls. -/
theorem step {cfg : GateConfig} {s' : GateDevice Id} {e : GateEvent Id} (h : s.Succeeds key P)
    (hack : ∀ ack : Ack Id, e = .ack ack → ack.ok = true →
      ∀ att, s.pendingAttempt ack.requestId = some att → P (key att.call ack.requestId))
    (hstep : step cfg s e = some s') : s'.Succeeds key P := by
  cases step_cases hstep with
  | openGate r userId created => exact h.openGate r userId created
  | resume hc hresumed => exact h.resumed hc hresumed
  | ack message => exact h.handleAckMessage message (hack message rfl)
  | publishCallback hcallback => exact h.publishCallback hcallback
  | timer htimer => exact h.timer htimer
  | disconnect => exact h.disconnect
  | idle _ hpending hattempts hcalls => exact h.congr hpending hattempts hcalls

end Succeeds

namespace IdsIn

variable {Q : Id → Prop}

theorem init : IdsIn Q (GateDevice.init : GateDevice Id) where
  calls := by simp [GateDevice.init]
  published := by simp [GateDevice.init]

theorem step [DecidableEq Id] {cfg : GateConfig} {s s' : GateDevice Id} {e : GateEvent Id} (h : s.IdsIn Q)
    (hopen : ∀ r ∈ openedIds [e], Q r) (hstep : step cfg s e = some s') : s'.IdsIn Q := by
  have hcalls : ∀ r ∈ s'.calls.map (·.requestId), Q r := by
    rw [step_callIds hstep]
    intro r hr
    rcases List.mem_append.mp hr with hr | hr
    · obtain ⟨c, hc, rfl⟩ := List.mem_map.mp hr
      exact h.calls c hc
    · exact hopen r hr
  refine ⟨fun c hc => hcalls _ (List.mem_map.mpr ⟨c, hc, rfl⟩), fun cmd hcmd => ?_⟩
  rcases step_published hstep cmd hcmd with hold | hid
  · exact h.published cmd hold
  · exact hcalls _ hid

end IdsIn

/-! ## Whose attempt it is -/

section Owned

variable [DecidableEq Id] {cfg : GateConfig} {s s' : GateDevice Id}

theorem publish_attemptCalls (s : GateDevice Id) (i : Nat) (r : Id) (userId : String) :
    (s.publishCommandAndWaitForAck i r userId).2.attempts.map (·.call) =
      s.attempts.map (·.call) ++ [i] := by
  unfold publishCommandAndWaitForAck
  split <;> simp

omit [DecidableEq Id] in
private theorem settle_attemptCalls (s : GateDevice Id) (a : Nat) (outcome : Settled) :
    (s.settle a outcome).attempts.map (·.call) = s.attempts.map (·.call) :=
  map_modify_of_eq a fun _ => rfl

omit [DecidableEq Id] in
private theorem clearTimeout_attemptCalls (s : GateDevice Id) (a : Nat) :
    (s.clearTimeout a).attempts.map (·.call) = s.attempts.map (·.call) :=
  map_modify_of_eq a fun _ => rfl

/-- Taking an attempt out of the map and settling another, or the same one. -/
private theorem retire_attemptCalls (s : GateDevice Id) (a b : Nat) (r : Id) (outcome : Settled) :
    (((s.clearTimeout a).deletePending r).settle b outcome).attempts.map (·.call) =
      s.attempts.map (·.call) :=
  (settle_attemptCalls _ b outcome).trans (clearTimeout_attemptCalls s a)

theorem handleAckMessage_attemptCalls (s : GateDevice Id) (ack : Ack Id) :
    (s.handleAckMessage ack).attempts.map (·.call) = s.attempts.map (·.call) := by
  unfold handleAckMessage
  split
  · rfl
  · simp only
    split <;> exact retire_attemptCalls s _ _ _ _

theorem publishCallback_attemptCalls {a : Nat} {error : Bool}
    (h : s.publishCallback a error = some s') :
    s'.attempts.map (·.call) = s.attempts.map (·.call) := by
  obtain ⟨att, -, hrun⟩ := Option.bind_eq_some_iff.mp h
  have hcalled : (s.attempts.modify a fun att => { att with callbackDue := false }).map
      (·.call) = s.attempts.map (·.call) := map_modify_of_eq a fun _ => rfl
  split at hrun
  · cases hrun
  · split at hrun
    · exact Option.some.inj hrun ▸ (retire_attemptCalls _ a a _ _).trans hcalled
    · exact Option.some.inj hrun ▸ hcalled

theorem timer_attemptCalls {a : Nat} (h : s.timer cfg a = some s') :
    s'.attempts.map (·.call) = s.attempts.map (·.call) := by
  obtain ⟨att, -, hrun⟩ := Option.bind_eq_some_iff.mp h
  split at hrun
  · cases hrun
  · simp only at hrun
    split at hrun
    · exact Option.some.inj hrun ▸ clearTimeout_attemptCalls s a
    · exact Option.some.inj hrun ▸ retire_attemptCalls s a _ _ _

omit [DecidableEq Id] in
theorem disconnect_attemptCalls (s : GateDevice Id) :
    s.disconnect.attempts.map (·.call) = s.attempts.map (·.call) := by
  refine List.ext_getElem? fun j => ?_
  simp only [disconnect, List.getElem?_map, List.getElem?_mapIdx]
  cases s.attempts[j]? with
  | none => rfl
  | some att =>
    simp only [Option.map_some]
    split <;> rfl

/-- An event makes at most one attempt, for a call that is there afterwards. -/
theorem step_attemptCalls {e : GateEvent Id} (hstep : step cfg s e = some s') :
    s'.attempts.map (·.call) = s.attempts.map (·.call) ∨
      ∃ i < s'.calls.length, s'.attempts.map (·.call) = s.attempts.map (·.call) ++ [i] := by
  cases step_cases hstep with
  | openGate r userId created =>
    rcases s.openGate_cases r userId created with ⟨promise, heq⟩ | heq <;> rw [heq]
    · exact .inl (congrArg (·.map (·.call)) (s.connect_frame created).2.1)
    · exact .inr ⟨s.calls.length, by simp [addCall], publish_attemptCalls s _ r userId⟩
  | @resume i c _ hc h =>
    cases h with
    | attempt n =>
      have hi := (List.getElem?_eq_some_iff.mp hc).1
      refine .inr ⟨i, ?_, publish_attemptCalls s i c.requestId c.userId⟩
      simpa [startAttempt_eq, setCallState] using hi
    | next t state ht =>
      rcases ht with rfl | ⟨metadata, rfl⟩ <;> exact .inl rfl
  | ack message => exact .inl (handleAckMessage_attemptCalls s message)
  | publishCallback h => exact .inl (publishCallback_attemptCalls h)
  | timer h => exact .inl (timer_attemptCalls h)
  | disconnect => exact .inl (disconnect_attemptCalls s)
  | idle _ _ hattempts => exact .inl (congrArg (·.map (·.call)) hattempts)

theorem step_length_calls {e : GateEvent Id} (hstep : step cfg s e = some s') :
    s'.calls.length = s.calls.length + (openedIds [e]).length := by
  simpa using congrArg List.length (step_callIds hstep)

/-- Every attempt was made by one of the calls. -/
def Owned (s : GateDevice Id) : Prop := ∀ i ∈ s.attempts.map (·.call), i < s.calls.length

omit [DecidableEq Id] in
theorem Owned.init : Owned (GateDevice.init : GateDevice Id) := by simp [Owned, GateDevice.init]

theorem Owned.step {e : GateEvent Id} (h : s.Owned) (hstep : step cfg s e = some s') :
    s'.Owned := by
  have hlen := step_length_calls hstep
  have hold : ∀ i ∈ s.attempts.map (·.call), i < s'.calls.length := fun i hi =>
    (h i hi).trans_le (by omega)
  rcases step_attemptCalls hstep with hcalls | ⟨i, hi, hcalls⟩ <;> rw [Owned, hcalls]
  · exact hold
  · intro j hj
    rcases List.mem_append.mp hj with hj | hj
    · exact hold j hj
    · exact List.mem_singleton.mp hj ▸ hi

end Owned

/-! ## A success that arrives -/

section Answered

variable [DecidableEq Id] {s : GateDevice Id} (hclient : s.client = true)
  (hconnected : s.isConnected = true) (r : Id) (userId : String) (created : Bool)

include hclient hconnected

/-- A call on a connected client publishes its command and waits for its attempt. -/
theorem openGate_connected :
    s.openGate r userId created = { s with
      attempts := s.attempts ++ [⟨s.calls.length, r, s.clock, none, true, true⟩]
      pendingRequests := Function.update s.pendingRequests r (some s.attempts.length)
      published := s.published ++ [⟨r, userId, s.clock⟩]
      calls := s.calls ++ [⟨r, userId, ⟨false, 0⟩, .waiting 0 s.attempts.length⟩] } := by
  simp [openGate, publishCommandAndWaitForAck, addCall, hclient, hconnected]

/-- When an ACK with `ok: true` comes next, the call returns `ok: true`. -/
theorem resume_of_ack (cfg : GateConfig) (errorCode : Option String) :
    ∃ s', ((s.openGate r userId created).handleAckMessage ⟨r, true, errorCode⟩).resume cfg
        s.calls.length = some s' ∧
      s'.calls[s.calls.length]? = some ⟨r, userId, ⟨false, 0⟩, .done (.ok ())⟩ := by
  rw [openGate_connected hclient hconnected]
  simp [handleAckMessage, resume, continueCall, settle, clearTimeout, deletePending, setCallState,
    Attempt.settle, Attempt.clearTimeout]

end Answered

end GateDevice

end Backend
