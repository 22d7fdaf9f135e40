-- SUMMARY: The retry loop of `openGate` as the function of the source, over the outcomes of its attempts.
import ParkingGate.Backend.AckSoundness

/-!
# The retry loop

`openGate` makes attempts until one is acknowledged, one times out, or the retries are used
up. The loop is written here as the source has it, over the outcomes that the promises of its
attempts settle with, and it counts the attempts it makes. A call of the event machine that is
done has run this loop over the outcomes of its own attempts.
-/

namespace Backend

/-- The attempt failed, and the loop tries again if it may. -/
def Settled.Retriable (outcome : Settled) : Prop := ∃ message, outcome = .rejected (.badGateway message)

def Settled.TimedOut (outcome : Settled) : Prop :=
  ∃ message, outcome = .rejected (.gatewayTimeout message)

/-- A call of `openGate` run to its end: its result, the metadata object it filled in, and the
    number of times it called `publishCommandAndWaitForAck`. -/
structure DeviceRun where
  result : Except GateError Unit
  metadata : McuCallMetadata
  attempts : Nat

namespace DeviceRun

/-- The loop of `openGate` from attempt `n` on, where `left` retries are left. -/
def retryLoop (outcomes : Nat → Settled) (n left : Nat) : DeviceRun :=
  match outcomes n with
  | .resolved => ⟨.ok (), ⟨false, n⟩, n + 1⟩
  -- A timeout is not retried.
  | .rejected (.gatewayTimeout message) => ⟨.error (.gatewayTimeout message), ⟨true, n⟩, n + 1⟩
  | .rejected (.badGateway _) =>
    match left with
    | 0        => ⟨.error (.badGateway "שגיאה בתקשורת עם השער"), ⟨false, n⟩, n + 1⟩
    | left + 1 => retryLoop outcomes (n + 1) left

section

variable {outcomes : Nat → Settled} {n : Nat} {message : String}

theorem retryLoop_of_resolved (left : Nat) (h : outcomes n = .resolved) :
    retryLoop outcomes n left = ⟨.ok (), ⟨false, n⟩, n + 1⟩ := by
  cases left <;> simp [retryLoop, h]

theorem retryLoop_of_timeout (left : Nat)
    (h : outcomes n = .rejected (.gatewayTimeout message)) :
    retryLoop outcomes n left = ⟨.error (.gatewayTimeout message), ⟨true, n⟩, n + 1⟩ := by
  cases left <;> simp [retryLoop, h]

theorem retryLoop_exhausted (h : outcomes n = .rejected (.badGateway message)) :
    retryLoop outcomes n 0 =
      ⟨.error (.badGateway "שגיאה בתקשורת עם השער"), ⟨false, n⟩, n + 1⟩ := by
  simp [retryLoop, h]

theorem retryLoop_retry (left : Nat) (h : outcomes n = .rejected (.badGateway message)) :
    retryLoop outcomes n (left + 1) = retryLoop outcomes (n + 1) left := by
  simp [retryLoop, h]

end

/-- `openGate`: `connected` says whether the client is connected or `connect` succeeds. -/
def openGate (cfg : GateConfig) (connected : Bool) (outcomes : Nat → Settled) : DeviceRun :=
  if connected then retryLoop outcomes 0 cfg.retryCount
  else ⟨.error (.badGateway "שגיאה בתקשורת עם השער: לא ניתן להתחבר ל-MQTT broker"), ⟨false, 0⟩, 0⟩

/-- How the loop can end. Attempt `k` is the last one. -/
inductive Ends (outcomes : Nat → Settled) (last k : Nat) : DeviceRun → Prop
  | acked (h : outcomes k = .resolved) : Ends outcomes last k ⟨.ok (), ⟨false, k⟩, k + 1⟩
  | timedOut {message : String} (h : outcomes k = .rejected (.gatewayTimeout message)) :
      Ends outcomes last k ⟨.error (.gatewayTimeout message), ⟨true, k⟩, k + 1⟩
  | exhausted (h : (outcomes k).Retriable) (hk : k = last) :
      Ends outcomes last k ⟨.error (.badGateway "שגיאה בתקשורת עם השער"), ⟨false, k⟩, k + 1⟩

namespace Ends

variable {outcomes : Nat → Settled} {last k : Nat} {run : DeviceRun}

theorem attempts (h : Ends outcomes last k run) : run.attempts = k + 1 := by
  cases h <;> rfl

theorem result_ok_iff (h : Ends outcomes last k run) :
    run.result = .ok () ↔ outcomes k = .resolved := by
  cases h with
  | acked h => exact iff_of_true rfl h
  | timedOut h => simp [h]
  | exhausted h =>
    obtain ⟨message, h⟩ := h
    simp [h]

/-- Only the last attempt of all is not retried when it could be. -/
theorem eq_last (h : Ends outcomes last k run) (hretry : (outcomes k).Retriable) : k = last := by
  obtain ⟨message, hretry⟩ := hretry
  cases h with
  | acked h => simp [h] at hretry
  | timedOut h => simp [h] at hretry
  | exhausted _ hk => exact hk

end Ends

/-- The loop makes attempts as long as they fail without a timeout and retries are left. -/
theorem retryLoop_ends (outcomes : Nat → Settled) (n left : Nat) :
    ∃ k, n ≤ k ∧ k ≤ n + left ∧ (∀ m, n ≤ m → m < k → (outcomes m).Retriable) ∧
      Ends outcomes (n + left) k (retryLoop outcomes n left) := by
  have hnone : ∀ m, n ≤ m → m < n → (outcomes m).Retriable := fun m _ _ => by omega
  match hout : outcomes n, left with
  | .resolved, left =>
    exact ⟨n, Nat.le_refl n, Nat.le_add_right n left, hnone,
      retryLoop_of_resolved left hout ▸ .acked hout⟩
  | .rejected (.gatewayTimeout message), left =>
    exact ⟨n, Nat.le_refl n, Nat.le_add_right n left, hnone,
      retryLoop_of_timeout left hout ▸ .timedOut hout⟩
  | .rejected (.badGateway message), 0 =>
    exact ⟨n, Nat.le_refl n, Nat.le_refl n, hnone,
      retryLoop_exhausted hout ▸ .exhausted ⟨message, hout⟩ rfl⟩
  | .rejected (.badGateway message), left + 1 =>
    obtain ⟨k, hle, hlast, hretried, hends⟩ := retryLoop_ends outcomes (n + 1) left
    refine ⟨k, by omega, by omega, fun m hm hmk => ?_, ?_⟩
    · rcases Nat.eq_or_lt_of_le hm with rfl | hm
      · exact ⟨message, hout⟩
      · exact hretried m hm hmk
    · rw [retryLoop_retry left hout]
      rwa [Nat.add_right_comm] at hends

/-- Attempts that fail and are retried only count. -/
theorem retryLoop_add {outcomes : Nat → Settled} {n d : Nat} (left : Nat)
    (h : ∀ m, n ≤ m → m < n + d → (outcomes m).Retriable) :
    retryLoop outcomes n (d + left) = retryLoop outcomes (n + d) left := by
  induction d generalizing n with
  | zero => rw [Nat.zero_add, Nat.add_zero]
  | succ d ih =>
    obtain ⟨message, hn⟩ := h n (Nat.le_refl n) (by omega)
    rw [Nat.add_right_comm d 1 left, retryLoop_retry (d + left) hn,
      ih fun m hm hlt => h m (by omega) (by omega)]
    congr 1
    omega

end DeviceRun

/-! ## Calls of the event machine -/

namespace GateDevice

variable {Id : Type*}

/-- How the promise of attempt `a` was settled. -/
def outcomeAt (s : GateDevice Id) (a : Nat) : Option Settled := s.attempts[a]?.bind (·.outcome)

/-- The attempts that call `i` has made. -/
def attemptsOf (s : GateDevice Id) (i : Nat) : List Nat :=
  (List.range s.attempts.length).filter fun a => (s.attempts.map (·.call))[a]? = some i

/-- The attempts `before` of a call have all failed, and it goes on with attempt `n`. -/
structure Retries (cfg : GateConfig) (s : GateDevice Id) (c : Call Id) (before : List Nat)
    (n : Nat) : Prop where
  length : before.length = n
  left : n ≤ cfg.retryCount
  failed : ∀ a ∈ before, ∃ message, s.outcomeAt a = some (.rejected (.badGateway message))
  metadata : c.metadata = ⟨false, n⟩

/-- Where call `i` stands in the loop. -/
def Follows (cfg : GateConfig) (s : GateDevice Id) (i : Nat) (c : Call Id) : Prop :=
  match c.state with
  | .connecting _      => s.Retries cfg c (s.attemptsOf i) 0
  | .delaying n _      => s.Retries cfg c (s.attemptsOf i) n
  | .waiting n promise =>
    ∃ before, s.attemptsOf i = before ++ [promise] ∧ s.Retries cfg c before n
  | .done result       => ∃ (connected : Bool) (outcomes : Nat → Settled),
      (s.attemptsOf i).map s.outcomeAt =
        (List.range (s.attemptsOf i).length).map (fun n => some (outcomes n)) ∧
      DeviceRun.openGate cfg connected outcomes = ⟨result, c.metadata, (s.attemptsOf i).length⟩

/-- Promises that are settled stay so, and no attempt is made. -/
structure Settles (s s' : GateDevice Id) : Prop where
  calls : s'.attempts.map (·.call) = s.attempts.map (·.call)
  outcome : ∀ a o, s.outcomeAt a = some o → s'.outcomeAt a = some o

section Settles

variable {s s' t : GateDevice Id}

theorem Settles.attemptsOf (h : s.Settles s') (i : Nat) : s'.attemptsOf i = s.attemptsOf i := by
  have hlen : s'.attempts.length = s.attempts.length := by
    simpa using congrArg List.length h.calls
  rw [GateDevice.attemptsOf, GateDevice.attemptsOf, h.calls, hlen]

theorem Settles.of_eq (h : s'.attempts = s.attempts) : s.Settles s' :=
  ⟨by rw [h], fun a o ha => by rw [outcomeAt, h]; exact ha⟩

theorem Settles.trans (h : s.Settles s') (h' : s'.Settles t) : s.Settles t :=
  ⟨h'.calls.trans h.calls, fun a o ha => h'.outcome a o (h.outcome a o ha)⟩

theorem Settles.of_modify {f : Attempt Id → Attempt Id} {a : Nat}
    (ha : s'.attempts = s.attempts.modify a f) (hcall : ∀ att, (f att).call = att.call)
    (hout : ∀ att o, att.outcome = some o → (f att).outcome = some o) : s.Settles s' := by
  refine ⟨by rw [ha, map_modify_of_eq a hcall], fun b o hb => ?_⟩
  obtain ⟨att, hatt, hatto⟩ := Option.bind_eq_some_iff.mp hb
  rw [outcomeAt, ha, List.getElem?_modify, hatt]
  by_cases hab : a = b
  · simpa [hab] using hout att o hatto
  · simpa [hab] using hatto

end Settles

section Follows

variable {cfg : GateConfig} {s s' : GateDevice Id} {i n promise : Nat} {c : Call Id}
  {before : List Nat}

theorem attemptsOf_append {att : Attempt Id} (ha : s'.attempts = s.attempts ++ [att]) (j : Nat) :
    s'.attemptsOf j = s.attemptsOf j ++ if att.call = j then [s.attempts.length] else [] := by
  have hold : ∀ a ∈ List.range s.attempts.length,
      ((s.attempts ++ [att]).map (·.call))[a]? = (s.attempts.map (·.call))[a]? := by
    intro a hlt
    rw [List.map_append, List.getElem?_append_left (by simpa using hlt)]
  rw [attemptsOf, ha, List.length_append, List.length_singleton, List.range_succ, List.filter_append]
  congr 1
  · exact List.filter_congr fun a hlt => by rw [hold a hlt]
  · by_cases hj : att.call = j <;> simp [hj]

theorem outcomeAt_append {att : Attempt Id} (ha : s'.attempts = s.attempts ++ [att]) {a : Nat}
    {o : Settled} (h : s.outcomeAt a = some o) : s'.outcomeAt a = some o := by
  obtain ⟨old, hold, hout⟩ := Option.bind_eq_some_iff.mp h
  rw [outcomeAt, ha, getElem?_concat_of_some hold]
  exact hout

theorem Retries.mono (h : s.Retries cfg c before n)
    (hout : ∀ a o, s.outcomeAt a = some o → s'.outcomeAt a = some o) :
    s'.Retries cfg c before n :=
  ⟨h.length, h.left, fun a ha => (h.failed a ha).imp fun _ hfail => hout a _ hfail, h.metadata⟩

/-- A call that nothing happens to stays where it is. -/
theorem Follows.mono (h : s.Follows cfg i c) (hatt : s'.attemptsOf i = s.attemptsOf i)
    (hout : ∀ a o, s.outcomeAt a = some o → s'.outcomeAt a = some o) : s'.Follows cfg i c := by
  unfold Follows at h ⊢
  cases hstate : c.state with
  | connecting promise =>
    simp only [hstate] at h ⊢
    exact hatt ▸ h.mono hout
  | delaying n wakeAt =>
    simp only [hstate] at h ⊢
    exact hatt ▸ h.mono hout
  | waiting n promise =>
    simp only [hstate] at h ⊢
    obtain ⟨before, hsplit, hretries⟩ := h
    exact ⟨before, hatt.trans hsplit, hretries.mono hout⟩
  | done result =>
    simp only [hstate] at h ⊢
    obtain ⟨connected, outcomes, hmap, hrun⟩ := h
    rw [hatt]
    refine ⟨connected, outcomes, ?_, hrun⟩
    rw [← hmap]
    refine List.map_congr_left fun a ha => ?_
    -- every attempt of the call is settled
    have hmem : s.outcomeAt a ∈ (List.range (s.attemptsOf i).length).map
        (fun n => some (outcomes n)) := hmap ▸ List.mem_map_of_mem ha
    obtain ⟨m, -, ho⟩ := List.mem_map.mp hmem
    rw [← ho, hout a _ ho.symm]

/-- When the last attempt of a waiting call is settled, the loop stands at this attempt. -/
theorem Retries.loop {o : Settled} (h : s.Retries cfg c before n)
    (hsplit : s.attemptsOf i = before ++ [promise]) (ho : s.outcomeAt promise = some o) :
    ∃ outcomes : Nat → Settled,
      (s.attemptsOf i).map s.outcomeAt =
        (List.range (s.attemptsOf i).length).map (fun n => some (outcomes n)) ∧
      (s.attemptsOf i).length = n + 1 ∧ outcomes n = o ∧
      DeviceRun.openGate cfg true outcomes =
        DeviceRun.retryLoop outcomes n (cfg.retryCount - n) := by
  let outcomes : Nat → Settled := fun m => ((s.attemptsOf i)[m]?.bind s.outcomeAt).getD .resolved
  have hlast : outcomes n = o := by
    simp [outcomes, hsplit, ← h.length, ho]
  have hbefore : ∀ m (hm : m < before.length), ∃ message,
      s.outcomeAt before[m] = some (outcomes m) ∧ outcomes m = .rejected (.badGateway message) := by
    intro m hm
    obtain ⟨message, hfail⟩ := h.failed before[m] (List.getElem_mem hm)
    have hm' : outcomes m = .rejected (.badGateway message) := by
      simp [outcomes, hsplit, List.getElem?_append_left hm, List.getElem?_eq_getElem hm, hfail]
    exact ⟨message, hm' ▸ hfail, hm'⟩
  refine ⟨outcomes, ?_, by rw [hsplit, List.length_append, h.length]; rfl, hlast, ?_⟩
  · refine List.ext_getElem (by simp) fun m hm _ => ?_
    simp only [hsplit, List.length_map, List.length_append, List.length_singleton] at hm
    simp only [hsplit, List.getElem_map, List.getElem_range]
    rcases Nat.lt_or_ge m before.length with hlt | hge
    · obtain ⟨message, hout, -⟩ := hbefore m hlt
      rw [List.getElem_append_left hlt, hout]
    · obtain rfl : m = n := by have := h.length; omega
      rw [List.getElem_append_right hge]
      simp [ho, hlast]
  · have hskip := DeviceRun.retryLoop_add (n := 0) (d := n)
      (cfg.retryCount - n) fun m _ hm =>
        (hbefore m (by rw [h.length]; omega)).imp fun _ hm => hm.2
    rw [Nat.zero_add, Nat.add_sub_cancel' h.left] at hskip
    simp [DeviceRun.openGate, hskip]

end Follows

/-- Every call stands somewhere in its loop. -/
structure InLoop (cfg : GateConfig) (s : GateDevice Id) : Prop where
  owned : s.Owned
  follows : ∀ (i : Nat) (c : Call Id), s.calls[i]? = some c → s.Follows cfg i c

namespace InLoop

variable {cfg : GateConfig} {s s' : GateDevice Id} {i n : Nat} {c : Call Id}

theorem init : InLoop cfg (GateDevice.init : GateDevice Id) :=
  ⟨Owned.init, fun i c h => by simp [GateDevice.init] at h⟩

/-- Events that make no attempt and leave the calls alone. -/
private theorem settles (h : s.InLoop cfg) (hsettles : s.Settles s') (hcalls : s'.calls = s.calls) :
    ∀ (i : Nat) (c : Call Id), s'.calls[i]? = some c → s'.Follows cfg i c := by
  intro i c hc
  exact (h.follows i c (hcalls ▸ hc)).mono (hsettles.attemptsOf i) hsettles.outcome

/-- Call `i` moves on; the other calls make no attempt. -/
private theorem moves {t : GateDevice Id} (h : s.InLoop cfg) (hc : s.calls[i]? = some c) {f : Call Id → Call Id}
    (hcalls : t.calls = s.calls.modify i f) (hatt : ∀ j, i ≠ j → t.attemptsOf j = s.attemptsOf j)
    (hout : ∀ a o, s.outcomeAt a = some o → t.outcomeAt a = some o)
    (hnew : t.Follows cfg i (f c)) :
    ∀ (j : Nat) (d : Call Id), t.calls[j]? = some d → t.Follows cfg j d := by
  intro j d hd
  obtain ⟨old, hold, rfl⟩ := getElem?_modify_cases (hcalls ▸ hd)
  by_cases hj : i = j
  · subst hj
    obtain rfl := Option.some.inj (hc.symm.trans hold)
    simpa using hnew
  · simp only [if_neg hj]
    exact (h.follows j old hold).mono (hatt j hj) hout

variable [DecidableEq Id]

/-- An attempt of call `i` is appended to the attempts. -/
theorem publish_attempts (s : GateDevice Id) (i : Nat) (r : Id) (userId : String) :
    ∃ att : Attempt Id, att.call = i ∧
      (s.publishCommandAndWaitForAck i r userId).2.attempts = s.attempts ++ [att] := by
  unfold publishCommandAndWaitForAck
  split <;> exact ⟨_, rfl, rfl⟩

private theorem startAttempt (h : s.InLoop cfg) (hc : s.calls[i]? = some c)
    (hretries : s.Retries cfg c (s.attemptsOf i) n) :
    ∀ (j : Nat) (d : Call Id), (s.startAttempt i c n).calls[j]? = some d →
      (s.startAttempt i c n).Follows cfg j d := by
  obtain ⟨att, hcall, hattempts⟩ := publish_attempts s i c.requestId c.userId
  have happend : (s.startAttempt i c n).attempts = s.attempts ++ [att] := by
    rw [startAttempt_eq]
    exact hattempts
  have hcalls : (s.startAttempt i c n).calls =
      s.calls.modify i fun c => { c with state := .waiting n s.attempts.length } := by
    rw [startAttempt_eq, GateDevice.setCallState, publishCommandAndWaitForAck_calls]
  refine h.moves hc hcalls (fun j hj => ?_) (fun a o => outcomeAt_append happend) ?_
  · rw [attemptsOf_append happend, hcall, if_neg hj, List.append_nil]
  · refine ⟨s.attemptsOf i, ?_, hretries.length, hretries.left,
      fun a ha => (hretries.failed a ha).imp fun _ => outcomeAt_append happend, hretries.metadata⟩
    rw [attemptsOf_append happend, hcall, if_pos rfl]

omit [DecidableEq Id] in
/-- A waiting call ends as the loop does at its attempt. -/
private theorem ends {before : List Nat} {promise : Nat} {o : Settled}
    {result : Except GateError Unit} {f : Call Id → Call Id} (h : s.InLoop cfg)
    (hc : s.calls[i]? = some c) (hsplit : s.attemptsOf i = before ++ [promise])
    (hretries : s.Retries cfg c before n) (ho : s.outcomeAt promise = some o)
    (hdone : (f c).state = .done result)
    (hloop : ∀ outcomes : Nat → Settled, outcomes n = o →
      DeviceRun.retryLoop outcomes n (cfg.retryCount - n) = ⟨result, (f c).metadata, n + 1⟩) :
    ∀ (j : Nat) (d : Call Id), (s.calls.modify i f)[j]? = some d →
      ({ s with calls := s.calls.modify i f } : GateDevice Id).Follows cfg j d := by
  refine h.moves (t := { s with calls := s.calls.modify i f }) hc rfl (fun _ _ => rfl)
    (fun _ _ ho => ho) ?_
  obtain ⟨outcomes, hmap, hlen, hn, hrun⟩ := hretries.loop hsplit ho
  unfold Follows
  simp only [hdone]
  exact ⟨true, outcomes, hmap, hrun.trans (hlen ▸ hloop outcomes hn)⟩

private theorem resume (h : s.InLoop cfg) (hc : s.calls[i]? = some c)
    (hrun : s.continueCall cfg i c = some s') :
    ∀ (j : Nat) (d : Call Id), s'.calls[j]? = some d → s'.Follows cfg j d := by
  have hfollows := h.follows i c hc
  unfold continueCall at hrun
  unfold Follows at hfollows
  split at hrun
  next promise hstate =>
    simp only [hstate] at hfollows
    split at hrun
    · exact Option.some.inj hrun ▸ h.startAttempt hc hfollows
    · obtain rfl := Option.some.inj hrun
      refine h.moves hc rfl (fun _ _ => rfl) (fun _ _ ho => ho) ?_
      have hnil : s.attemptsOf i = [] := List.length_eq_zero_iff.mp hfollows.length
      refine ⟨false, fun _ => .resolved, ?_, ?_⟩
      · rw [show (s.setCallState i _).attemptsOf i = [] from hnil]
        rfl
      · rw [show (s.setCallState i _).attemptsOf i = [] from hnil]
        simp [DeviceRun.openGate, hfollows.metadata]
    · cases hrun
    · cases hrun
  next m wakeAt hstate =>
    simp only [hstate] at hfollows
    simp only [Option.ite_none_right_eq_some, Option.some.injEq] at hrun
    exact hrun.2 ▸ h.startAttempt hc hfollows
  next m promise hstate =>
    simp only [hstate] at hfollows
    obtain ⟨before, hsplit, hretries⟩ := hfollows
    have hmeta := hretries.metadata
    split at hrun
    · cases hrun
    next ho =>
      obtain rfl := Option.some.inj hrun
      refine h.ends hc hsplit hretries ho rfl fun outcomes hn => ?_
      rw [DeviceRun.retryLoop_of_resolved _ hn, hmeta]
    next message ho =>
      obtain rfl := Option.some.inj hrun
      simp only [setMetadata, GateDevice.setCallState, List.modify_modify_eq]
      refine h.ends hc hsplit hretries ho rfl fun outcomes hn => ?_
      rw [DeviceRun.retryLoop_of_timeout _ hn]
      simp [hmeta]
    next message ho =>
      split at hrun
      next hlt =>
        obtain rfl := Option.some.inj hrun
        simp only [setMetadata, GateDevice.setCallState, List.modify_modify_eq]
        refine h.moves (t := { s with calls := s.calls.modify i _ }) hc rfl (fun _ _ => rfl)
          (fun _ _ ho => ho) ?_
        refine ⟨?_, hlt, fun a ha => ?_, by simp [hmeta]⟩
        · exact (congrArg List.length hsplit).trans (by simp [hretries.length])
        · rcases List.mem_append.mp (hsplit ▸ ha : a ∈ before ++ [promise]) with ha | ha
          · exact hretries.failed a ha
          · exact ⟨message, List.mem_singleton.mp ha ▸ ho⟩
      next hge =>
        obtain rfl := Option.some.inj hrun
        refine h.ends hc hsplit hretries ho rfl fun outcomes hn => ?_
        rw [Nat.sub_eq_zero_of_le (by omega), DeviceRun.retryLoop_exhausted hn, hmeta]
  next result hstate => cases hrun

private theorem openGate (h : s.InLoop cfg) (r : Id) (userId : String) (created : Bool) :
    ∀ (i : Nat) (c : Call Id), (s.openGate r userId created).calls[i]? = some c →
      (s.openGate r userId created).Follows cfg i c := by
  have hnone : s.attemptsOf s.calls.length = [] := by
    refine List.filter_eq_nil_iff.mpr fun a _ ha => ?_
    have := h.owned _ (List.mem_of_getElem? (of_decide_eq_true ha))
    omega
  rcases s.openGate_cases r userId created with ⟨promise, heq⟩ | heq <;> rw [heq]
  · obtain ⟨-, hattempts, hcalls, -⟩ := s.connect_frame created
    have hsettles : s.Settles ((s.connect created).2.addCall ⟨r, userId, ⟨false, 0⟩,
        .connecting promise⟩) := .of_eq hattempts
    intro i c hc
    rw [addCall, hcalls] at hc
    rcases getElem?_concat_cases hc with hc | ⟨rfl, rfl⟩
    · exact (h.follows i c hc).mono (hsettles.attemptsOf i) hsettles.outcome
    · refine ⟨?_, Nat.zero_le _, fun a ha => ?_, rfl⟩
      · rw [hsettles.attemptsOf, hnone]
        rfl
      · rw [hsettles.attemptsOf, hnone] at ha
        cases ha
  · obtain ⟨att, hcall, hattempts⟩ := publish_attempts s s.calls.length r userId
    have happend : ((s.publishCommandAndWaitForAck s.calls.length r userId).2.addCall ⟨r, userId,
        ⟨false, 0⟩, .waiting 0 s.attempts.length⟩).attempts = s.attempts ++ [att] := hattempts
    intro i c hc
    rw [addCall, publishCommandAndWaitForAck_calls] at hc
    rcases getElem?_concat_cases hc with hc | ⟨rfl, rfl⟩
    · have hi : s.calls.length ≠ i := by
        have := (List.getElem?_eq_some_iff.mp hc).1
        omega
      refine (h.follows i c hc).mono ?_ fun a o => outcomeAt_append happend
      rw [attemptsOf_append happend, hcall, if_neg hi, List.append_nil]
    · refine ⟨[], ?_, rfl, Nat.zero_le _, by simp, rfl⟩
      rw [attemptsOf_append happend, hcall, if_pos rfl, hnone]

omit [DecidableEq Id] in
private theorem settles_settle (s : GateDevice Id) (a : Nat) (outcome : Settled) :
    s.Settles (s.settle a outcome) :=
  .of_modify rfl (fun _ => rfl) fun att o h => by simp [Attempt.settle, h]

omit [DecidableEq Id] in
private theorem settles_clearTimeout (s : GateDevice Id) (a : Nat) :
    s.Settles (s.clearTimeout a) :=
  .of_modify rfl (fun _ => rfl) fun _ _ h => h

/-- Taking an attempt out of the map and settling another, or the same one. -/
private theorem settles_retire (s : GateDevice Id) (a b : Nat) (r : Id) (outcome : Settled) :
    s.Settles (((s.clearTimeout a).deletePending r).settle b outcome) :=
  have hdeleted : (s.clearTimeout a).Settles ((s.clearTimeout a).deletePending r) := .of_eq rfl
  ((settles_clearTimeout s a).trans hdeleted).trans (settles_settle _ b outcome)

theorem step {e : GateEvent Id} (h : s.InLoop cfg) (hstep : step cfg s e = some s') :
    s'.InLoop cfg := by
  refine ⟨h.owned.step hstep, ?_⟩
  cases step_cases hstep with
  | openGate r userId created => exact h.openGate r userId created
  | resume =>
    obtain ⟨c, hc, hrun⟩ := Option.bind_eq_some_iff.mp hstep
    exact h.resume hc hrun
  | ack message =>
    refine h.settles ?_ (s.handleAckMessage_frame message).1
    unfold handleAckMessage
    split
    · exact .of_eq rfl
    · simp only
      split <;> exact settles_retire s _ _ _ _
  | @publishCallback a error _ hcallback =>
    refine h.settles ?_ (publishCallback_frame hcallback).1
    obtain ⟨att, -, hrun⟩ := Option.bind_eq_some_iff.mp hcallback
    have hcalled : s.Settles { s with
        attempts := s.attempts.modify a fun att => { att with callbackDue := false } } :=
      .of_modify rfl (fun _ => rfl) fun _ _ h => h
    split at hrun
    · cases hrun
    · split at hrun
      · exact Option.some.inj hrun ▸ hcalled.trans (settles_retire _ a a _ _)
      · exact Option.some.inj hrun ▸ hcalled
  | @timer a _ htimer =>
    refine h.settles ?_ (timer_frame htimer).1
    obtain ⟨att, -, hrun⟩ := Option.bind_eq_some_iff.mp htimer
    split at hrun
    · cases hrun
    · simp only at hrun
      split at hrun
      · exact Option.some.inj hrun ▸ settles_clearTimeout s a
      · exact Option.some.inj hrun ▸ settles_retire s a _ _ _
  | disconnect =>
    refine h.settles ⟨disconnect_attemptCalls s, fun a o ha => ?_⟩ rfl
    obtain ⟨att, hatt, hout⟩ := Option.bind_eq_some_iff.mp ha
    simp only [outcomeAt, disconnect, List.getElem?_mapIdx, hatt, Option.map_some,
      Option.bind_some]
    split
    · simp [Attempt.settle, Attempt.clearTimeout, hout]
    · exact hout
  | idle _ _ hattempts hcalls => exact h.settles (.of_eq hattempts) hcalls

end InLoop

/-- A call that is done has run the loop over the outcomes of its attempts. -/
theorem done_of_exec [DecidableEq Id] {cfg : GateConfig} {es : List (GateEvent Id)}
    {s : GateDevice Id} {i : Nat} {c : Call Id} {result : Except GateError Unit}
    (h : Trace.exec (step cfg) init es = some s) (hc : s.calls[i]? = some c)
    (hdone : c.state = .done result) :
    ∃ (connected : Bool) (outcomes : Nat → Settled),
      (s.attemptsOf i).map s.outcomeAt =
        (List.range (s.attemptsOf i).length).map (fun n => some (outcomes n)) ∧
      DeviceRun.openGate cfg connected outcomes =
        ⟨result, c.metadata, (s.attemptsOf i).length⟩ := by
  have hloop : s.InLoop cfg := Trace.exec_invariant (fun _ _ _ h hstep => h.step hstep) .init h
  have hfollows := hloop.follows i c hc
  unfold Follows at hfollows
  simpa only [hdone] using hfollows

end GateDevice

end Backend
