-- SUMMARY: The audit records of `openByUser` and `openByAdminBackdoor`: what a record says about its call, and when it is right.
import ParkingGate.Backend.GateService
import ParkingGate.Backend.RetryLoop

/-!
# The audit record

Both ways of opening the gate create one `GateLog` record in a `finally` block. What the
record says about the device comes from two sources: if `openGate` resolves, it returns its
metadata; if it throws, only the exception arrives, and the `catch` block makes up the rest.
-/

namespace Backend

namespace DeviceRun

/-! ## A device call that fails after a retry -/

/-- The outcomes let the loop retry, and no retry is acknowledged before the loop ends. -/
def FailsRetried (cfg : GateConfig) (connected : Bool) (outcomes : Nat → Settled) : Prop :=
  connected = true ∧ 0 < cfg.retryCount ∧ (outcomes 0).Retriable ∧
    ∀ n ≤ cfg.retryCount, (∀ m < n, (outcomes m).Retriable) → outcomes n ≠ .resolved

/-- What an audit record is to say about a device call. -/
structure Summary (run : DeviceRun) (outcomes : Nat → Settled) : Prop where
  timeout : run.metadata.timeout = true ↔
    run.attempts ≠ 0 ∧ (outcomes (run.attempts - 1)).TimedOut
  thrown : run.metadata.timeout = true ↔ ∃ message, run.result = .error (.gatewayTimeout message)
  retries : run.metadata.retries = run.attempts - 1

/-- The metadata that `openGate` keeps is right, whether it is returned or lost. -/
theorem openGate_summary (cfg : GateConfig) (connected : Bool) (outcomes : Nat → Settled) :
    (openGate cfg connected outcomes).Summary outcomes := by
  unfold openGate
  split
  · obtain ⟨k, -, -, -, hends⟩ := retryLoop_ends outcomes 0 cfg.retryCount
    generalize retryLoop outcomes 0 cfg.retryCount = run at hends
    cases hends with
    | acked h => exact ⟨by simp [Settled.TimedOut, h], by simp, by simp⟩
    | timedOut h => exact ⟨by simp [Settled.TimedOut, h], by simp, by simp⟩
    | exhausted h =>
      obtain ⟨message, h⟩ := h
      exact ⟨by simp [Settled.TimedOut, h], by simp, by simp⟩
  · exact ⟨by simp, by simp, by simp⟩

theorem failsRetried_iff (cfg : GateConfig) (connected : Bool) (outcomes : Nat → Settled) :
    FailsRetried cfg connected outcomes ↔
      (openGate cfg connected outcomes).result ≠ .ok () ∧
        1 < (openGate cfg connected outcomes).attempts := by
  unfold openGate FailsRetried
  cases connected with
  | false => simp
  | true =>
    obtain ⟨k, -, hk, hretried, hends⟩ := retryLoop_ends outcomes 0 cfg.retryCount
    rw [Nat.zero_add] at hk hends
    simp only [true_and, ↓reduceIte]
    rw [hends.attempts, ne_eq, hends.result_ok_iff]
    constructor
    · rintro ⟨hpos, hfirst, hnone⟩
      have hk0 : k ≠ 0 := by
        rintro rfl
        have := hends.eq_last hfirst
        omega
      exact ⟨hnone k hk fun m hm => hretried m (Nat.zero_le m) hm, by omega⟩
    · rintro ⟨hfail, hmore⟩
      refine ⟨by omega, hretried 0 (Nat.le_refl 0) (by omega), fun n hn hbefore hresolved => ?_⟩
      -- the loop has ended before an attempt that would be acknowledged
      rcases Nat.lt_trichotomy n k with hlt | rfl | hlt
      · obtain ⟨message, h⟩ := hretried n (Nat.zero_le n) hlt
        simp [hresolved] at h
      · exact hfail hresolved
      · have := hends.eq_last (hbefore k hlt)
        omega

end DeviceRun

/-! ## The two ways to open the gate -/

/-- A call run to its end: what it returns, the documents it hands to `gateLogModel.create`,
    and its call of `openGate`, if it makes one. -/
structure OpenRun where
  result : Except OpenError Unit
  created : List GateLog
  device : Option DeviceRun

/-- What `openByAdminBackdoor` is called with. -/
structure BackdoorParams where
  requestId : Option String
  ip : Option String
  userAgent : Option String

/-- `openByUser`, from `start` to `stop`. The registration meets the collection `requests`. -/
def openByUser (cfg : GateConfig) (requests : List GateRequest) (fault : Option DatabaseFault)
    (connected : Bool) (outcomes : Nat → Settled) (params : OpenParams) (start stop : Nat) :
    OpenRun :=
  let o := Open.start params start
  match (checkAndRegisterRequestId requests params.requestId params.userId start fault).2 with
  | .error error =>
    let (status, failureReason, mcu) := error.outcome
    ⟨.error error, [o.record stop status (some failureReason) mcu], none⟩
  | .ok () =>
    let run := DeviceRun.openGate cfg connected outcomes
    match run.result with
    | .error error =>
      let (status, failureReason, mcu) := (OpenError.gate error).outcome
      ⟨.error (.gate error), [o.record stop status (some failureReason) mcu], some run⟩
    | .ok () =>
      ⟨.ok (), [o.record stop .success none ⟨true, run.metadata.timeout, run.metadata.retries⟩],
        some run⟩

/-- `openByAdminBackdoor`; it has no replay protection. -/
def openByAdminBackdoor (cfg : GateConfig) (connected : Bool) (outcomes : Nat → Settled)
    (params : BackdoorParams) (randomUUID : String) (start stop : Nat) : OpenRun :=
  let requestId := match params.requestId with
    | some requestId => if requestId = "" then randomUUID else requestId
    | none           => randomUUID
  let record := fun (status : GateLogStatus) (failureReason : Option String)
      (mcu : GateLogMcuMetadata) =>
    { requestId := requestId
      userId := none
      email := none
      deviceId := none
      sessionId := none
      ip := params.ip
      userAgent := params.userAgent
      openedBy := .adminBackdoor
      status := status
      failureReason := failureReason
      durationMs := stop - start
      mcu := mcu : GateLog }
  let run := DeviceRun.openGate cfg connected outcomes
  match run.result with
  | .error error =>
    let (status, failureReason, mcu) := (OpenError.gate error).outcome
    ⟨.error (.gate error), [record status (some failureReason) mcu], some run⟩
  | .ok () =>
    ⟨.ok (), [record .success none ⟨true, run.metadata.timeout, run.metadata.retries⟩], some run⟩

/-- `openByUser` goes through the stages of `Open`. -/
theorem openByUser_stages (cfg : GateConfig) (requests : List GateRequest)
    (fault : Option DatabaseFault) (connected : Bool) (outcomes : Nat → Settled)
    (params : OpenParams) (start stop : Nat) :
    let o := Open.start params start
    let run := openByUser cfg requests fault connected outcomes params start stop
    let registration :=
      (checkAndRegisterRequestId requests params.requestId params.userId start fault).2
    match run.device with
    | none => ∃ log, o.registered stop registration = .logging log run.result ∧ run.created = [log]
    | some device => o.registered stop registration = .admitted ∧
        device = DeviceRun.openGate cfg connected outcomes ∧
        ∃ log, o.settled stop device.metadata device.result = .logging log run.result ∧
          run.created = [log] := by
  unfold openByUser
  cases (checkAndRegisterRequestId requests params.requestId params.userId start fault).2 with
  | error error => exact ⟨_, rfl, rfl⟩
  | ok =>
    simp only
    cases hresult : (DeviceRun.openGate cfg connected outcomes).result with
    | error error => exact ⟨rfl, rfl, _, by rw [hresult]; rfl, rfl⟩
    | ok => exact ⟨rfl, rfl, _, by rw [hresult]; rfl, rfl⟩

/-! ## What the record says -/

/-- The record tells what happened in the run; `duplicateKey` says whether the insertion of
    the request id hit a duplicate key. -/
structure GateLog.Tells (log : GateLog) (run : OpenRun) (outcomes : Nat → Settled)
    (duplicateKey : Prop) : Prop where
  success : log.status = .success ↔ ∃ device, run.device = some device ∧ device.result = .ok ()
  blockedReplay : log.status = .blockedReplay ↔ duplicateKey
  attempted : log.mcu.attempted = true ↔ run.device.isSome
  retries : log.mcu.retries = (run.device.elim 0 fun device => device.attempts) - 1
  timeout : log.mcu.timeout = true ↔ ∃ device, run.device = some device ∧ device.attempts ≠ 0 ∧
    (outcomes (device.attempts - 1)).TimedOut

/-- Exactly one record is created, and it tells what happened. -/
def OpenRun.Tells (run : OpenRun) (outcomes : Nat → Settled) (duplicateKey : Prop) : Prop :=
  ∃ log, run.created = [log] ∧ log.Tells run outcomes duplicateKey

/-- The insertion of the request id hits a duplicate key. -/
def DuplicateKey (requests : List GateRequest) (fault : Option DatabaseFault)
    (requestId : String) : Prop :=
  fault = none ∧ ∃ record ∈ requests, record.requestId = requestId

/-- A record of a device call that returned is right. -/
theorem GateLog.tells_of_ok {log : GateLog} {result : Except OpenError Unit} {created : List GateLog}
    {device : DeviceRun} {outcomes : Nat → Settled} {duplicateKey : Prop}
    (hsummary : device.Summary outcomes) (hok : device.result = .ok ()) (hdup : ¬ duplicateKey)
    (hstatus : log.status = .success)
    (hmcu : log.mcu = ⟨true, device.metadata.timeout, device.metadata.retries⟩) :
    log.Tells ⟨result, created, some device⟩ outcomes duplicateKey where
  success := by simp [hstatus, hok]
  blockedReplay := by simp [hstatus, hdup]
  attempted := by simp [hmcu]
  retries := by simp [hmcu, hsummary.retries]
  timeout := by simp [hmcu, hsummary.timeout]

/-- A record of a device call that threw is right exactly if there was no retry. -/
theorem GateLog.tells_of_error {log : GateLog} {result : Except OpenError Unit}
    {created : List GateLog} {device : DeviceRun} {outcomes : Nat → Settled} {duplicateKey : Prop}
    {error : GateError} (hsummary : device.Summary outcomes) (herror : device.result = .error error)
    (hdup : ¬ duplicateKey) (hstatus : log.status = (OpenError.gate error).outcome.1)
    (hmcu : log.mcu = (OpenError.gate error).outcome.2.2) :
    log.Tells ⟨result, created, some device⟩ outcomes duplicateKey ↔ device.attempts ≤ 1 := by
  have hretries : log.mcu.retries = 0 := by
    rw [hmcu]
    cases error <;> rfl
  constructor
  · intro h
    have := h.retries
    simp only [hretries, Option.elim_some] at this
    omega
  · intro hle
    refine ⟨?_, ?_, ?_, ?_, ?_⟩
    · cases error <;> simp [hstatus, OpenError.outcome, herror]
    · cases error <;> simp [hstatus, OpenError.outcome, hdup]
    · cases error <;> simp [hmcu, OpenError.outcome]
    · simp only [hretries, Option.elim_some]
      omega
    · have htimeout := hsummary.thrown.symm.trans hsummary.timeout
      cases error <;> simp [hmcu, OpenError.outcome, ← htimeout, herror]

theorem openByAdminBackdoor_tells_iff (cfg : GateConfig) (connected : Bool)
    (outcomes : Nat → Settled) (params : BackdoorParams) (randomUUID : String) (start stop : Nat) :
    (openByAdminBackdoor cfg connected outcomes params randomUUID start stop).Tells outcomes False ↔
      ¬ DeviceRun.FailsRetried cfg connected outcomes := by
  have hsummary := DeviceRun.openGate_summary cfg connected outcomes
  rw [DeviceRun.failsRetried_iff]
  unfold openByAdminBackdoor OpenRun.Tells
  generalize DeviceRun.openGate cfg connected outcomes = device at hsummary
  simp only
  split
  next error herror =>
    simp only [List.cons.injEq, and_true, exists_eq_left']
    rw [GateLog.tells_of_error hsummary herror not_false rfl rfl]
    simp [herror]
  next hok =>
    simp only [List.cons.injEq, and_true, exists_eq_left']
    exact iff_of_true (GateLog.tells_of_ok hsummary hok not_false rfl rfl) (by simp [hok])

theorem checkAndRegisterRequestId_cases (requests : List GateRequest) (requestId userId : String)
    (now : Nat) (fault : Option DatabaseFault) :
    let result := (checkAndRegisterRequestId requests requestId userId now fault).2
    (∃ message, fault ≠ none ∧ result = .error (.database message)) ∨
    (DuplicateKey requests fault requestId ∧ ∃ message, result = .error (.conflict message)) ∨
    (fault = none ∧ ¬ DuplicateKey requests fault requestId ∧ result = .ok ()) := by
  unfold checkAndRegisterRequestId DuplicateKey
  cases fault with
  | some fault => exact .inl ⟨fault.message, by simp, rfl⟩
  | none =>
    by_cases hdup : ∃ record ∈ requests, record.requestId = requestId
    · exact .inr (.inl ⟨⟨rfl, hdup⟩, "בקשה כפולה זוהתה", by simp [hdup]⟩)
    · exact .inr (.inr ⟨rfl, by simp [hdup], by simp [hdup]⟩)

theorem openByUser_tells_iff (cfg : GateConfig) (requests : List GateRequest)
    (fault : Option DatabaseFault) (connected : Bool) (outcomes : Nat → Settled)
    (params : OpenParams) (start stop : Nat) :
    (openByUser cfg requests fault connected outcomes params start stop).Tells outcomes
        (DuplicateKey requests fault params.requestId) ↔
      fault = none ∧ (DuplicateKey requests fault params.requestId ∨
        ¬ DeviceRun.FailsRetried cfg connected outcomes) := by
  have hsummary := DeviceRun.openGate_summary cfg connected outcomes
  have hcases := checkAndRegisterRequestId_cases requests params.requestId params.userId start fault
  rw [DeviceRun.failsRetried_iff]
  unfold openByUser OpenRun.Tells
  generalize DeviceRun.openGate cfg connected outcomes = device at hsummary
  rcases hcases with ⟨message, hfault, heq⟩ | ⟨hdup, message, heq⟩ | ⟨hfault, hdup, heq⟩
  · -- the record says that the device call was attempted
    simp only [heq, List.cons.injEq, and_true, exists_eq_left', hfault, false_and, iff_false]
    intro h
    have := h.attempted
    simp [Open.record, OpenError.outcome] at this
  · simp only [heq, List.cons.injEq, and_true, exists_eq_left']
    refine iff_of_true ⟨?_, ?_, ?_, ?_, ?_⟩ ⟨hdup.1, .inl hdup⟩ <;>
      simp [Open.record, OpenError.outcome, hdup]
  · subst hfault
    simp only [heq, hdup, true_and, false_or]
    split
    next error herror =>
      simp only [List.cons.injEq, and_true, exists_eq_left']
      rw [GateLog.tells_of_error hsummary herror not_false rfl rfl]
      simp [herror]
    next hok =>
      simp only [List.cons.injEq, and_true, exists_eq_left']
      exact iff_of_true (GateLog.tells_of_ok hsummary hok not_false rfl rfl) (by simp [hok])

/-- The audit record of either call tells what happened, except when the database fails on the
    request id and when the device call fails after a retry. -/
theorem audit_record_tells_iff (cfg : GateConfig) (connected : Bool) (outcomes : Nat → Settled)
    (start stop : Nat) :
    (∀ (requests : List GateRequest) (fault : Option DatabaseFault) (params : OpenParams),
      (openByUser cfg requests fault connected outcomes params start stop).Tells outcomes
          (DuplicateKey requests fault params.requestId) ↔
        fault = none ∧ (DuplicateKey requests fault params.requestId ∨
          ¬ DeviceRun.FailsRetried cfg connected outcomes)) ∧
    ∀ (params : BackdoorParams) (randomUUID : String),
      (openByAdminBackdoor cfg connected outcomes params randomUUID start stop).Tells outcomes
          False ↔
        ¬ DeviceRun.FailsRetried cfg connected outcomes :=
  ⟨fun requests fault params =>
      openByUser_tells_iff cfg requests fault connected outcomes params start stop,
    fun params randomUUID =>
      openByAdminBackdoor_tells_iff cfg connected outcomes params randomUUID start stop⟩

/-- The device answers both attempts with an error: the record says that nothing was retried. -/
theorem retries_not_recorded :
    ¬ (openByUser ⟨5000, 1, 250⟩ [] none true (fun _ => .rejected (.badGateway "MCU returned error"))
      ⟨"3b241101-e2bb-4255-8caf-4136c566a962", "u1", "u1@example.com", "d1", none, none, none⟩
      0 600).Tells (fun _ => .rejected (.badGateway "MCU returned error"))
        (DuplicateKey [] none "3b241101-e2bb-4255-8caf-4136c566a962") := by
  rintro ⟨log, hlog, h⟩
  obtain rfl : _ = log := (List.cons.inj hlog).1
  exact absurd h.retries (by decide)

end Backend
