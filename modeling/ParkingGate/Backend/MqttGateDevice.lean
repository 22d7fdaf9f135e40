-- SUMMARY: The backend's MQTT gate device (`mqtt-gate-device.service.ts`): open calls with retries, pending requests, timers and the events that settle them.
import Mathlib.Logic.Function.Basic
import ParkingGate.Base.Trace

/-!
# The MQTT gate device service

The service is an event-driven state machine. Its state holds the connection, the map of
pending requests, every promise that `publishCommandAndWaitForAck` ever returned (an
`Attempt`) and every call of `openGate` with the point it is suspended at. An event is
something the runtime delivers: an incoming message, a callback, a timer, or the
continuation of a call whose `await` is over. Any enabled event may come next.

Request ids are an arbitrary type, because the service only compares them.
-/

namespace Backend

/-- The HTTP errors the service throws, with their message. -/
inductive GateError where
  | badGateway (message : String)
  | gatewayTimeout (message : String)
  deriving DecidableEq

/-- How a promise was settled. -/
inductive Settled where
  | resolved
  | rejected (error : GateError)
  deriving DecidableEq

/-- The settings read in the constructor. -/
structure GateConfig where
  timeoutMs : Nat
  retryCount : Nat
  retryDelayMs : Nat

/-- `MqttCommandMessage`; the command is always `open`. -/
structure Command (Id : Type*) where
  requestId : Id
  userId : String
  issuedAt : Nat
  deriving DecidableEq

/-- `MqttAckMessage`. -/
structure Ack (Id : Type*) where
  requestId : Id
  ok : Bool
  errorCode : Option String
  deriving DecidableEq

/-- A promise of `publishCommandAndWaitForAck`, with its timer and its publish callback. -/
structure Attempt (Id : Type*) where
  /-- The call that made the attempt. -/
  call : Nat
  requestId : Id
  startTime : Nat
  outcome : Option Settled
  timerArmed : Bool
  /-- The callback of `client.publish` has not been called yet. -/
  callbackDue : Bool

/-- Where a call of `openGate` stands. -/
inductive CallState where
  /-- Waiting for a connection promise. -/
  | connecting (promise : Nat)
  /-- Sleeping before an attempt. -/
  | delaying (attempt : Nat) (wakeAt : Nat)
  /-- Waiting for the promise of an attempt. -/
  | waiting (attempt : Nat) (promise : Nat)
  /-- Resolved with `ok: true`, or thrown. -/
  | done (result : Except GateError Unit)

/-- `McuCallMetadata`; `attempted` is always set. -/
structure McuCallMetadata where
  timeout : Bool
  retries : Nat

structure Call (Id : Type*) where
  requestId : Id
  userId : String
  metadata : McuCallMetadata
  state : CallState

inductive Connection where
  | pending | resolved | rejected
  deriving DecidableEq

structure GateDevice (Id : Type*) where
  /-- `this.client` is set. -/
  client : Bool
  isConnected : Bool
  /-- Every connection promise so far; `connectionPromise` is one of them. -/
  connections : List Connection
  connectionPromise : Option Nat
  /-- `client.end` was called and has not called back. -/
  ending : Bool
  pendingRequests : Id → Option Nat
  attempts : List (Attempt Id)
  calls : List (Call Id)
  /-- Everything handed to `client.publish`, oldest first. -/
  published : List (Command Id)
  clock : Nat

inductive GateEvent (Id : Type*) where
  /-- A call of `openGate`. `created` says whether `mqtt.connect` returns a client. -/
  | openGate (requestId : Id) (userId : String) (created : Bool)
  | onModuleInit (created : Bool)
  | mqttConnect
  /-- `close`, `offline` or `error` of the client. -/
  | mqttClosed
  /-- The callback of `client.subscribe`. -/
  | subscribed (promise : Nat) (ok : Bool)
  /-- A call continues after its `await`. -/
  | resume (call : Nat)
  | ack (message : Ack Id)
  | publishCallback (attempt : Nat) (error : Bool)
  | timer (attempt : Nat)
  | disconnect
  /-- The callback of `client.end`. -/
  | ended
  | tick (ms : Nat)

/-! ## Changing one entry of a list -/

/-- An entry of a list in which one entry was changed. -/
theorem getElem?_modify_cases {α : Type*} {l : List α} {f : α → α} {i j : Nat} {y : α}
    (h : (l.modify i f)[j]? = some y) : ∃ x, l[j]? = some x ∧ y = if i = j then f x else x := by
  rw [List.getElem?_modify] at h
  obtain ⟨x, hx, rfl⟩ := Option.map_eq_some_iff.mp h
  exact ⟨x, hx, rfl⟩

/-- A change that `g` does not see. -/
theorem map_modify_of_eq {α β : Type*} {l : List α} {f : α → α} {g : α → β} (i : Nat)
    (h : ∀ x, g (f x) = g x) : (l.modify i f).map g = l.map g := by
  refine List.ext_getElem? fun j => ?_
  rw [List.getElem?_map, List.getElem?_map, List.getElem?_modify]
  cases l[j]? with
  | none => rfl
  | some x => by_cases hij : i = j <;> simp [hij, h]

theorem getElem?_concat_of_some {α : Type*} {l : List α} {x y : α} {i : Nat} (h : l[i]? = some y) :
    (l ++ [x])[i]? = some y :=
  (List.getElem?_append_left (List.getElem?_eq_some_iff.mp h).1).trans h

/-- An entry of a list that was extended by `x`. -/
theorem getElem?_concat_cases {α : Type*} {l : List α} {x y : α} {i : Nat}
    (h : (l ++ [x])[i]? = some y) : l[i]? = some y ∨ i = l.length ∧ y = x := by
  rcases Nat.lt_or_ge i l.length with hlt | hge
  · exact .inl ((List.getElem?_append_left hlt).symm.trans h)
  · rw [List.getElem?_append_right hge, List.getElem?_singleton] at h
    split at h
    · exact .inr ⟨by omega, (Option.some.inj h).symm⟩
    · cases h

namespace Attempt

variable {Id : Type*}

/-- Settling a promise a second time has no effect. -/
def settle (att : Attempt Id) (outcome : Settled) : Attempt Id :=
  { att with outcome := some (att.outcome.getD outcome) }

def clearTimeout (att : Attempt Id) : Attempt Id := { att with timerArmed := false }

end Attempt

namespace GateDevice

variable {Id : Type*} [DecidableEq Id]

def init : GateDevice Id where
  client := false
  isConnected := false
  connections := []
  connectionPromise := none
  ending := false
  pendingRequests _ := none
  attempts := []
  calls := []
  published := []
  clock := 0

/-! ## Pieces -/

def settle (s : GateDevice Id) (a : Nat) (outcome : Settled) : GateDevice Id :=
  { s with attempts := s.attempts.modify a (·.settle outcome) }

def clearTimeout (s : GateDevice Id) (a : Nat) : GateDevice Id :=
  { s with attempts := s.attempts.modify a Attempt.clearTimeout }

/-- `pendingRequests.delete(requestId)`. -/
def deletePending (s : GateDevice Id) (requestId : Id) : GateDevice Id :=
  { s with pendingRequests := Function.update s.pendingRequests requestId none }

def setCallState (s : GateDevice Id) (i : Nat) (state : CallState) : GateDevice Id :=
  { s with calls := s.calls.modify i fun c => { c with state := state } }

def setMetadata (s : GateDevice Id) (i : Nat) (metadata : McuCallMetadata) : GateDevice Id :=
  { s with calls := s.calls.modify i fun c => { c with metadata := metadata } }

def addCall (s : GateDevice Id) (c : Call Id) : GateDevice Id := { s with calls := s.calls ++ [c] }

/-- `connect()`: the promise that the caller waits for. -/
def connect (s : GateDevice Id) (created : Bool) : Nat × GateDevice Id :=
  match s.connectionPromise with
  | some promise => (promise, s)
  | none =>
    let promise := s.connections.length
    if created then
      (promise, { s with
        client := true
        connections := s.connections ++ [.pending]
        connectionPromise := some promise })
    -- The promise is rejected at once, and `connectionPromise` is null again.
    else (promise, { s with connections := s.connections ++ [.rejected] })

omit [DecidableEq Id] in
/-- Connecting only touches the connection. -/
theorem connect_frame (s : GateDevice Id) (created : Bool) :
    (s.connect created).2.pendingRequests = s.pendingRequests ∧
      (s.connect created).2.attempts = s.attempts ∧ (s.connect created).2.calls = s.calls ∧
      (s.connect created).2.published = s.published := by
  unfold connect
  split
  · exact ⟨rfl, rfl, rfl, rfl⟩
  · split <;> exact ⟨rfl, rfl, rfl, rfl⟩

/-- `publishCommandAndWaitForAck` for call `i`: the promise it returns. -/
def publishCommandAndWaitForAck (s : GateDevice Id) (i : Nat) (requestId : Id)
    (userId : String) : Nat × GateDevice Id :=
  let promise := s.attempts.length
  if !s.client || !s.isConnected then
    (promise, { s with
      attempts := s.attempts ++ [{
        call := i
        requestId := requestId
        startTime := s.clock
        outcome := some (.rejected (.badGateway "MQTT client not connected"))
        timerArmed := false
        callbackDue := false }] })
  else
    (promise, { s with
      attempts := s.attempts ++ [{
        call := i
        requestId := requestId
        startTime := s.clock
        outcome := none
        timerArmed := true
        callbackDue := true }]
      pendingRequests := Function.update s.pendingRequests requestId (some promise)
      published := s.published ++ [⟨requestId, userId, s.clock⟩] })

@[simp] theorem publishCommandAndWaitForAck_promise (s : GateDevice Id) (i : Nat) (requestId : Id)
    (userId : String) :
    (s.publishCommandAndWaitForAck i requestId userId).1 = s.attempts.length := by
  unfold publishCommandAndWaitForAck
  split <;> rfl

@[simp] theorem publishCommandAndWaitForAck_calls (s : GateDevice Id) (i : Nat) (requestId : Id)
    (userId : String) :
    (s.publishCommandAndWaitForAck i requestId userId).2.calls = s.calls := by
  unfold publishCommandAndWaitForAck
  split <;> rfl

/-- Call `i` begins attempt `n` and waits for its promise. -/
def startAttempt (s : GateDevice Id) (i : Nat) (c : Call Id) (n : Nat) : GateDevice Id :=
  let out := s.publishCommandAndWaitForAck i c.requestId c.userId
  out.2.setCallState i (.waiting n out.1)

theorem startAttempt_eq (s : GateDevice Id) (i : Nat) (c : Call Id) (n : Nat) :
    s.startAttempt i c n = (s.publishCommandAndWaitForAck i c.requestId c.userId).2.setCallState i
      (.waiting n s.attempts.length) := by
  rw [startAttempt, publishCommandAndWaitForAck_promise]

/-! ## Events -/

def openGate (s : GateDevice Id) (requestId : Id) (userId : String) (created : Bool) :
    GateDevice Id :=
  let call := fun state : CallState => (⟨requestId, userId, ⟨false, 0⟩, state⟩ : Call Id)
  if !s.isConnected || !s.client then
    let out := s.connect created
    out.2.addCall (call (.connecting out.1))
  else
    let out := s.publishCommandAndWaitForAck s.calls.length requestId userId
    out.2.addCall (call (.waiting 0 out.1))

theorem openGate_cases (s : GateDevice Id) (requestId : Id) (userId : String) (created : Bool) :
    (∃ promise, s.openGate requestId userId created =
      (s.connect created).2.addCall ⟨requestId, userId, ⟨false, 0⟩, .connecting promise⟩) ∨
    s.openGate requestId userId created =
      (s.publishCommandAndWaitForAck s.calls.length requestId userId).2.addCall
        ⟨requestId, userId, ⟨false, 0⟩, .waiting 0 s.attempts.length⟩ := by
  unfold openGate
  split
  · exact .inl ⟨_, rfl⟩
  · refine .inr ?_
    simp only
    rw [publishCommandAndWaitForAck_promise]

/-- The rest of call `i` after its `await`; `none` while the promise is pending. -/
def continueCall (cfg : GateConfig) (s : GateDevice Id) (i : Nat) (c : Call Id) :
    Option (GateDevice Id) :=
  match c.state with
  | .connecting promise =>
    match s.connections[promise]? with
    | some .resolved => some (s.startAttempt i c 0)
    | some .rejected => some (s.setCallState i (.done (.error (.badGateway
        "שגיאה בתקשורת עם השער: לא ניתן להתחבר ל-MQTT broker"))))
    | some .pending | none => none
  | .delaying n wakeAt => if wakeAt ≤ s.clock then some (s.startAttempt i c n) else none
  | .waiting n promise =>
    match s.attempts[promise]?.bind (·.outcome) with
    | none => none
    | some .resolved => some (s.setCallState i (.done (.ok ())))
    -- A timeout is not retried.
    | some (.rejected (.gatewayTimeout message)) =>
      some ((s.setMetadata i { c.metadata with timeout := true }).setCallState i
        (.done (.error (.gatewayTimeout message))))
    | some (.rejected (.badGateway _)) =>
      if n < cfg.retryCount then
        some ((s.setMetadata i { c.metadata with retries := n + 1 }).setCallState i
          (.delaying (n + 1) (s.clock + cfg.retryDelayMs)))
      else some (s.setCallState i (.done (.error (.badGateway "שגיאה בתקשורת עם השער"))))
  | .done _ => none

def resume (cfg : GateConfig) (s : GateDevice Id) (i : Nat) : Option (GateDevice Id) :=
  s.calls[i]?.bind (s.continueCall cfg i)

def handleAckMessage (s : GateDevice Id) (ack : Ack Id) : GateDevice Id :=
  match s.pendingRequests ack.requestId with
  | none => s
  | some a =>
    let s := (s.clearTimeout a).deletePending ack.requestId
    if ack.ok then s.settle a .resolved
    else
      let errorMsg := match ack.errorCode with
        | some errorCode => if errorCode = "" then "MCU returned error" else "MCU error: " ++ errorCode
        | none           => "MCU returned error"
      s.settle a (.rejected (.badGateway errorMsg))

def publishCallback (s : GateDevice Id) (a : Nat) (error : Bool) : Option (GateDevice Id) :=
  s.attempts[a]?.bind fun att =>
    if !att.callbackDue then none
    else
      let s := { s with
        attempts := s.attempts.modify a fun att => { att with callbackDue := false } }
      if error then
        some (((s.clearTimeout a).deletePending att.requestId).settle a
          (.rejected (.badGateway "שגיאה בשליחת פקודה להשער")))
      else some s

/-- The timer of attempt `a` fires; it rejects whatever is pending under its request id. -/
def timer (cfg : GateConfig) (s : GateDevice Id) (a : Nat) : Option (GateDevice Id) :=
  s.attempts[a]?.bind fun att =>
    if !att.timerArmed || s.clock < att.startTime + cfg.timeoutMs then none
    else
      let s := s.clearTimeout a
      match s.pendingRequests att.requestId with
      | none   => some s
      | some b => some ((s.deletePending att.requestId).settle b
          (.rejected (.gatewayTimeout "תקשורת עם השער ארכה יותר מדי זמן")))

def disconnect (s : GateDevice Id) : GateDevice Id :=
  { s with
    attempts := s.attempts.mapIdx fun a att =>
      if s.pendingRequests att.requestId = some a then
        att.clearTimeout.settle (.rejected (.badGateway "MQTT client disconnecting"))
      else att
    pendingRequests := fun _ => none
    ending := s.ending || s.client }

/-- One event; `none` when it cannot happen. -/
def step (cfg : GateConfig) (s : GateDevice Id) : GateEvent Id → Option (GateDevice Id)
  | .openGate requestId userId created => some (s.openGate requestId userId created)
  | .onModuleInit created => some (s.connect created).2
  | .mqttConnect => if s.client then some { s with isConnected := true } else none
  | .mqttClosed => some { s with isConnected := false }
  | .subscribed promise ok =>
    if s.connections[promise]? = some .pending then
      some { s with
        connections := s.connections.set promise (if ok then .resolved else .rejected)
        connectionPromise := if ok then s.connectionPromise else none }
    else some s
  | .resume i => s.resume cfg i
  | .ack message => some (s.handleAckMessage message)
  | .publishCallback a error => s.publishCallback a error
  | .timer a => s.timer cfg a
  | .disconnect => some s.disconnect
  | .ended =>
    if s.ending then
      some { s with client := false, isConnected := false, connectionPromise := none, ending := false }
    else none
  | .tick ms => some { s with clock := s.clock + ms }

/-! ## What an event does -/

/-- What call `i` does after its `await`. -/
inductive Resumed (s : GateDevice Id) (i : Nat) (c : Call Id) : GateDevice Id → Prop
  /-- It begins an attempt, not having waited for one. -/
  | attempt (n : Nat) (hstate : ∀ n a, c.state ≠ .waiting n a) : Resumed s i c (s.startAttempt i c n)
  /-- It sleeps or ends; it returns `ok: true` only if the attempt it waited for has resolved. -/
  | next (t : GateDevice Id) (state : CallState)
      (ht : t = s ∨ ∃ metadata, t = s.setMetadata i metadata)
      (hsettled : ∀ n a, c.state = .waiting n a → s.attempts[a]?.bind (·.outcome) ≠ none)
      (hstate : ∀ n a, state ≠ .waiting n a)
      (hdone : state = .done (.ok ()) →
        ∃ n a, c.state = .waiting n a ∧ s.attempts[a]?.bind (·.outcome) = some .resolved) :
      Resumed s i c (t.setCallState i state)

theorem resume_cases {cfg : GateConfig} {s s' : GateDevice Id} {i : Nat}
    (h : s.resume cfg i = some s') : ∃ c, s.calls[i]? = some c ∧ Resumed s i c s' := by
  obtain ⟨c, hc, hrun⟩ := Option.bind_eq_some_iff.mp h
  refine ⟨c, hc, ?_⟩
  unfold continueCall at hrun
  cases hstate : c.state with
  | connecting promise =>
    simp only [hstate] at hrun
    split at hrun
    · exact Option.some.inj hrun ▸ .attempt 0 (by simp [hstate])
    · exact Option.some.inj hrun ▸ .next s _ (.inl rfl) (by simp [hstate]) (by simp) (by simp)
    · cases hrun
    · cases hrun
  | delaying n wakeAt =>
    simp only [hstate, Option.ite_none_right_eq_some, Option.some.injEq] at hrun
    exact hrun.2 ▸ .attempt n (by simp [hstate])
  | waiting n promise =>
    simp only [hstate] at hrun
    cases hout : s.attempts[promise]?.bind (·.outcome) with
    | none => simp [hout] at hrun
    | some outcome =>
      have hsettled : ∀ n' a, c.state = .waiting n' a →
          s.attempts[a]?.bind (·.outcome) ≠ none := by
        intro n' a hw
        obtain ⟨-, rfl⟩ : n = n' ∧ promise = a := by simpa [hstate] using hw
        simp [hout]
      simp only [hout] at hrun
      split at hrun
      · cases hrun
      · rename_i hresolved
        exact Option.some.inj hrun ▸ .next s _ (.inl rfl) hsettled (by simp) fun _ =>
          ⟨n, promise, hstate, hout.trans hresolved⟩
      · exact Option.some.inj hrun ▸ .next _ _ (.inr ⟨_, rfl⟩) hsettled (by simp) (by simp)
      · split at hrun
        · exact Option.some.inj hrun ▸ .next _ _ (.inr ⟨_, rfl⟩) hsettled (by simp) (by simp)
        · exact Option.some.inj hrun ▸ .next s _ (.inl rfl) hsettled (by simp) (by simp)
  | done result => simp [hstate] at hrun

/-- What an event does: events about the connection and the clock leave the attempts, the
    calls and the commands alone. -/
inductive Steps (cfg : GateConfig) (s : GateDevice Id) : GateEvent Id → GateDevice Id → Prop
  | openGate (requestId : Id) (userId : String) (created : Bool) :
      Steps cfg s (.openGate requestId userId created) (s.openGate requestId userId created)
  | resume {i : Nat} {c : Call Id} {s' : GateDevice Id} (hc : s.calls[i]? = some c)
      (h : Resumed s i c s') : Steps cfg s (.resume i) s'
  | ack (message : Ack Id) : Steps cfg s (.ack message) (s.handleAckMessage message)
  | publishCallback {a : Nat} {error : Bool} {s' : GateDevice Id}
      (h : s.publishCallback a error = some s') : Steps cfg s (.publishCallback a error) s'
  | timer {a : Nat} {s' : GateDevice Id} (h : s.timer cfg a = some s') : Steps cfg s (.timer a) s'
  | disconnect : Steps cfg s .disconnect s.disconnect
  | idle {e : GateEvent Id} {s' : GateDevice Id} (he : ∀ r u b, e ≠ .openGate r u b)
      (hpending : s'.pendingRequests = s.pendingRequests) (hattempts : s'.attempts = s.attempts)
      (hcalls : s'.calls = s.calls) (hpublished : s'.published = s.published) : Steps cfg s e s'

theorem step_cases {cfg : GateConfig} {s s' : GateDevice Id} {e : GateEvent Id}
    (h : step cfg s e = some s') : Steps cfg s e s' := by
  cases e with
  | openGate r userId created => exact Option.some.inj h ▸ .openGate r userId created
  | resume i =>
    obtain ⟨c, hc, hresumed⟩ := resume_cases h
    exact .resume hc hresumed
  | ack message => exact Option.some.inj h ▸ .ack message
  | publishCallback a error => exact .publishCallback h
  | timer a => exact .timer h
  | disconnect => exact Option.some.inj h ▸ .disconnect
  | onModuleInit created =>
    obtain ⟨hpending, hattempts, hcalls, hpublished⟩ := s.connect_frame created
    exact Option.some.inj h ▸ .idle (by simp) hpending hattempts hcalls hpublished
  | mqttConnect | ended =>
    simp only [step, Option.ite_none_right_eq_some, Option.some.injEq] at h
    exact h.2 ▸ .idle (by simp) rfl rfl rfl rfl
  | mqttClosed | tick ms => exact Option.some.inj h ▸ .idle (by simp) rfl rfl rfl rfl
  | subscribed promise ok =>
    simp only [step] at h
    split at h <;> exact Option.some.inj h ▸ .idle (by simp) rfl rfl rfl rfl

/-! ## The calls and the commands -/

/-- The request ids that `openGate` is called with. -/
def openedIds (es : List (GateEvent Id)) : List Id :=
  es.filterMap fun
    | .openGate requestId _ _ => some requestId
    | _ => none

omit [DecidableEq Id] in
theorem openedIds_eq_nil {e : GateEvent Id} (h : ∀ r u b, e ≠ .openGate r u b) :
    openedIds [e] = [] := by
  cases e with
  | openGate r u b => exact absurd rfl (h r u b)
  | _ => rfl

omit [DecidableEq Id] in
theorem setCallState_ids (s : GateDevice Id) (i : Nat) (state : CallState) :
    (s.setCallState i state).calls.map (·.requestId) = s.calls.map (·.requestId) :=
  map_modify_of_eq i fun _ => rfl

omit [DecidableEq Id] in
theorem setMetadata_ids (s : GateDevice Id) (i : Nat) (metadata : McuCallMetadata) :
    (s.setMetadata i metadata).calls.map (·.requestId) = s.calls.map (·.requestId) :=
  map_modify_of_eq i fun _ => rfl

theorem startAttempt_ids (s : GateDevice Id) (i : Nat) (c : Call Id) (n : Nat) :
    (s.startAttempt i c n).calls.map (·.requestId) = s.calls.map (·.requestId) := by
  rw [startAttempt_eq, setCallState_ids, publishCommandAndWaitForAck_calls]

/-- An attempt publishes a command with its own request id, if any. -/
theorem mem_published_of_publish {s : GateDevice Id} {i : Nat} {r : Id} {userId : String}
    {cmd : Command Id} (h : cmd ∈ (s.publishCommandAndWaitForAck i r userId).2.published) :
    cmd ∈ s.published ∨ cmd.requestId = r := by
  unfold publishCommandAndWaitForAck at h
  split at h
  · exact .inl h
  · rcases List.mem_append.mp h with h | h
    · exact .inl h
    · exact .inr (List.mem_singleton.mp h ▸ rfl)

theorem handleAckMessage_frame (s : GateDevice Id) (ack : Ack Id) :
    (s.handleAckMessage ack).calls = s.calls ∧ (s.handleAckMessage ack).published = s.published := by
  unfold handleAckMessage
  split
  · exact ⟨rfl, rfl⟩
  · split <;> exact ⟨rfl, rfl⟩

theorem publishCallback_frame {s s' : GateDevice Id} {a : Nat} {error : Bool}
    (h : s.publishCallback a error = some s') :
    s'.calls = s.calls ∧ s'.published = s.published := by
  obtain ⟨att, -, hrun⟩ := Option.bind_eq_some_iff.mp h
  split at hrun
  · cases hrun
  · split at hrun <;> exact Option.some.inj hrun ▸ ⟨rfl, rfl⟩

theorem timer_frame {cfg : GateConfig} {s s' : GateDevice Id} {a : Nat}
    (h : s.timer cfg a = some s') : s'.calls = s.calls ∧ s'.published = s.published := by
  obtain ⟨att, -, hrun⟩ := Option.bind_eq_some_iff.mp h
  split at hrun
  · cases hrun
  · simp only at hrun
    split at hrun <;> exact Option.some.inj hrun ▸ ⟨rfl, rfl⟩

/-- Only `openGate` adds a call, and no event changes the request id of one. -/
theorem step_callIds {cfg : GateConfig} {s s' : GateDevice Id} {e : GateEvent Id}
    (hstep : step cfg s e = some s') :
    s'.calls.map (·.requestId) = s.calls.map (·.requestId) ++ openedIds [e] := by
  cases step_cases hstep with
  | openGate r userId created =>
    rcases s.openGate_cases r userId created with ⟨promise, heq⟩ | heq <;> rw [heq, addCall]
    · simp [openedIds, (s.connect_frame created).2.2.1]
    · simp [openedIds]
  | resume hc h =>
    rw [openedIds_eq_nil (by simp), List.append_nil]
    cases h with
    | attempt n => exact startAttempt_ids _ _ _ _
    | next t state ht =>
      rw [setCallState_ids]
      rcases ht with rfl | ⟨metadata, rfl⟩
      · rfl
      · exact setMetadata_ids _ _ _
  | ack message =>
    rw [openedIds_eq_nil (by simp), List.append_nil, (s.handleAckMessage_frame message).1]
  | publishCallback h =>
    rw [openedIds_eq_nil (by simp), List.append_nil, (publishCallback_frame h).1]
  | timer h =>
    rw [openedIds_eq_nil (by simp), List.append_nil, (timer_frame h).1]
  | disconnect => simp [openedIds, disconnect]
  | idle he _ _ hcalls =>
    rw [openedIds_eq_nil he, List.append_nil, hcalls]

/-- A command is published for a call. -/
theorem step_published {cfg : GateConfig} {s s' : GateDevice Id} {e : GateEvent Id}
    (hstep : step cfg s e = some s') :
    ∀ cmd ∈ s'.published, cmd ∈ s.published ∨ cmd.requestId ∈ s'.calls.map (·.requestId) := by
  intro cmd hcmd
  have hids := step_callIds hstep
  cases step_cases hstep with
  | openGate r userId created =>
    rcases s.openGate_cases r userId created with ⟨promise, heq⟩ | heq
    · rw [heq, addCall, (s.connect_frame created).2.2.2] at hcmd
      exact .inl hcmd
    · rw [heq] at hcmd
      refine (mem_published_of_publish hcmd).imp_right fun hid => ?_
      rw [hids, hid]
      simp [openedIds]
  | resume hc h =>
    cases h with
    | attempt n =>
      refine (mem_published_of_publish hcmd).imp_right fun hid => ?_
      rw [hids, hid]
      exact List.mem_append_left _ (List.mem_map.mpr ⟨_, List.mem_of_getElem? hc, rfl⟩)
    | next t state ht =>
      rcases ht with rfl | ⟨metadata, rfl⟩
      · exact .inl hcmd
      · exact .inl hcmd
  | ack message => exact .inl ((s.handleAckMessage_frame message).2 ▸ hcmd)
  | publishCallback h => exact .inl ((publishCallback_frame h).2 ▸ hcmd)
  | timer h => exact .inl ((timer_frame h).2 ▸ hcmd)
  | disconnect => exact .inl hcmd
  | idle _ _ _ _ hpublished => exact .inl (hpublished ▸ hcmd)

end GateDevice

end Backend
