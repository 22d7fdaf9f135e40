-- SUMMARY: The polling endpoint of the gate controller (`device.controller.ts`): the device token, the status that stands for a command, and what a poll reads and writes.
import Mathlib.Data.List.DropRight
import ParkingGate.Backend.AdminService
import ParkingGate.Backend.DeliveredOnce
import ParkingGate.Base.JsValue
import ParkingGate.Base.Readings

/-!
# The polling endpoint

`GET /device/pending-command` checks the token of the device against `DEVICE_TOKENS_JSON`, consumes
a pending command and tells it by the status of the answer. Anybody can send the request, so what
counts is which requests get past the check.
-/

namespace Backend

open CommandStore DeliveredOnce

/-! ## The check of the token -/

/-- A member of the parsed `DEVICE_TOKENS_JSON`. -/
inductive TokenValue where
  | string (value : String)
  /-- Not a string; `passes` tells that it is truthy and its `length` not below eight. -/
  | other (passes : Bool)

/-- `DEVICE_TOKENS_JSON` as it is configured. -/
inductive DeviceTokens where
  /-- Not set, or empty. -/
  | unset
  /-- `JSON.parse` throws, or the access to a member does. -/
  | invalid
  | parsed (token : String → Option TokenValue)

/-- The headers and the query of a request to the endpoint. -/
structure PollRequest where
  deviceIdHeader : Option String
  tokenHeader : Option String
  deviceIdQuery : Option String

/-- `s.trim()` -/
def trimText (s : String) : String :=
  String.ofList ((s.toList.dropWhile AdminService.isWhiteSpace).rdropWhile AdminService.isWhiteSpace)

namespace PollRequest

/-- `(deviceIdHeader || deviceIdQuery || '').trim()` -/
def deviceId (request : PollRequest) : String :=
  let found := if truthy request.deviceIdHeader then request.deviceIdHeader else request.deviceIdQuery
  trimText (found.getD "")

/-- `(tokenHeader || '').trim()` -/
def token (request : PollRequest) : String := trimText (request.tokenHeader.getD "")

end PollRequest

def getDeviceToken (tokens : DeviceTokens) (deviceId : String) :
    Except HttpException (Option TokenValue) :=
  match tokens with
  | .unset        => .ok none
  | .invalid      => .error (.badRequest "DEVICE_TOKENS_JSON is not valid JSON")
  | .parsed token => .ok (token deviceId)

def assertDeviceAuth (tokens : DeviceTokens) (deviceId token : String) : Except HttpException Unit := do
  match ← getDeviceToken tokens deviceId with
  | none => throw (.unauthorized "Device auth not configured")
  | some (.string expected) =>
    if textLength expected < 8 then throw (.unauthorized "Device auth not configured")
    if token ≠ expected then throw (.unauthorized "Invalid device token")
  | some (.other passes) =>
    if !passes then throw (.unauthorized "Device auth not configured")
    -- `token !== expected`: a header is always a string.
    throw (.unauthorized "Invalid device token")

/-- The request carries the token that is configured for its device. -/
def PollRequest.Authenticated (tokens : DeviceTokens) (request : PollRequest) : Prop :=
  ∃ token, tokens = .parsed token ∧ token request.deviceId = some (.string request.token) ∧
    8 ≤ textLength request.token

theorem assertDeviceAuth_ok_iff {tokens : DeviceTokens} {request : PollRequest} :
    assertDeviceAuth tokens request.deviceId request.token = .ok () ↔ request.Authenticated tokens := by
  unfold assertDeviceAuth PollRequest.Authenticated
  cases tokens with
  | unset => simp [getDeviceToken, bind, Except.bind, throw, throwThe, MonadExceptOf.throw]
  | invalid => simp [getDeviceToken, bind, Except.bind]
  | parsed token =>
    simp only [getDeviceToken, bind, Except.bind, DeviceTokens.parsed.injEq, exists_eq_left']
    rcases token request.deviceId with _ | (expected | passes)
    · simp [throw, throwThe, MonadExceptOf.throw]
    · by_cases hlength : textLength expected < 8
      · have hne : expected = request.token → ¬ 8 ≤ textLength request.token := by
          rintro rfl
          omega
        simpa [hlength, throw, throwThe, MonadExceptOf.throw] using hne
      · by_cases htoken : request.token = expected
        · simp [hlength, htoken, pure, Except.pure, Nat.le_of_not_lt hlength]
        · simp [hlength, htoken, throw, throwThe, MonadExceptOf.throw, Ne.symm htoken]
    · cases passes <;> simp [throw, throwThe, MonadExceptOf.throw]

/-! ## The endpoint -/

/-- An answer of the endpoint. -/
structure PollReply where
  status : Nat
  body : PendingResponse

/-- What the endpoint throws. -/
inductive PollError where
  | http (e : HttpException)
  /-- Not an `HttpException`: the server answers 500. -/
  | command (e : CommandError)

/-- The status that stands for a command. -/
def commandStatus : DeviceCommandAction → Nat
  | .reboot     => 205
  | .rebuildPpp => 206
  | .none       => 200

abbrev Poll := Prog CommandStore (Except PollError PollReply)

/-- `getPendingCommand`. -/
def getPendingCommand (tokens : DeviceTokens) (request : PollRequest) (now choice : Nat) :
    Fallible PollError CommandStore PollReply :=
  match assertDeviceAuth tokens request.deviceId request.token with
  | .error e => throw (.http e)
  | .ok _    => do
    let pending ← ExceptT.adapt PollError.command (consumePending request.deviceId now choice)
    return ⟨commandStatus pending.action, pending⟩

/-- The status of the answer. -/
def pollStatus : Except PollError PollReply → Nat
  | .ok reply                            => reply.status
  | .error (.http (.badRequest _))       => 400
  | .error (.http (.unauthorized _))     => 401
  | .error (.http (.forbidden _))        => 403
  | .error (.http (.forbiddenRejected ..)) => 403
  | .error (.http (.conflict _))         => 409
  | .error (.http (.notFound _))         => 404
  | .error (.http (.internal _))         => 500
  | .error (.command _)                  => 500

/-- The document that the answer was made of. -/
def repliedId : Except PollError PollReply → Option Nat
  | .ok reply => reply.body.id
  | .error _  => none

/-- The answer to a poll that has found `doc`. -/
def replyTo (deviceId : String) (doc : Option PendingCommand) : PollReply :=
  ⟨commandStatus (pendingResponse deviceId doc).action, pendingResponse deviceId doc⟩

/-- A poll that has found `doc` marks it and answers. -/
def marking (deviceId : String) (now : Nat) (doc : PendingCommand) : Poll :=
  .act (·.saveConsumed doc.id now) fun s =>
    if s.has doc.id then .ret (.ok (replyTo deviceId (some doc)))
    else .ret (.error (.command .documentNotFound))

/-- What a poll does once it has found `doc`, or nothing. -/
def afterLookup (deviceId : String) (now : Nat) : Option PendingCommand → Poll
  | none     => .ret (.ok (replyTo deviceId none))
  | some doc => marking deviceId now doc

/-- A refused request ends at once; the others make one lookup and at most one write. -/
theorem getPendingCommand_prog (tokens : DeviceTokens) (request : PollRequest) (now choice : Nat) :
    (∃ e, (getPendingCommand tokens request now choice).prog = .ret (.error (.http e))) ∨
      request.Authenticated tokens ∧ (getPendingCommand tokens request now choice).prog =
        .act id fun s =>
          afterLookup request.deviceId now (s.findPending request.deviceId now choice) := by
  unfold getPendingCommand
  cases hauth : assertDeviceAuth tokens request.deviceId request.token with
  | error e => exact .inl ⟨e, rfl⟩
  | ok _ =>
    refine .inr ⟨assertDeviceAuth_ok_iff.mp hauth, ?_⟩
    have hadapt : Fallible.prog
          (ExceptT.adapt PollError.command (consumePending request.deviceId now choice)) =
        (consumePending request.deviceId now choice).prog >>= fun r =>
          .ret (r.mapError PollError.command) := rfl
    rw [Fallible.prog_bind, hadapt, consumePending, Fallible.prog_atomically_bind, Prog.act_bind,
      Prog.act_bind]
    congr 1
    funext s
    dsimp only
    cases s.findPending request.deviceId now choice with
    | none => rfl
    | some doc =>
      simp only [Fallible.prog_atomically_bind, Prog.act_bind, afterLookup, marking]
      congr 1
      funext t
      cases t.has doc.id <;> rfl

/-- What has to be checked of a poll that others interrupt: its lookup, and its write, which comes
    in a later state than the lookup. -/
theorem yields_getPendingCommand {H : CommandStore → Prop} {G : CommandStore → CommandStore → Prop}
    {post : Except PollError PollReply → CommandStore → Prop} {s : CommandStore}
    {tokens : DeviceTokens} {request : PollRequest} {now choice : Nat}
    (hread : ∀ s, H s → G s s) (herror : ∀ e s, post (.error e) s)
    (hnone : ∀ s, post (.ok (replyTo request.deviceId none)) s)
    (hsave : ∀ t doc, H t → t.findPending request.deviceId now choice = some doc →
      request.Authenticated tokens → ∀ s, H s → G s (s.saveConsumed doc.id now) ∧
        (s.has doc.id = true →
          post (.ok (replyTo request.deviceId (some doc))) (s.saveConsumed doc.id now))) :
    (getPendingCommand tokens request now choice).prog.Yields H G post s := by
  rcases getPendingCommand_prog tokens request now choice with ⟨e, hprog⟩ | ⟨hauth, hprog⟩
  · rw [hprog]
    exact herror _ s
  · rw [hprog]
    refine fun t ht => ⟨hread t ht, ?_⟩
    beta_reduce
    cases hfound : t.findPending request.deviceId now choice with
    | none => exact hnone t
    | some doc =>
      refine fun s hs => ⟨(hsave t doc ht hfound hauth s hs).1, ?_⟩
      beta_reduce
      by_cases hhas : s.has doc.id = true
      · rw [if_pos hhas]
        exact (hsave t doc ht hfound hauth s hs).2 hhas
      · rw [if_neg hhas]
        exact herror _ _

end Backend
