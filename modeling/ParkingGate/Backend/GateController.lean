-- SUMMARY: The route POST /gate/open: its guards, its controller, `openByUser` and the exception filter, as a program that waits for the database and the gate device.
import ParkingGate.Backend.Guards
import ParkingGate.Backend.GateService
import ParkingGate.Base.Async

/-!
# The route `POST /gate/open`

A request passes the two throttlers, `JwtStrategy` and `ApprovedGuard` before the handler runs.
Each operation on the database, the look into the throttler's storage and the call of the gate
device are awaited, so that other requests come in between; each may fail.

Only the guards answer 401. `openByUser` registers the request id first, and nothing it throws
has that status.
-/

namespace Backend

def HttpException.getStatus : HttpException → Nat
  | .badRequest _          => 400
  | .unauthorized _        => 401
  | .forbidden _           => 403
  | .forbiddenRejected _ _ => 403
  | .conflict _            => 409
  | .notFound _            => 404
  | .internal _            => 500

def OpenError.getStatus : OpenError → Nat
  | .conflict _               => 409
  | .gate (.badGateway _)     => 502
  | .gate (.gatewayTimeout _) => 504
  | .database _               => 500

/-- Nothing that `openByUser` throws has the status 401. -/
theorem OpenError.getStatus_ne (e : OpenError) : e.getStatus ≠ 401 := by
  cases e with
  | conflict _ => simp [getStatus]
  | gate e     => cases e <;> simp [getStatus]
  | database _ => simp [getStatus]

namespace GateRoute

/-- What the route throws. A throttler may throw before the request has a user. -/
inductive RouteError where
  | http (e : HttpException)
  | throttler (user : Option AuthUser)
  | openByUser (e : OpenError)
  | other (message : String)

/-- The status of the response. -/
def RouteError.getStatus : RouteError → Nat
  | .http e       => e.getStatus
  | .throttler _  => 429
  | .openByUser e => e.getStatus
  | .other _      => 500

/-- The status of a `POST` handler that returns is 201. -/
def statusOf : Except RouteError Unit → Nat
  | .ok ()   => 201
  | .error e => e.getStatus

/-- What the route reads of a request. -/
structure IncomingRequest where
  authorization : Option String
  xRequestId : Option String
  ip : Option String
  userAgent : Option String

/-- What the route works on: the collections, the calls of `openGate` by their request ids, and
    the clock. -/
structure RouteState where
  store : Store
  requests : List GateRequest
  logs : List GateLog
  opened : List String
  now : Nat

/-- What the route waits for: an operation on the database, the throttler, the insertion of the
    `GateRequest` record, the gate device, the insertion of the `GateLog` record, and at its end
    that the response is sent. -/
inductive RouteAsk where
  | database
  | throttler
  | insertRequest
  | openGate (requestId userId : String)
  | insertLog (log : GateLog) (result : Except OpenError Unit)
  | respond (result : Except RouteError Unit)

/-- The error of a failed operation; whether a throttler refuses; what `openGate` ends with. -/
abbrev RouteAnswer : RouteAsk → Type
  | .database      => Option String
  | .throttler     => Bool
  | .insertRequest => Option DatabaseFault
  | .openGate ..   => McuCallMetadata × Except GateError Unit
  | .insertLog ..  => Option DatabaseFault
  | .respond _     => Unit

abbrev Route := ExceptT RouteError (Async RouteState RouteAnswer)

namespace Route

def atomically {α : Type} (f : RouteState → α × RouteState) : Route α :=
  ExceptT.lift (Async.atomically f)

def ask (q : RouteAsk) : Route (RouteAnswer q) := ExceptT.lift (Async.ask q)

def now : Route Nat := atomically fun s => (s.now, s)

section WeakestPre

variable {E : Async.Entry RouteAnswer → RouteState → RouteAsk → RouteState → Prop}
  {entry : Async.Entry RouteAnswer} {s₀ s : RouteState}

theorem wp_atomically {α : Type} {f : RouteState → α × RouteState}
    {post : Async.Entry RouteAnswer → RouteState → Except RouteError α → RouteState → Prop} :
    Async.wp E post entry s₀ (atomically f).run s ↔ post entry s₀ (.ok (f s).1) (f s).2 := by
  rw [atomically, Async.wp_run_lift, Async.wp_atomically]

theorem wp_ask {q : RouteAsk}
    {post : Async.Entry RouteAnswer → RouteState → Except RouteError (RouteAnswer q) →
      RouteState → Prop} :
    Async.wp E post entry s₀ (ask q).run s ↔
      E entry s₀ q s ∧ ∀ a s', post (.answered q a) s' (.ok a) s' := by
  rw [ask, Async.wp_run_lift, Async.wp_ask]

end WeakestPre

/-- A service method: every operation on the database is awaited. -/
def database {α : Type} : Prog Store (Except HttpException α) → Route α
  | .ret (.ok a)    => pure a
  | .ret (.error e) => throw (.http e)
  | .act upd next   => do
    let fault : Option String ← ask .database
    match fault with
    | some message => throw (.other message)
    | none =>
      let store ← atomically fun s => (s.store, { s with store := upd s.store })
      database (next store)

/-- A throttler guard. -/
def throttle (user : Option AuthUser) : Route Unit := do
  let blocked : Bool ← ask .throttler
  if blocked then throw (.throttler user)

end Route

open Route

/-- `authorization.split(' ')`, where the scheme is `bearer` in any case. -/
def extractJwtFromRequest (authorization : Option String) : Option String :=
  match ((authorization.getD "").toList.splitOn ' ').map String.ofList with
  | scheme :: token :: _ =>
    if scheme = "" ∨ scheme.toLower ≠ "bearer" ∨ token = "" then none else some token
  | _ => none

def isHexDigit (c : Char) : Bool :=
  c.isDigit || ('a' ≤ c ∧ c ≤ 'f') || ('A' ≤ c ∧ c ≤ 'F')

/-- `/^[0-9a-f]{8}-[0-9a-f]{4}-[0-9a-f]{4}-[0-9a-f]{4}-[0-9a-f]{12}$/i` -/
def uuidRegex (s : String) : Bool :=
  let groups := s.toList.splitOn '-'
  groups.map List.length = [8, 4, 4, 4, 12] ∧ groups.all (·.all isHexDigit)

/-- `gateRequestModel.create` and its error. -/
def registerRequestId (params : OpenParams) : Route (Except OpenError Unit) := do
  let fault : Option DatabaseFault ← ask .insertRequest
  atomically fun s =>
    let (requests, result) :=
      checkAndRegisterRequestId s.requests params.requestId params.userId s.now fault
    (result, { s with requests := requests })

/-- The `finally` block: `gateLogModel.create`, whose error replaces the result. -/
def createLog (log : GateLog) (result : Except OpenError Unit) : Route Unit := do
  let fault : Option DatabaseFault ← ask (.insertLog log result)
  atomically fun s =>
    ((), { s with logs := if (fault.map (·.written)).getD true then s.logs ++ [log] else s.logs })
  match fault, result with
  | some fault, _    => throw (.openByUser (.database fault.message))
  | none, .error e => throw (.openByUser e)
  | none, .ok ()   => return ()

/-- The `catch` block of `openByUser`, and its `finally` block after it. -/
def failOpen (o : Open) (e : OpenError) : Route Unit := do
  let (status, failureReason, mcu) := e.outcome
  createLog (o.record (← now) status (some failureReason) mcu) (.error e)

def openByUser (params : OpenParams) : Route Unit := do
  let o := Open.start params (← now)
  match ← registerRequestId params with
  | .error e => failOpen o e
  | .ok () =>
    atomically fun s => ((), { s with opened := s.opened ++ [params.requestId] })
    let (metadata, result) : McuCallMetadata × Except GateError Unit ←
      ask (.openGate params.requestId params.userId)
    match result with
    | .error e => failOpen o (.gate e)
    | .ok ()   =>
      createLog (o.record (← now) .success none ⟨true, metadata.timeout, metadata.retries⟩) (.ok ())

/-- `GateController.open`. -/
def GateController.open (request : IncomingRequest) (authUser : AuthUser) : Route Unit := do
  match request.xRequestId with
  | none => throw (.http (.badRequest "נדרש X-Request-Id header"))
  | some requestId =>
    if requestId = "" then
      throw (.http (.badRequest "נדרש X-Request-Id header"))
    if !uuidRegex requestId then
      throw (.http (.badRequest "X-Request-Id חייב להיות UUID תקין"))
    let user ← database (UsersService.findById authUser.userId).prog
    openByUser {
      requestId := requestId
      userId := authUser.userId
      email := (user.map (·.email)).getD ""
      deviceId := authUser.deviceId
      sessionId := some authUser.sid
      ip := request.ip
      userAgent := request.userAgent }

/-- The guards in their order, then the handler. -/
def openRoute (crypto : Crypto) (request : IncomingRequest) : Route Unit := do
  throttle none
  match extractJwtFromRequest request.authorization with
  | none => throw (.http (.unauthorized "Unauthorized"))
  | some accessToken =>
    let authUser ← database (JwtStrategy.authenticate crypto accessToken (← now)).prog
    let _ ← database (ApprovedGuard.canActivate authUser).prog
    throttle (some authUser)
    GateController.open request authUser

/-- `GateExceptionFilter`: a refusal by a throttler is logged, and errors of that are ignored. -/
def logThrottled (request : IncomingRequest) :
    Except RouteError Unit → Async RouteState RouteAnswer Unit
  | .error (.throttler user) => do
    let fault : Option String ← Async.ask RouteAsk.database
    Async.atomically fun s => ((),
      { s with
        logs := if fault.isSome then s.logs else s.logs ++ [{
          requestId := match request.xRequestId with
            | some requestId => if requestId = "" then s!"error-{s.now}" else requestId
            | none           => s!"error-{s.now}"
          userId := user.map (·.userId)
          email := none
          deviceId := user.map (·.deviceId)
          sessionId := user.map (·.sid)
          ip := request.ip
          userAgent := request.userAgent
          openedBy := .user
          status := .blockedRateLimit
          failureReason := some "יותר מדי בקשות, נסה שוב בעוד רגע"
          durationMs := 0
          mcu := ⟨false, false, 0⟩ }] })
  | _ => return ()

/-- A request is handled, and its response is sent. -/
def handleOpen (crypto : Crypto) (request : IncomingRequest) : Async RouteState RouteAnswer Unit := do
  let result ← (openRoute crypto request).run
  logThrottled request result
  Async.ask (RouteAsk.respond result)

/-! ## The pieces of a request -/

/-- The questions before the registration of the request id, and the responses of requests that
    do not get there. -/
def RouteAsk.early : RouteAsk → Bool
  | .database                         => true
  | .throttler                        => true
  | .insertRequest                    => true
  | .openGate ..                      => false
  | .insertLog ..                     => false
  | .respond (.ok ())                 => false
  | .respond (.error (.openByUser _)) => false
  | .respond (.error _)               => true

/-- The registration in `openByUser` meets the records of `s`. -/
inductive Registers (id : String) (s : RouteState) (fault : Option DatabaseFault) :
    Option RouteAsk → RouteState → Prop where
  | admitted {s' : RouteState} (userId : String)
      (h : checkAndRegisterRequestId s.requests id userId s.now fault = (s'.requests, .ok ()))
      (hopened : s'.opened = s.opened ++ [id]) :
      Registers id s fault (some (.openGate id userId)) s'
  | refused {s' : RouteState} (userId : String) (e : OpenError) (log : GateLog)
      (h : checkAndRegisterRequestId s.requests id userId s.now fault = (s'.requests, .error e))
      (hopened : s'.opened = s.opened) :
      Registers id s fault (some (.insertLog log (.error e))) s'

/-- The piece leaves the records of the ids and the calls of `openGate` as they are. -/
def Quiet (s s' : RouteState) : Prop := s'.requests = s.requests ∧ s'.opened = s.opened

/-- What a piece of a request with the id `id` does. -/
def RoutePiece (id : String) : Async.Entry RouteAnswer → RouteState → Option RouteAsk →
    RouteState → Prop
  | .answered .insertRequest fault, s, q, s' => Registers id s fault q s'
  | .answered (.openGate _ _) _, s, q, s' =>
    Quiet s s' ∧ ∃ log result, q = some (.insertLog log result) ∧
      ∀ message, result ≠ .error (.conflict message)
  | .answered (.insertLog _ result) _, s, q, s' =>
    Quiet s s' ∧ ∃ result', q = some (.respond result') ∧
      (result' = result.mapError .openByUser ∨
        ∃ message, result' = .error (.openByUser (.database message)))
  | .answered (.respond _) _, s, q, s' => Quiet s s' ∧ q = none
  | .answered .database _, s, q, s'  => Quiet s s' ∧ ∃ a, q = some a ∧ a.early = true
  | .answered .throttler _, s, q, s' => Quiet s s' ∧ ∃ a, q = some a ∧ a.early = true
  | .start, s, q, s'                 => Quiet s s' ∧ ∃ a, q = some a ∧ a.early = true

/-- The piece was entered before the registration of the request id. -/
def EarlyEntry : Async.Entry RouteAnswer → Prop
  | .start                 => True
  | .answered .database _  => True
  | .answered .throttler _ => True
  | _                      => False

/-- A piece that ends at an await. -/
abbrev RouteAwaits (id : String) (entry : Async.Entry RouteAnswer) (s : RouteState) (q : RouteAsk)
    (s' : RouteState) : Prop :=
  RoutePiece id entry s (some q) s'

theorem Quiet.refl (s : RouteState) : Quiet s s := ⟨rfl, rfl⟩

theorem EarlyEntry.awaits {id : String} {entry : Async.Entry RouteAnswer} {s s' : RouteState}
    {q : RouteAsk} (h : EarlyEntry entry) (hquiet : Quiet s s') (hq : q.early = true) :
    RouteAwaits id entry s q s' := by
  cases entry with
  | start => exact ⟨hquiet, q, rfl, hq⟩
  | answered q' a =>
    cases q' with
    | database       => exact ⟨hquiet, q, rfl, hq⟩
    | throttler      => exact ⟨hquiet, q, rfl, hq⟩
    | insertRequest  => exact h.elim
    | openGate _ _   => exact h.elim
    | insertLog _ _  => exact h.elim
    | respond _      => exact h.elim

/-- How the route ends: before the registration, with an error that is not of `openByUser`, or
    after the insertion of the `GateLog` record. -/
def Finishes (entry : Async.Entry RouteAnswer) (s₀ : RouteState) (r : Except RouteError Unit)
    (s : RouteState) : Prop :=
  Quiet s₀ s ∧ (EarlyEntry entry ∧ (RouteAsk.respond r).early = true ∨
    ∃ log result fault, entry = .answered (.insertLog log result) fault ∧
      (r = result.mapError .openByUser ∨ ∃ message, r = .error (.openByUser (.database message))))

section Specs

variable {id : String} {entry : Async.Entry RouteAnswer} {s₀ s : RouteState}

theorem wp_database {α : Type} {p : Prog Store (Except HttpException α)}
    {post : Async.Entry RouteAnswer → RouteState → Except RouteError α → RouteState → Prop}
    (hentry : EarlyEntry entry) (hquiet : Quiet s₀ s)
    (hpost : ∀ entry s₀ r s, EarlyEntry entry → Quiet s₀ s →
      (∀ e, r = .error e → (RouteAsk.respond (.error e)).early = true) → post entry s₀ r s) :
    Async.wp (RouteAwaits id) post entry s₀ (database p).run s := by
  induction p generalizing entry s₀ s with
  | ret r =>
    cases r with
    | error e => exact hpost _ _ _ _ hentry hquiet (by rintro _ ⟨⟩; rfl)
    | ok a    => exact hpost _ _ _ _ hentry hquiet nofun
  | act upd next ih =>
    rw [database, Async.wp_run_bind]
    refine wp_ask.mpr ⟨hentry.awaits hquiet rfl, fun fault s => ?_⟩
    cases fault with
    | some message => exact hpost _ _ _ _ trivial (.refl s) (by rintro _ ⟨⟩; rfl)
    | none =>
      dsimp only
      rw [Async.wp_run_bind, wp_atomically]
      exact ih _ trivial ⟨rfl, rfl⟩

theorem wp_throttle {user : Option AuthUser}
    {post : Async.Entry RouteAnswer → RouteState → Except RouteError Unit → RouteState → Prop}
    (hentry : EarlyEntry entry) (hquiet : Quiet s₀ s)
    (hpost : ∀ entry s r, EarlyEntry entry →
      (∀ e, r = .error e → (RouteAsk.respond (.error e)).early = true) → post entry s r s) :
    Async.wp (RouteAwaits id) post entry s₀ (throttle user).run s := by
  rw [throttle, Async.wp_run_bind]
  refine wp_ask.mpr ⟨hentry.awaits hquiet rfl, fun blocked s => ?_⟩
  cases blocked with
  | true  => exact hpost _ s _ trivial (by rintro _ ⟨⟩; rfl)
  | false => exact hpost _ s _ trivial nofun

/-- The record is handed in by a piece that awaits its insertion. -/
theorem wp_createLog {log : GateLog} {result : Except OpenError Unit}
    (hask : RouteAwaits id entry s₀ (.insertLog log result) s) :
    Async.wp (RouteAwaits id) Finishes entry s₀ (createLog log result).run s := by
  rw [createLog, Async.wp_run_bind]
  refine wp_ask.mpr ⟨hask, fun fault s => ?_⟩
  dsimp only
  rw [Async.wp_run_bind, Route.wp_atomically]
  cases fault with
  | some fault => exact ⟨⟨rfl, rfl⟩, .inr ⟨log, result, _, rfl, .inr ⟨fault.message, rfl⟩⟩⟩
  | none =>
    cases result with
    | error e => exact ⟨⟨rfl, rfl⟩, .inr ⟨log, _, _, rfl, .inl rfl⟩⟩
    | ok _    => exact ⟨⟨rfl, rfl⟩, .inr ⟨log, _, _, rfl, .inl rfl⟩⟩

theorem wp_failOpen {o : Open} {e : OpenError}
    (hask : ∀ log, RouteAwaits id entry s₀ (.insertLog log (.error e)) s) :
    Async.wp (RouteAwaits id) Finishes entry s₀ (failOpen o e).run s := by
  rw [failOpen, Async.wp_run_bind, now, Route.wp_atomically]
  exact wp_createLog (hask _)

theorem wp_openByUser (params : OpenParams) (hentry : EarlyEntry entry) (hquiet : Quiet s₀ s) :
    Async.wp (RouteAwaits params.requestId) Finishes entry s₀ (openByUser params).run s := by
  rw [openByUser, Async.wp_run_bind, now, Route.wp_atomically]
  dsimp only
  rw [Async.wp_run_bind, registerRequestId, Async.wp_run_bind]
  refine wp_ask.mpr ⟨hentry.awaits hquiet rfl, fun fault s => ?_⟩
  dsimp only
  rw [Route.wp_atomically]
  dsimp only
  cases hregister : checkAndRegisterRequestId s.requests params.requestId params.userId s.now fault with
  | mk requests result =>
  cases result with
  | error e => exact wp_failOpen fun log => .refused _ e log hregister rfl
  | ok _ =>
    dsimp only
    rw [Async.wp_run_bind, Route.wp_atomically]
    dsimp only
    rw [Async.wp_run_bind]
    refine wp_ask.mpr ⟨.admitted _ hregister rfl, fun answer s => ?_⟩
    obtain ⟨metadata, result⟩ := answer
    cases result with
    | error e =>
      exact wp_failOpen fun log => ⟨.refl s, log, _, rfl, fun message h => nomatch h⟩
    | ok _ =>
      dsimp only
      rw [Async.wp_run_bind, Route.wp_atomically]
      exact wp_createLog ⟨.refl s, _, _, rfl, fun message h => nomatch h⟩

/-- An error before the registration. -/
theorem finishes_early {e : RouteError} (hentry : EarlyEntry entry) (hquiet : Quiet s₀ s)
    (he : (RouteAsk.respond (.error e)).early = true) : Finishes entry s₀ (.error e) s :=
  ⟨hquiet, .inl ⟨hentry, he⟩⟩

theorem wp_open {request : IncomingRequest} {authUser : AuthUser}
    (hid : ∀ requestId, request.xRequestId = some requestId → requestId = id)
    (hentry : EarlyEntry entry) :
    Async.wp (RouteAwaits id) Finishes entry s (GateController.open request authUser).run s := by
  unfold GateController.open
  cases hrequest : request.xRequestId with
  | none => exact finishes_early hentry (.refl s) rfl
  | some requestId =>
    obtain rfl := hid requestId hrequest
    dsimp only
    split
    next => exact finishes_early hentry (.refl s) rfl
    next =>
      split
      next => exact finishes_early hentry (.refl s) rfl
      next =>
        rw [Async.wp_run_bind]
        refine wp_database hentry (.refl s) fun entry s₀ r s hentry hquiet hr => ?_
        cases r with
        | error e => exact finishes_early hentry hquiet (hr e rfl)
        | ok user => exact wp_openByUser ⟨requestId, _, _, _, _, _, _⟩ hentry hquiet

theorem wp_openRoute {crypto : Crypto} {request : IncomingRequest}
    (hid : ∀ requestId, request.xRequestId = some requestId → requestId = id) :
    Async.wp (RouteAwaits id) Finishes .start s (openRoute crypto request).run s := by
  rw [openRoute, Async.wp_run_bind]
  refine wp_throttle trivial (.refl s) fun entry s r hentry hr => ?_
  cases r with
  | error e => exact finishes_early hentry (.refl s) (hr e rfl)
  | ok _ =>
    dsimp only
    split
    next => exact finishes_early hentry (.refl s) rfl
    next accessToken _ =>
      rw [Async.wp_run_bind, now, Route.wp_atomically]
      dsimp only
      rw [Async.wp_run_bind]
      refine wp_database hentry (.refl s) fun entry s₀ r s hentry hquiet hr => ?_
      cases r with
      | error e => exact finishes_early hentry hquiet (hr e rfl)
      | ok authUser =>
        dsimp only
        rw [Async.wp_run_bind]
        refine wp_database hentry hquiet fun entry s₀ r s hentry hquiet hr => ?_
        cases r with
        | error e => exact finishes_early hentry hquiet (hr e rfl)
        | ok _ =>
          dsimp only
          rw [Async.wp_run_bind]
          refine wp_throttle hentry hquiet fun entry s r hentry hr => ?_
          cases r with
          | error e => exact finishes_early hentry (.refl s) (hr e rfl)
          | ok _    => exact wp_open hid hentry

end Specs

theorem Finishes.awaits {id : String} {entry : Async.Entry RouteAnswer} {s₀ s : RouteState}
    {r : Except RouteError Unit} (h : Finishes entry s₀ r s) :
    RouteAwaits id entry s₀ (.respond r) s := by
  obtain ⟨hquiet, ⟨hentry, hearly⟩ | ⟨log, result, fault, rfl, hr⟩⟩ := h
  · exact hentry.awaits hquiet hearly
  · exact ⟨hquiet, r, rfl, hr⟩

/-- Every piece of a handled request is as `RoutePiece` says. -/
theorem handleOpen_meets {crypto : Crypto} {request : IncomingRequest} {id : String}
    (hid : ∀ requestId, request.xRequestId = some requestId → requestId = id) :
    (handleOpen crypto request).Meets (RoutePiece id) := by
  intro s
  rw [handleOpen, Async.Rest, Async.wp_bind]
  refine Async.wp_mono (wp_openRoute hid) (fun _ _ _ _ h => h) fun entry s₀ r s hends => ?_
  have hrespond : ∀ {entry s₀ s}, RouteAwaits id entry s₀ (.respond r) s →
      Async.wp (RouteAwaits id) (fun entry s _ s' => RoutePiece id entry s none s') entry s₀
        (Async.ask (RouteAsk.respond r) : Async RouteState RouteAnswer Unit) s :=
    fun h => ⟨h, fun _ s => ⟨.refl s, rfl⟩⟩
  rw [Async.wp_bind]
  unfold logThrottled
  split
  next user =>
    -- a throttler refuses before the registration
    have hentry : EarlyEntry entry := by
      obtain ⟨-, ⟨hentry, -⟩ | ⟨log, result, fault, rfl, hr | ⟨message, hr⟩⟩⟩ := hends
      · exact hentry
      · cases result <;> cases hr
      · cases hr
    exact ⟨hentry.awaits hends.1 rfl, fun fault s => hrespond (EarlyEntry.awaits trivial ⟨rfl, rfl⟩ rfl)⟩
  next => exact hrespond hends.awaits

end GateRoute

end Backend
