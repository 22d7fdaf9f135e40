-- SUMMARY: The two routes that open the gate, and what lies behind every call of `openGate`: a request that has passed all checks of its route.
import ParkingGate.Backend.GateController
import ParkingGate.Backend.AuditRecord
import ParkingGate.Base.Readings

/-!
# Requests to open the gate

`GET /gate/admin-open` opens the gate for whoever knows the key of the configuration, without
a user, guards or replay registration.

A request of `POST /gate/open` reads the database many times before its handler calls
`openGate`, and other requests write to it in between. `Admitted` collects what the request has
then seen, each fact in a state that the server was in while the request was handled.
-/

namespace Backend.GateRoute

open Route

/-! ## GET /gate/admin-open -/

/-- `ADMIN_OPEN_KEY`, as the ConfigService and the environment have it. -/
structure AdminOpenKey where
  configured : Option String
  environment : Option String

/-- The key of the configuration or else of the environment, if it is not empty. -/
def AdminOpenKey.expected (adminOpenKey : AdminOpenKey) : Option String :=
  let key := if truthy adminOpenKey.configured then adminOpenKey.configured
    else adminOpenKey.environment
  if truthy key then key else none

/-- The `GateLog` record of `openByAdminBackdoor`. -/
def backdoorRecord (params : BackdoorParams) (requestId : String) (durationMs : Nat)
    (status : GateLogStatus) (failureReason : Option String) (mcu : GateLogMcuMetadata) :
    GateLog where
  requestId := requestId
  userId := none
  email := none
  deviceId := none
  sessionId := none
  ip := params.ip
  userAgent := params.userAgent
  openedBy := .adminBackdoor
  status := status
  failureReason := failureReason
  durationMs := durationMs
  mcu := mcu

def openByAdminBackdoor (params : BackdoorParams) (randomUUID : String) : Route Unit := do
  let startTime ← now
  let requestId := match params.requestId with
    | some requestId => if requestId = "" then randomUUID else requestId
    | none           => randomUUID
  atomically fun s => ((), { s with opened := s.opened ++ [requestId] })
  let (metadata, result) : McuCallMetadata × Except GateError Unit ←
    ask (.openGate requestId "admin-backdoor")
  match result with
  | .error e =>
    let (status, failureReason, mcu) := (OpenError.gate e).outcome
    createLog (backdoorRecord params requestId ((← now) - startTime) status (some failureReason) mcu)
      (.error (.gate e))
  | .ok () =>
    createLog (backdoorRecord params requestId ((← now) - startTime) .success none
      ⟨true, metadata.timeout, metadata.retries⟩) (.ok ())

/-- `GateController.adminOpen`; `key` is the query parameter. -/
def GateController.adminOpen (adminOpenKey : AdminOpenKey) (request : IncomingRequest)
    (key : Option String) (randomUUID : String) : Route Unit := do
  match adminOpenKey.expected with
  | none => throw (.http (.badRequest "מפתח פתיחת אדמין לא מוגדר"))
  | some expectedKey =>
    if !truthy key || key ≠ some expectedKey then
      throw (.http (.badRequest "מפתח לא תקין"))
    openByAdminBackdoor ⟨none, request.ip, request.userAgent⟩ randomUUID

/-- The route has no guards of its own. -/
def adminOpenRoute (adminOpenKey : AdminOpenKey) (request : IncomingRequest) (key : Option String)
    (randomUUID : String) : Route Unit := do
  throttle none
  GateController.adminOpen adminOpenKey request key randomUUID

/-- The exception filter writes a record for `POST /gate/open` only. -/
def handleAdminOpen (adminOpenKey : AdminOpenKey) (request : IncomingRequest) (key : Option String)
    (randomUUID : String) : Async RouteState RouteAnswer Unit := do
  let result ← (adminOpenRoute adminOpenKey request key randomUUID).run
  Async.ask (RouteAsk.respond result)

/-! ## What the guards have seen -/

/-- The token's session was in the database; an administrator's token needs none. -/
def HasSession (seen : Store → Prop) (payload : JwtPayload) : Prop :=
  payload.role = .admin ∨ ∃ s, seen s ∧ ∃ doc ∈ s.sessions,
    doc.sessionId = payload.sid ∧ doc.userId = payload.sub ∧ doc.deviceId = payload.deviceId

/-- The user existed, and was an administrator or approved and active on the device. -/
def IsApproved (seen : Store → Prop) (authUser : AuthUser) : Prop :=
  ∃ s, seen s ∧ ∃ user ∈ s.users, user.id = authUser.userId ∧
    (authUser.role = .admin ∨ user.role = .admin ∨
      user.status = .approved ∧ user.activeDeviceId = some authUser.deviceId)

/-- What `validate` puts on the request. -/
def authUserOf (payload : JwtPayload) : AuthUser where
  userId := payload.sub
  role := payload.role
  deviceId := payload.deviceId
  sid := payload.sid

section Guards

variable {seen : Store → Prop}

theorem reads_validate (payload : JwtPayload) (now : Nat) :
    (JwtStrategy.validate payload now).prog.Reads seen fun r =>
      ∀ authUser, r = .ok authUser → authUser = authUserOf payload ∧ HasSession seen payload := by
  simp only [JwtStrategy.validate, UsersService.findById, UsersService.getSessionBySessionId,
    Fallible.prog_atomically_bind, Prog.reads_act]
  intro s _
  cases s.users.find? (·.id == payload.sub) with
  | none => rintro _ ⟨⟩
  | some user =>
    simp only [Option.isNone_some, Bool.false_eq_true, if_false, Fallible.prog_atomically_bind,
      Prog.reads_act]
    intro s hs
    by_cases hrole : payload.role = .admin
    · simp only [hrole, ne_eq, not_true_eq_false, if_false]
      rintro _ ⟨⟩
      exact ⟨by simp [authUserOf, hrole], .inl hrole⟩
    simp only [hrole, ne_eq, not_false_eq_true, if_true]
    cases hdoc : s.sessions.find? (·.sessionId == payload.sid) with
    | none => rintro _ ⟨⟩
    | some doc =>
      simp only
      by_cases huser : doc.userId = payload.sub
      · by_cases hdevice : doc.deviceId = payload.deviceId
        · simp only [huser, hdevice, not_true_eq_false, if_false,
            UsersService.updateSessionLastActive, Fallible.prog_atomically_bind, Prog.reads_act]
          rintro _ _ _ ⟨⟩
          exact ⟨rfl, .inr ⟨s, hs, doc, List.mem_of_find?_eq_some hdoc,
            by simpa using List.find?_some hdoc, huser, hdevice⟩⟩
        · simp only [huser, hdevice, not_true_eq_false, not_false_eq_true, if_false, if_true]
          rintro _ ⟨⟩
      · simp only [huser, not_false_eq_true, if_true]
        rintro _ ⟨⟩

theorem reads_authenticate (crypto : Crypto) (accessToken : String) (now : Nat) :
    (JwtStrategy.authenticate crypto accessToken now).prog.Reads seen fun r =>
      ∀ authUser, r = .ok authUser → ∃ payload,
        crypto.verifyAccess now accessToken = some payload ∧ authUser = authUserOf payload ∧
          HasSession seen payload := by
  unfold JwtStrategy.authenticate
  cases hpayload : crypto.verifyAccess now accessToken with
  | none => rintro _ ⟨⟩
  | some payload =>
    exact (reads_validate payload now).mono fun r h authUser hok => ⟨payload, rfl, h authUser hok⟩

theorem reads_canActivate (authUser : AuthUser) :
    (ApprovedGuard.canActivate authUser).prog.Reads seen fun r =>
      ∀ b, r = .ok b → IsApproved seen authUser := by
  simp only [ApprovedGuard.canActivate, UsersService.findById, Fallible.prog_atomically_bind,
    Prog.reads_act]
  intro s hs
  cases hfind : s.users.find? (·.id == authUser.userId) with
  | none => rintro _ ⟨⟩
  | some user =>
    have happroved (h : authUser.role = .admin ∨ user.role = .admin ∨
        user.status = .approved ∧ user.activeDeviceId = some authUser.deviceId) :
        IsApproved seen authUser :=
      ⟨s, hs, user, List.mem_of_find?_eq_some hfind, by simpa using List.find?_some hfind, h⟩
    dsimp only
    split
    next hadmin => exact fun _ _ => happroved (hadmin.imp_right .inl)
    next =>
      split
      next => split <;> rintro _ ⟨⟩
      next hstatus =>
        split
        next => rintro _ ⟨⟩
        next =>
          split
          next => rintro _ ⟨⟩
          next hdevice =>
            exact fun _ _ => happroved (.inr (.inr ⟨not_not.mp hstatus, not_not.mp hdevice⟩))

end Guards

/-! ## What a request has seen when it opens the gate -/

/-- The token is valid, and session, approval and request id were right, each in a state with
    `H`. -/
structure Admitted (crypto : Crypto) (H : RouteState → Prop) (request : IncomingRequest)
    (payload : JwtPayload) (id : String) : Prop where
  requestId : request.xRequestId = some id
  uuid : uuidRegex id = true
  token : ∃ accessToken s, extractJwtFromRequest request.authorization = some accessToken ∧ H s ∧
    crypto.verifyAccess s.now accessToken = some payload
  session : HasSession (fun store => ∃ s, H s ∧ s.store = store) payload
  approved : IsApproved (fun store => ∃ s, H s ∧ s.store = store) (authUserOf payload)
  fresh : ∃ s, H s ∧ ∀ record ∈ s.requests, record.requestId ≠ id

/-- A request asks for the gate only when it is admitted, for its own id and user. -/
def Admits (crypto : Crypto) (H : RouteState → Prop) (request : IncomingRequest) (q : RouteAsk) :
    Prop :=
  ∀ id userId, q = .openGate id userId →
    ∃ payload, payload.sub = userId ∧ Admitted crypto H request payload id

/-- A request with the right key asks for the gate under the id it has drawn. -/
def AdmitsKey (adminOpenKey : AdminOpenKey) (key : Option String) (randomUUID : String)
    (q : RouteAsk) : Prop :=
  ∀ id userId, q = .openGate id userId →
    id = randomUUID ∧ key ≠ none ∧ adminOpenKey.expected = key

section Asks

variable {H : RouteState → Prop} {R : RouteAsk → Prop} {s : RouteState}

theorem asks_ask {q : RouteAsk} {post : Except RouteError (RouteAnswer q) → RouteState → Prop} :
    Async.Asks H R post (ask q).run s ↔ R q ∧ ∀ a s', H s' → post (.ok a) s' := by
  rw [ask, Async.asks_run_lift, Async.asks_ask]

theorem asks_atomically {α : Type} {f : RouteState → α × RouteState}
    {post : Except RouteError α → RouteState → Prop} :
    Async.Asks H R post (atomically f).run s ↔ post (.ok (f s).1) (f s).2 := by
  rw [atomically, Async.asks_run_lift, Async.asks_atomically]

/-- A service method that ends well has seen what its program reads. -/
theorem asks_database {α : Type} {p : Prog Store (Except HttpException α)}
    {good : Except HttpException α → Prop} {post : Except RouteError α → RouteState → Prop}
    (hp : p.Reads (fun store => ∃ s, H s ∧ s.store = store) good) (hR : R .database)
    (hok : ∀ a s, good (.ok a) → post (.ok a) s) (herror : ∀ e s, post (.error e) s) :
    Async.Asks H R post (database p).run s := by
  induction p generalizing s with
  | ret r =>
    cases r with
    | error e => exact herror (.http e) s
    | ok a    => exact hok a s hp
  | act upd next ih =>
    rw [database, Async.asks_run_bind]
    refine asks_ask.mpr ⟨hR, fun fault s hs => ?_⟩
    cases fault with
    | some message => exact herror (.other message) s
    | none =>
      dsimp only
      rw [Async.asks_run_bind]
      exact asks_atomically.mpr (ih s.store (hp s.store ⟨s, hs, rfl⟩))

theorem asks_throttle {user : Option AuthUser} {post : Except RouteError Unit → RouteState → Prop}
    (hR : R .throttler) (hok : ∀ s, H s → post (.ok ()) s) (herror : ∀ e s, post (.error e) s) :
    Async.Asks H R post (throttle user).run s := by
  rw [throttle, Async.asks_run_bind]
  refine asks_ask.mpr ⟨hR, fun blocked s hs => ?_⟩
  cases blocked with
  | true  => exact herror _ s
  | false => exact hok s hs

theorem asks_createLog {log : GateLog} {result : Except OpenError Unit}
    (hR : R (.insertLog log result)) :
    Async.Asks H R (fun _ _ => True) (createLog log result).run s := by
  rw [createLog, Async.asks_run_bind]
  refine asks_ask.mpr ⟨hR, fun fault s _ => ?_⟩
  dsimp only
  rw [Async.asks_run_bind]
  refine asks_atomically.mpr ?_
  cases fault with
  | some fault => trivial
  | none => cases result <;> trivial

theorem asks_failOpen {o : Open} {e : OpenError} (hR : ∀ log, R (.insertLog log (.error e))) :
    Async.Asks H R (fun _ _ => True) (failOpen o e).run s := by
  rw [failOpen, Async.asks_run_bind, now, asks_atomically]
  exact asks_createLog (hR _)

theorem asks_openByUser {params : OpenParams} (hinsert : R .insertRequest)
    (hlog : ∀ log result, R (.insertLog log result))
    (hopen : (∃ s, H s ∧ ∀ record ∈ s.requests, record.requestId ≠ params.requestId) →
      R (.openGate params.requestId params.userId)) :
    Async.Asks H R (fun _ _ => True) (openByUser params).run s := by
  rw [openByUser, Async.asks_run_bind, now, asks_atomically]
  dsimp only
  rw [Async.asks_run_bind, registerRequestId, Async.asks_run_bind]
  refine asks_ask.mpr ⟨hinsert, fun fault s hs => ?_⟩
  dsimp only
  rw [asks_atomically]
  dsimp only
  cases hregister : checkAndRegisterRequestId s.requests params.requestId params.userId s.now fault with
  | mk requests result =>
  cases result with
  | error e => exact asks_failOpen fun log => hlog log _
  | ok _ =>
    dsimp only
    rw [Async.asks_run_bind, asks_atomically]
    dsimp only
    rw [Async.asks_run_bind]
    refine asks_ask.mpr ⟨hopen ⟨s, hs, (checkAndRegisterRequestId_ok hregister).2.1⟩,
      fun answer s _ => ?_⟩
    obtain ⟨metadata, result⟩ := answer
    cases result with
    | error e => exact asks_failOpen fun log => hlog log _
    | ok _ =>
      dsimp only
      rw [Async.asks_run_bind, asks_atomically]
      exact asks_createLog (hlog _ _)

end Asks

section Routes

variable {H : RouteState → Prop} {s : RouteState}

theorem asks_open {crypto : Crypto} {request : IncomingRequest} {payload : JwtPayload}
    (hadmitted : ∀ id, request.xRequestId = some id → uuidRegex id = true →
      (∃ s, H s ∧ ∀ record ∈ s.requests, record.requestId ≠ id) →
      Admitted crypto H request payload id) :
    Async.Asks H (Admits crypto H request) (fun _ _ => True)
      (GateController.open request (authUserOf payload)).run s := by
  have hother : ∀ q, (∀ id userId, q ≠ .openGate id userId) → Admits crypto H request q :=
    fun q hq id userId h => absurd h (hq id userId)
  unfold GateController.open
  cases hrequest : request.xRequestId with
  | none => trivial
  | some requestId =>
    dsimp only
    split
    next => trivial
    next =>
      split
      next => trivial
      next huuid =>
        rw [Async.asks_run_bind]
        refine asks_database Prog.reads_true (hother _ (by simp)) (fun user s _ => ?_)
          fun _ _ => trivial
        refine asks_openByUser (hother _ (by simp)) (fun log result => hother _ (by simp)) fun hfresh => ?_
        rintro _ _ ⟨⟩
        exact ⟨payload, rfl, hadmitted requestId hrequest (by simpa using huuid) hfresh⟩

theorem asks_openRoute (crypto : Crypto) (request : IncomingRequest) :
    Async.Asks H (Admits crypto H request) (fun _ _ => True) (openRoute crypto request).run s := by
  have hdatabase : Admits crypto H request .database := by rintro _ _ ⟨⟩
  have hthrottler : Admits crypto H request .throttler := by rintro _ _ ⟨⟩
  rw [openRoute, Async.asks_run_bind]
  refine asks_throttle hthrottler (fun s hs => ?_) fun _ _ => trivial
  dsimp only
  cases htoken : extractJwtFromRequest request.authorization with
  | none => trivial
  | some accessToken =>
    dsimp only
    rw [Async.asks_run_bind, now, asks_atomically]
    dsimp only
    rw [Async.asks_run_bind]
    refine asks_database (reads_authenticate crypto accessToken s.now) hdatabase
      (fun authUser _ hauth => ?_) fun _ _ => trivial
    obtain ⟨payload, hverified, rfl, hsession⟩ := hauth authUser rfl
    dsimp only
    rw [Async.asks_run_bind]
    refine asks_database (reads_canActivate _) hdatabase (fun b _ happroved => ?_)
      fun _ _ => trivial
    dsimp only
    rw [Async.asks_run_bind]
    refine asks_throttle hthrottler (fun _ _ => ?_) fun _ _ => trivial
    exact asks_open fun id hid huuid hfresh =>
      ⟨hid, huuid, ⟨accessToken, s, htoken, hs, hverified⟩, hsession, happroved b rfl, hfresh⟩

/-- A request to `POST /gate/open` calls `openGate` only when it is admitted. -/
theorem asks_handleOpen (crypto : Crypto) (request : IncomingRequest) :
    Async.Asks H (Admits crypto H request) (fun _ _ => True) (handleOpen crypto request) s := by
  have hrespond : ∀ result s, Async.Asks H (Admits crypto H request) (fun _ _ => True)
      (Async.ask (RouteAsk.respond result) : Async RouteState RouteAnswer Unit) s :=
    fun _ _ => ⟨by rintro _ _ ⟨⟩, fun _ _ _ => trivial⟩
  rw [handleOpen, Async.asks_bind]
  refine (asks_openRoute crypto request).mono (fun _ h => h) fun result s _ => ?_
  rw [Async.asks_bind]
  unfold logThrottled
  split
  next user => exact ⟨by rintro _ _ ⟨⟩, fun fault s _ => hrespond _ s⟩
  next => exact hrespond result s

/-- A request to `GET /gate/admin-open` calls `openGate` only when it has the key. -/
theorem asks_handleAdminOpen (adminOpenKey : AdminOpenKey) (request : IncomingRequest)
    (key : Option String) (randomUUID : String) :
    Async.Asks H (AdmitsKey adminOpenKey key randomUUID) (fun _ _ => True)
      (handleAdminOpen adminOpenKey request key randomUUID) s := by
  have hother : ∀ q, (∀ id userId, q ≠ .openGate id userId) →
      AdmitsKey adminOpenKey key randomUUID q :=
    fun q hq id userId h => absurd h (hq id userId)
  have hlog : ∀ log result, AdmitsKey adminOpenKey key randomUUID (.insertLog log result) :=
    fun _ _ => hother _ (by simp)
  rw [handleAdminOpen, Async.asks_bind]
  suffices hroute : Async.Asks H (AdmitsKey adminOpenKey key randomUUID) (fun _ _ => True)
      (adminOpenRoute adminOpenKey request key randomUUID).run s from
    hroute.mono (fun _ h => h) fun result s _ => ⟨hother _ (by simp), fun _ _ _ => trivial⟩
  rw [adminOpenRoute, Async.asks_run_bind]
  refine asks_throttle (hother _ (by simp)) (fun s hs => ?_) fun _ _ => trivial
  dsimp only
  unfold GateController.adminOpen
  cases hexpected : adminOpenKey.expected with
  | none => trivial
  | some expectedKey =>
    dsimp only
    split
    next => trivial
    next hkey =>
      have heq : key = some expectedKey := by
        simp only [Bool.or_eq_true, decide_eq_true_eq, not_or, ne_eq, not_not] at hkey
        exact hkey.2
      rw [openByAdminBackdoor, Async.asks_run_bind, now, asks_atomically]
      dsimp only
      rw [Async.asks_run_bind, asks_atomically]
      dsimp only
      rw [Async.asks_run_bind]
      refine asks_ask.mpr ⟨?_, fun answer s _ => ?_⟩
      · rintro _ _ ⟨⟩
        exact ⟨rfl, by simp [heq], hexpected.trans heq.symm⟩
      · obtain ⟨metadata, result⟩ := answer
        cases result with
        | error e =>
          dsimp only
          rw [Async.asks_run_bind, asks_atomically]
          exact asks_createLog (hlog _ _)
        | ok _ =>
          dsimp only
          rw [Async.asks_run_bind, asks_atomically]
          exact asks_createLog (hlog _ _)

end Routes

end Backend.GateRoute
