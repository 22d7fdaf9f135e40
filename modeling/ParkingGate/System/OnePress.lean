-- SUMMARY: One press on the gate button from the browser to the gate device: at most two requests under one id, and at most one call of openGate, whatever is lost, expires or is refreshed.
import ParkingGate.Frontend.GatePress
import ParkingGate.Backend.GateController
import ParkingGate.Base.Trace

/-!
# One press, at most one open

The press runs on the page, its requests travel to the server and are handled there, each in
pieces. The other calls of the page change the variables of the API client as they like, other
requests the database, and the network loses requests and answers. An answer that does not
come from the route is not a 401.

The second request is sent only after the route has answered the first one 401. Until then the
route has not registered the id, so the second one finds it free.
-/

namespace OnePress

open Frontend Backend Trace
open Backend.GateRoute hiding openByUser

/-- A request to open the gate that the page has sent: its handler once it has arrived, and the
    answer that has come back, `none` for an error of the network. -/
structure Exchange where
  request : Request
  handler : Option (Async RouteState RouteAnswer Unit)
  answer : Option (Option Response)

structure World where
  client : Client
  press : Option (Async Client Answer Unit)
  sent : List Exchange
  route : RouteState

inductive Event where
  | press
  /-- A piece of another call on the page. -/
  | page (client : Client)
  /-- Other requests, the TTL index and the clock. -/
  | server (route : RouteState)
  /-- The request with this index arrives. -/
  | arrive (k : Nat) (request : IncomingRequest)
  /-- What its handler waits for is done. -/
  | serve (k : Nat) (answer : (q : RouteAsk) → RouteAnswer q)
  /-- The response of the route comes back. -/
  | response (statusText : String) (isJson : Bool)
  /-- The request ends in an error of the network, or a proxy answers it. -/
  | elsewhere (answer : Option Response)
  /-- Anything else the press waits for. -/
  | resume (answer : (q : Ask) → Answer q)

/-- What the handler waits for. -/
def Exchange.asks (x : Exchange) : Option RouteAsk := x.handler.bind Async.question?

/-- What the handler has answered. -/
def Exchange.result (x : Exchange) : Option (Except RouteError Unit) :=
  match x.asks with
  | some (.respond result) => some result
  | _                      => none

/-- The request to open the gate that a call waits for. -/
def openRequest : Ask → Option Request
  | .fetch request _ => if Press.isOpen request then some request else none
  | .retry request   => if Press.isOpen request then some request else none
  | _                => none

/-- The requests that have been sent when the press waits for `q`. -/
def send (q : Option Ask) (sent : List Exchange) : List Exchange :=
  match q.bind openRequest with
  | some request => sent ++ [⟨request, none, none⟩]
  | none         => sent

namespace World

/-- The press has run a piece, and has sent what it now awaits. -/
def run (w : World) (p : Async Client Answer Unit) : World :=
  { w with
    client := (p.run w.client).2
    press := some (p.run w.client).1
    sent := send (p.run w.client).1.question? w.sent }

/-- The handler of the request with index `k` has run a piece. -/
def handle (w : World) (k : Nat) (p : Async RouteState RouteAnswer Unit) : World :=
  { w with
    sent := w.sent.modify k fun x => { x with handler := some (p.run w.route).1 }
    route := (p.run w.route).2 }

/-- The last request is answered. -/
def deliver (w : World) (answer : Option Response) : World :=
  { w with sent := w.sent.modify (w.sent.length - 1) fun x => { x with answer := some answer } }

/-- The press goes on with the answer to its request to open the gate. -/
def answerOpen (w : World) (answer : Option Response) : Option World :=
  match w.press with
  | some (.await (.fetch request _) next) =>
    if Press.isOpen request then some ((w.deliver answer).run (next answer)) else none
  | some (.await (.retry request) next) =>
    if Press.isOpen request then some ((w.deliver answer).run (next answer)) else none
  | _ => none

/-- The id has been registered. -/
def Registered (w : World) (id : String) : Prop := ∃ record ∈ w.route.requests, record.requestId = id

end World

section System

variable (crypto : Crypto) (options : ApiOptions) (randomUUID : String)

/-- Whether the change to another state of the route can come from other requests: no other
    request has the id. -/
def Foreign (s s' : RouteState) : Prop :=
  s'.opened.count randomUUID = s.opened.count randomUUID ∧
    ((s'.requests.any fun record => record.requestId = randomUUID) = true →
      (s.requests.any fun record => record.requestId = randomUUID) = true)

instance (s s' : RouteState) : Decidable (Foreign randomUUID s s') :=
  inferInstanceAs (Decidable (_ ∧ _))

def step (w : World) : Event → Option World
  | .press =>
    if w.press.isSome then none
    else some (w.run (Call.task (apiRequest "/gate/open" options randomUUID)))
  | .page client => some { w with client := client }
  | .server route => if Foreign randomUUID w.route route then some { w with route := route } else none
  | .arrive k request =>
    match w.sent[k]? with
    | some x =>
      if x.handler.isNone ∧ request.authorization = x.request.headers.lookup "authorization" ∧
          request.xRequestId = x.request.headers.lookup "x-request-id" then
        some (w.handle k (handleOpen crypto request))
      else none
    | none => none
  | .serve k answer =>
    match (w.sent[k]?).bind (·.handler) with
    | some (.await (.respond _) _) => none
    | some (.await q next)         => some (w.handle k (next (answer q)))
    | _                            => none
  | .response statusText isJson =>
    match w.sent.getLast?.bind (·.result) with
    | some result => w.answerOpen (some ⟨statusOf result, statusText, isJson⟩)
    | none        => none
  | .elsewhere answer =>
    if answer.map (·.status) = some 401 then none else w.answerOpen answer
  | .resume answer =>
    match w.press with
    | some (.await q next) =>
      if openRequest q = none ∧ allows w.client q (answer q) = true then
        some (w.run (next (answer q)))
      else none
    | _ => none

end System

/-- At most two requests under one id, the second after the first was answered 401, which the
    route does before it registers the id; one call of `openGate`, and no refusal as a replay. -/
structure AtMostOne (id : String) (w : World) : Prop where
  atMostTwo : w.sent.length ≤ 2
  sameId : ∀ x ∈ w.sent, x.request.headers.lookup "x-request-id" = some id
  afterUnauthorized : ∀ x y, w.sent = [x, y] →
    ∃ response, x.answer = some (some response) ∧ response.status = 401
  unregistered : ∀ x result, w.sent.getLast? = some x → x.result = some result →
    statusOf result = 401 → ¬ w.Registered id
  openedOnce : w.route.opened.count id ≤ 1
  notReplayed : ∀ x ∈ w.sent, ∀ message,
    x.result ≠ some (.error (.openByUser (.conflict message)))

/-! ## The stages of a request on the server -/

/-- Nothing has been done under the id. -/
def Fresh (id : String) (s : RouteState) : Prop :=
  (∀ record ∈ s.requests, record.requestId ≠ id) ∧ s.opened.count id = 0

/-- `openByUser` has met no other record, and answers neither 401 nor that it is a replay. -/
def Unreplayed : RouteAsk → Prop
  | .insertLog _ result => ∀ message, result ≠ .error (.conflict message)
  | .respond result     =>
    statusOf result ≠ 401 ∧ ∀ message, result ≠ .error (.openByUser (.conflict message))
  | _                   => True

/-- How far a request has come whose handler waits for `q`. -/
def Stage (id : String) (s : RouteState) : Option RouteAsk → Prop
  | none   => Fresh id s
  | some q => if q.early then Fresh id s else s.opened.count id ≤ 1 ∧ Unreplayed q

theorem Fresh.quiet {id : String} {s s' : RouteState} (h : Fresh id s) (hquiet : Quiet s s') :
    Fresh id s' := by
  unfold Fresh
  rw [hquiet.1, hquiet.2]
  exact h

theorem Stage.count_le {id : String} {s : RouteState} {q : Option RouteAsk} (h : Stage id s q) :
    s.opened.count id ≤ 1 := by
  cases q with
  | none => exact h.2.trans_le (Nat.zero_le 1)
  | some q =>
    rw [Stage] at h
    split at h
    · exact h.2.trans_le (Nat.zero_le 1)
    · exact h.1

/-- A response of 401 comes before the registration. -/
theorem Stage.fresh_of_unauthorized {id : String} {s : RouteState}
    {result : Except RouteError Unit} (h : Stage id s (some (.respond result)))
    (h401 : statusOf result = 401) : Fresh id s := by
  rw [Stage] at h
  split at h
  · exact h
  · exact absurd h401 h.2.1

theorem Stage.early {id : String} {s s' : RouteState} {q : Option RouteAsk} (h : Fresh id s)
    (hpiece : Quiet s s' ∧ ∃ a, q = some a ∧ a.early = true) : Stage id s' q := by
  obtain ⟨hquiet, a, rfl, ha⟩ := hpiece
  rw [Stage, if_pos ha]
  exact h.quiet hquiet

theorem Stage.registers {id : String} {s s' : RouteState} {fault : Option DatabaseFault}
    {q : Option RouteAsk} (h : Fresh id s) (hpiece : Registers id s fault q s') : Stage id s' q := by
  cases hpiece with
  | admitted userId _ hopened =>
    refine ⟨?_, trivial⟩
    rw [hopened, List.count_append, h.2]
    simp
  | refused userId e log hregister hopened =>
    refine ⟨?_, fun message heq => ?_⟩
    · rw [hopened, h.2]
      exact Nat.zero_le 1
    · -- no record has the id, so the insertion failed otherwise
      obtain rfl := Except.error.inj heq
      have hnone : (s.requests.any fun record => record.requestId = id) = false := by
        simpa using h.1
      unfold checkAndRegisterRequestId at hregister
      cases fault <;> simp [hnone] at hregister

/-- What a piece of the handler does to the stage. -/
theorem Stage.serve {id : String} {s s' : RouteState} {q : RouteAsk} {a : RouteAnswer q}
    {q' : Option RouteAsk} (h : Stage id s (some q)) (hq : ∀ result, q ≠ .respond result)
    (hpiece : RoutePiece id (.answered q a) s q' s') : Stage id s' q' := by
  cases q with
  | database         => exact .early h hpiece
  | throttler        => exact .early h hpiece
  | insertRequest    => exact .registers h hpiece
  | openGate _ userId =>
    obtain ⟨hquiet, log, result, rfl, hresult⟩ := hpiece
    exact ⟨by rw [hquiet.2]; exact h.1, hresult⟩
  | insertLog log result =>
    obtain ⟨hquiet, result', rfl, rfl | ⟨message, rfl⟩⟩ := hpiece
    · cases result with
      | ok _    => exact ⟨by rw [hquiet.2]; exact h.1, nofun, nofun⟩
      | error e =>
        refine ⟨by rw [hquiet.2]; exact h.1, e.getStatus_ne, fun message heq => ?_⟩
        cases heq
        exact h.2 message rfl
    · exact ⟨by rw [hquiet.2]; exact h.1, nofun, nofun⟩
  | respond result => exact absurd rfl (hq result)

/-! ## The press and its requests -/

/-- The route has answered 401, and the page has the answer. -/
structure Exchange.Refused (x : Exchange) : Prop where
  answer : ∃ response, x.answer = some (some response) ∧ response.status = 401
  asks : ∃ result, x.asks = some (.respond result) ∧ statusOf result = 401

/-- How far the requests have come. -/
def Progress (id : String) (s : RouteState) : List Exchange → Prop
  | []     => Fresh id s
  | [x]    => Stage id s x.asks
  | [x, y] => x.Refused ∧ Stage id s y.asks
  | _      => False

/-- The requests that have been sent when the press waits for the answer to one. -/
def Waiting : Ask → List Exchange → Prop
  | .retry _, sent => ∃ x y, sent = [x, y]
  | _, sent        => ∃ x, sent = [x]

/-- What the press waits for fits the requests it has sent. -/
def Position : Option (Option Ask) → List Exchange → Prop
  | none, sent          => sent = []
  | some none, _        => True
  | some (some q), sent =>
    if Press.reads q then True
    else if Press.renews q then ∃ x, sent = [x] ∧ x.Refused
    else Waiting q sent

structure Inv (id : String) (w : World) : Prop where
  press : ∀ p, w.press = some p → p.Parked fun entry _ q _ => Press.PressPiece id entry q
  handlers : ∀ x ∈ w.sent, ∀ p, x.handler = some p → p.Parked (RoutePiece id)
  sameId : ∀ x ∈ w.sent, x.request.headers.lookup "x-request-id" = some id
  progress : Progress id w.route w.sent
  position : Position (w.press.map Async.question?) w.sent

theorem send_of_reads {q : Option Ask} {sent : List Exchange}
    (h : ∀ a, q = some a → Press.reads a = true) : send q sent = sent := by
  cases q with
  | none => rfl
  | some a =>
    have := h a rfl
    cases a <;> first | cases this | rfl

theorem send_of_renews {a : Ask} {sent : List Exchange} (h : Press.renews a = true) :
    send (some a) sent = sent := by
  cases a with
  | fetch request retries =>
    have hopen : Press.isOpen request = false := by simpa [Press.renews] using h
    simp [send, openRequest, hopen]
  | retry request => cases h
  | json request response => rfl
  | promise p => rfl

theorem Position.of_reads {q : Option Ask} {sent : List Exchange}
    (h : ∀ a, q = some a → Press.reads a = true) : Position (some q) sent := by
  cases q with
  | none => trivial
  | some a => simp [Position, h a rfl]

theorem Position.of_renews {a : Ask} {x : Exchange} (h : Press.renews a = true) (hx : x.Refused) :
    Position (some (some a)) [x] := by
  rw [Position]
  split
  · trivial
  · exact ⟨x, rfl, hx⟩

theorem Exchange.result_eq_some {x : Exchange} {result : Except RouteError Unit} :
    x.result = some result ↔ x.asks = some (.respond result) := by
  unfold Exchange.result
  split
  next result' h => simp [h]
  next h => exact ⟨nofun, fun hasks => absurd hasks (h result)⟩

theorem Stage.not_conflict {id : String} {s : RouteState} {x : Exchange} (h : Stage id s x.asks)
    (message : String) : x.result ≠ some (.error (.openByUser (.conflict message))) := by
  intro hresult
  rw [Exchange.result_eq_some.mp hresult] at h
  exact h.2.2 message rfl

theorem Exchange.Refused.not_conflict {x : Exchange} (h : x.Refused) (message : String) :
    x.result ≠ some (.error (.openByUser (.conflict message))) := by
  intro hresult
  obtain ⟨result, hasks, h401⟩ := h.asks
  obtain rfl := RouteAsk.respond.inj (Option.some.inj (hasks.symm.trans (result_eq_some.mp hresult)))
  exact OpenError.getStatus_ne (.conflict message) h401

theorem Inv.atMostOne {id : String} {w : World} (h : Inv id w) : AtMostOne id w := by
  have hprogress := h.progress
  have hunregistered : ∀ (x : Exchange) result, Stage id w.route x.asks → x.result = some result →
      statusOf result = 401 → ¬ w.Registered id := by
    rintro x result hstage hresult h401 ⟨record, hmem, hid⟩
    rw [Exchange.result_eq_some.mp hresult] at hstage
    exact (hstage.fresh_of_unauthorized h401).1 record hmem hid
  match hsent : w.sent, hprogress with
  | [], hfresh =>
    exact {
      atMostTwo := by simp [hsent]
      sameId := h.sameId
      afterUnauthorized := by simp [hsent]
      unregistered := by simp [hsent]
      openedOnce := hfresh.2.trans_le (Nat.zero_le 1)
      notReplayed := by simp [hsent] }
  | [x], hstage =>
    exact {
      atMostTwo := by simp [hsent]
      sameId := h.sameId
      afterUnauthorized := by simp [hsent]
      unregistered := by
        rintro x' result hx
        obtain rfl : x = x' := by simpa [hsent] using hx
        exact hunregistered x result hstage
      openedOnce := hstage.count_le
      notReplayed := by simpa [hsent] using hstage.not_conflict }
  | [x, y], hboth =>
    obtain ⟨hrefused, hstage⟩ := hboth
    exact {
      atMostTwo := by simp [hsent]
      sameId := h.sameId
      afterUnauthorized := by
        rintro x' y' hxy
        obtain ⟨rfl, rfl⟩ : x = x' ∧ y = y' := by simpa [hsent] using hxy
        exact hrefused.answer
      unregistered := by
        rintro y' result hy
        obtain rfl : y = y' := by simpa [hsent] using hy
        exact hunregistered y result hstage
      openedOnce := hstage.count_le
      notReplayed := by
        simpa [hsent] using ⟨hrefused.not_conflict, hstage.not_conflict⟩ }
  | _ :: _ :: _ :: _, hfalse =>
    exact hfalse.elim

/-! ## Pieces of the press -/

theorem requestId_of_piece {id : String} {entry : Async.Entry Answer} {a : Ask} {request : Request}
    (h : Press.PressPiece id entry (some a)) (hopen : openRequest a = some request) :
    request.headers.lookup "x-request-id" = some id := by
  obtain hreads | hrenews | ⟨request', hopens, ⟨retries, rfl⟩ | rfl⟩ := h.cases
  · cases a <;> first | cases hreads | cases hopen
  · have hsend : send (some a) [] = [] := send_of_renews hrenews
    simp [send, hopen] at hsend
  · rw [openRequest, if_pos hopens.isOpen] at hopen
    exact Option.some.inj hopen ▸ hopens.requestId
  · rw [openRequest, if_pos hopens.isOpen] at hopen
    exact Option.some.inj hopen ▸ hopens.requestId

/-- The press has run a piece, and the requests fit what it waits for now. -/
theorem inv_run {id : String} {w : World} {entry : Async.Entry Answer}
    {p : Async Client Answer Unit}
    (hhandlers : ∀ x ∈ w.sent, ∀ p, x.handler = some p → p.Parked (RoutePiece id))
    (hids : ∀ x ∈ w.sent, x.request.headers.lookup "x-request-id" = some id)
    (hrest : p.Rest (fun entry _ q _ => Press.PressPiece id entry q) entry w.client w.client)
    (hnext : ∀ q, Press.PressPiece id entry q →
      Progress id w.route (send q w.sent) ∧ Position (some q) (send q w.sent)) :
    Inv id (w.run p) := by
  obtain ⟨hpiece, hparked⟩ := hrest.run
  have hmem : ∀ x ∈ (w.run p).sent, x ∈ w.sent ∨
      x.handler = none ∧ x.request.headers.lookup "x-request-id" = some id := by
    intro x hx
    rw [World.run, send] at hx
    dsimp only at hx
    split at hx
    next request hrequest =>
      obtain ⟨a, ha, hopen⟩ := Option.bind_eq_some_iff.mp hrequest
      rw [List.mem_append, List.mem_singleton] at hx
      apply hx.imp_right
      rintro rfl
      rw [ha] at hpiece
      exact ⟨rfl, requestId_of_piece hpiece hopen⟩
    next => exact .inl hx
  constructor
  case press =>
    rintro _ ⟨⟩
    exact hparked
  case handlers =>
    intro x hx p hp
    rcases hmem x hx with hold | ⟨hnone, -⟩
    · exact hhandlers x hold p hp
    · rw [hnone] at hp
      cases hp
  case sameId =>
    intro x hx
    rcases hmem x hx with hold | ⟨-, hid⟩
    · exact hids x hold
    · exact hid
  case progress => exact (hnext _ hpiece).1
  case position => exact (hnext _ hpiece).2

/-- The press is made. -/
theorem inv_press {id : String} {w : World} {p : Async Client Answer Unit} (h : Inv id w)
    (hnone : w.press = none)
    (hp : p.Meets fun entry _ q _ => Press.PressPiece id entry q) : Inv id (w.run p) := by
  have hsent : w.sent = [] := by
    have := h.position
    rwa [hnone] at this
  have hprogress := h.progress
  rw [hsent] at hprogress
  refine inv_run h.handlers h.sameId (hp w.client) fun q hq => ?_
  obtain ⟨request, retries, rfl, hopens⟩ := hq
  have hopen := hopens.isOpen
  have hsend : send (some (.fetch request retries)) w.sent = [⟨request, none, none⟩] := by
    simp [send, openRequest, hopen, hsent]
  rw [hsend]
  refine ⟨hprogress, ?_⟩
  simp [Position, Press.reads, Press.renews, hopen, Waiting]

/-- A request to open the gate is answered. If the answer is 401, the route has given it. -/
theorem inv_answerOpen {id : String} {w w' : World} {answer : Option Response} (h : Inv id w)
    (hstep : w.answerOpen answer = some w')
    (h401 : ∀ response, answer = some response → response.status = 401 →
      ∀ x ∈ w.sent.getLast?, ∃ result, x.asks = some (.respond result) ∧ statusOf result = 401) :
    Inv id w' := by
  have hposition := h.position
  have hprogress := h.progress
  unfold World.answerOpen at hstep
  split at hstep
  next request retries next hpress =>
    split at hstep
    next hopen =>
      obtain rfl := Option.some.inj hstep
      rw [hpress] at hposition
      obtain ⟨x, hsent⟩ : ∃ x, w.sent = [x] := by
        simpa [Position, Async.question?, Press.reads, Press.renews, hopen, Waiting] using hposition
      have hdelivered : (w.deliver answer).sent = [{ x with answer := some answer }] := by
        simp [World.deliver, hsent]
      have hrest := h.press _ hpress _ next rfl answer w.client
      refine inv_run ?_ ?_ hrest fun q hq => ?_
      · simpa [hdelivered] using h.handlers x (by simp [hsent])
      · simpa [hdelivered] using h.sameId x (by simp [hsent])
      · rw [hdelivered]
        rw [hsent] at hprogress
        rw [Press.PressPiece, if_pos hopen] at hq
        rcases hq with hreads | ⟨-, ⟨response, hanswer, hstatus⟩, a, rfl, hrenews⟩
        · rw [send_of_reads hreads]
          exact ⟨hprogress, .of_reads hreads⟩
        · rw [send_of_renews hrenews]
          obtain ⟨result, hasks, hresult⟩ := h401 response hanswer hstatus x (by simp [hsent])
          exact ⟨hprogress, .of_renews hrenews
            ⟨⟨response, by simp [hanswer], hstatus⟩, result, hasks, hresult⟩⟩
    next => cases hstep
  next request next hpress =>
    split at hstep
    next hopen =>
      obtain rfl := Option.some.inj hstep
      rw [hpress] at hposition
      obtain ⟨x, y, hsent⟩ : ∃ x y, w.sent = [x, y] := by
        simpa [Position, Async.question?, Press.reads, Press.renews, Waiting] using hposition
      have hdelivered : (w.deliver answer).sent = [x, { y with answer := some answer }] := by
        simp [World.deliver, hsent]
      have hrest := h.press _ hpress _ next rfl answer w.client
      have hhandlers := h.handlers
      have hids := h.sameId
      rw [hsent] at hhandlers hids hprogress
      refine inv_run ?_ ?_ hrest fun q hq => ?_
      · simpa [hdelivered] using hhandlers
      · simpa [hdelivered] using hids
      · rw [hdelivered]
        rcases hq with hreads | ⟨hfirst, -⟩
        · rw [send_of_reads hreads]
          exact ⟨hprogress, .of_reads hreads⟩
        · cases hfirst
    next => cases hstep
  next => cases hstep

/-- The token is renewed, or the body of an answer is read. -/
theorem inv_resume {id : String} {w : World} {q : Ask} {next : Answer q → Async Client Answer Unit}
    (h : Inv id w) (hpress : w.press = some (.await q next)) (hother : openRequest q = none)
    (answer : Answer q) : Inv id (w.run (next answer)) := by
  have hposition := h.position
  have hprogress := h.progress
  rw [hpress] at hposition
  have hrest := h.press _ hpress _ next rfl answer w.client
  refine inv_run h.handlers h.sameId hrest fun q' hq' => ?_
  have hreads : (∀ a, q' = some a → Press.reads a = true) →
      Progress id w.route (send q' w.sent) ∧ Position (some q') (send q' w.sent) := fun hreads => by
    rw [send_of_reads hreads]
    exact ⟨hprogress, .of_reads hreads⟩
  have hrefused : Press.renews q = true → Press.reads q = false → ∃ x, w.sent = [x] ∧ x.Refused := by
    intro hq hnot
    simpa [Position, Async.question?, hq, hnot] using hposition
  have hrenews : Press.renews q = true → Press.reads q = false →
      (∃ a, q' = some a ∧ Press.renews a = true) →
      Progress id w.route (send q' w.sent) ∧ Position (some q') (send q' w.sent) := by
    rintro hq hnot ⟨a, rfl, ha⟩
    obtain ⟨x, hsent, hx⟩ := hrefused hq hnot
    rw [send_of_renews ha, hsent]
    exact ⟨hsent ▸ hprogress, .of_renews ha hx⟩
  cases q with
  | fetch request retries =>
    have hopen : Press.isOpen request = false := by simpa [openRequest] using hother
    simp only [Press.PressPiece, hopen, Bool.false_eq_true, if_false] at hq'
    exact hrenews (by simp [Press.renews, hopen]) rfl hq'
  | retry request =>
    rcases hq' with hq' | ⟨hfirst, -⟩
    · exact hreads hq'
    · cases hfirst
  | json request response =>
    cases hopen : Press.isOpen request with
    | true =>
      obtain rfl : q' = none := by simpa [Press.PressPiece, hopen] using hq'
      exact hreads (by rintro _ ⟨⟩)
    | false =>
      simp only [Press.PressPiece, hopen, Bool.false_eq_true, if_false] at hq'
      exact hrenews (by simp [Press.renews, hopen]) hopen hq'
  | promise p =>
    rcases hq' with hq' | ⟨request, rfl, hopens⟩
    · exact hreads hq'
    · -- the route has answered 401, so it has not registered the id
      obtain ⟨x, hsent, hx⟩ := hrefused rfl rfl
      have hsend : send (some (.retry request)) w.sent = [x, ⟨request, none, none⟩] := by
        simp [send, openRequest, hopens.isOpen, hsent]
      obtain ⟨result, hasks, hresult⟩ := hx.asks
      rw [hsent, Progress, hasks] at hprogress
      rw [hsend]
      exact ⟨⟨hx, hprogress.fresh_of_unauthorized hresult⟩, x, _, rfl⟩

/-! ## Pieces of the handlers -/

theorem Exchange.Refused.asks_ne {x : Exchange} (h : x.Refused)
    (hnot : ∀ result, x.asks ≠ some (.respond result)) : False :=
  let ⟨result, hasks, _⟩ := h.asks
  hnot result hasks

theorem waiting_modify {q : Ask} {sent : List Exchange} {k : Nat} {f : Exchange → Exchange}
    (h : Waiting q sent) : Waiting q (sent.modify k f) := by
  have hlength : (sent.modify k f).length = sent.length := List.length_modify ..
  cases q with
  | retry request =>
    obtain ⟨x, y, rfl⟩ := h
    exact List.length_eq_two.mp hlength
  | fetch request retries =>
    obtain ⟨x, rfl⟩ := h
    exact List.length_eq_one_iff.mp hlength
  | json request response =>
    obtain ⟨x, rfl⟩ := h
    exact List.length_eq_one_iff.mp hlength
  | promise p =>
    obtain ⟨x, rfl⟩ := h
    exact List.length_eq_one_iff.mp hlength

/-- A handler that has not answered yet goes on. -/
theorem position_modify {press : Option (Option Ask)} {sent : List Exchange} {k : Nat} {x : Exchange}
    (h : Position press sent) (hk : sent[k]? = some x)
    (hnot : ∀ result, x.asks ≠ some (.respond result)) (f : Exchange → Exchange) :
    Position press (sent.modify k f) := by
  match press, h with
  | none, h =>
    obtain rfl := h
    cases hk
  | some none, _ => trivial
  | some (some q), h =>
    rw [Position] at h ⊢
    by_cases hreads : Press.reads q = true
    · rw [if_pos hreads]
      trivial
    rw [if_neg hreads] at h ⊢
    by_cases hrenews : Press.renews q = true
    · rw [if_pos hrenews] at h
      obtain ⟨x', rfl, hx'⟩ := h
      obtain ⟨rfl, rfl⟩ : k = 0 ∧ x' = x := by
        rw [List.getElem?_singleton] at hk
        split at hk
        next hk0 => exact ⟨hk0, Option.some.inj hk⟩
        next => cases hk
      exact (hx'.asks_ne hnot).elim
    · rw [if_neg hrenews] at h ⊢
      exact waiting_modify h

theorem inv_handle {id : String} {w : World} {k : Nat} {x : Exchange}
    {entry : Async.Entry RouteAnswer} {p : Async RouteState RouteAnswer Unit} (h : Inv id w)
    (hk : w.sent[k]? = some x) (hnot : ∀ result, x.asks ≠ some (.respond result))
    (hrest : p.Rest (RoutePiece id) entry w.route w.route)
    (hstage : ∀ q s, Stage id w.route x.asks → RoutePiece id entry w.route q s → Stage id s q) :
    Inv id (w.handle k p) := by
  obtain ⟨hpiece, hparked⟩ := hrest.run
  have hmem : ∀ x' ∈ (w.handle k p).sent, ∃ old ∈ w.sent, x'.request = old.request ∧
      (x' = old ∨ x'.handler = some (p.run w.route).1) := by
    intro x' hx'
    obtain ⟨j, hj⟩ := List.getElem?_of_mem hx'
    obtain ⟨old, hold, rfl⟩ := getElem?_modify_cases hj
    refine ⟨old, List.mem_of_getElem? hold, ?_⟩
    split
    · exact ⟨rfl, .inr rfl⟩
    · exact ⟨rfl, .inl rfl⟩
  constructor
  case press => exact h.press
  case handlers =>
    intro x' hx' p' hp'
    obtain ⟨old, hold, -, rfl | hhandler⟩ := hmem x' hx'
    · exact h.handlers x' hold p' hp'
    · obtain rfl := Option.some.inj (hhandler.symm.trans hp')
      exact hparked
  case sameId =>
    intro x' hx'
    obtain ⟨old, hold, hrequest, -⟩ := hmem x' hx'
    rw [hrequest]
    exact h.sameId old hold
  case progress =>
    have hprogress := h.progress
    change Progress id (p.run w.route).2 (w.sent.modify k fun x =>
      { x with handler := some (p.run w.route).1 })
    match hsent : w.sent, hprogress with
    | [], _ => simp [hsent] at hk
    | [y], hy =>
      obtain ⟨rfl, rfl⟩ : k = 0 ∧ y = x := by
        rw [hsent, List.getElem?_singleton] at hk
        split at hk
        next hk0 => exact ⟨hk0, Option.some.inj hk⟩
        next => cases hk
      exact hstage _ _ hy hpiece
    | [y, z], ⟨hy, hz⟩ =>
      rw [hsent] at hk
      match k, hk with
      | 0, hk =>
        obtain rfl := Option.some.inj hk
        exact (hy.asks_ne hnot).elim
      | 1, hk =>
        obtain rfl := Option.some.inj hk
        exact ⟨hy, hstage _ _ hz hpiece⟩
    | _ :: _ :: _ :: _, hfalse => exact hfalse.elim
  case position => exact position_modify h.position hk hnot _

/-! ## The environment -/

theorem Fresh.foreign {id : String} {s s' : RouteState} (h : Fresh id s) (hforeign : Foreign id s s') :
    Fresh id s' := by
  refine ⟨fun record hmem hid => ?_, hforeign.1.trans h.2⟩
  obtain ⟨old, hold, hold'⟩ := List.any_eq_true.mp
    (hforeign.2 (List.any_eq_true.mpr ⟨record, hmem, by simpa using hid⟩))
  exact h.1 old hold (by simpa using hold')

theorem Stage.foreign {id : String} {s s' : RouteState} {q : Option RouteAsk} (h : Stage id s q)
    (hforeign : Foreign id s s') : Stage id s' q := by
  cases q with
  | none => exact Fresh.foreign h hforeign
  | some q =>
    rw [Stage] at h ⊢
    split
    next hearly =>
      rw [if_pos hearly] at h
      exact h.foreign hforeign
    next hlate =>
      rw [if_neg hlate] at h
      exact ⟨hforeign.1.trans_le h.1, h.2⟩

theorem Progress.foreign {id : String} {s s' : RouteState} {sent : List Exchange}
    (h : Progress id s sent) (hforeign : Foreign id s s') : Progress id s' sent :=
  match sent, h with
  | [], h               => Fresh.foreign h hforeign
  | [_], h              => Stage.foreign h hforeign
  | [_, _], ⟨hx, hy⟩    => ⟨hx, hy.foreign hforeign⟩
  | _ :: _ :: _ :: _, h => h.elim

/-! ## Runs -/

section Runs

variable {crypto : Crypto} {options : ApiOptions} {randomUUID : String}

theorem inv_step (hmethod : options.method = "POST") (hcaller : Press.NoCallerId options.headers)
    (huuid : randomUUID ≠ "") {w w' : World} {e : Event} (h : Inv randomUUID w)
    (hstep : step crypto options randomUUID w e = some w') : Inv randomUUID w' := by
  cases e with
  | press =>
    rw [step] at hstep
    split at hstep
    next => cases hstep
    next hnone =>
      obtain rfl := Option.some.inj hstep
      exact inv_press h (by simpa using hnone) (Press.press_meets hmethod hcaller huuid)
  | page client =>
    obtain rfl := Option.some.inj hstep
    exact ⟨h.press, h.handlers, h.sameId, h.progress, h.position⟩
  | server route =>
    rw [step] at hstep
    split at hstep
    next hforeign =>
      obtain rfl := Option.some.inj hstep
      exact ⟨h.press, h.handlers, h.sameId, h.progress.foreign hforeign, h.position⟩
    next => cases hstep
  | arrive k request =>
    rw [step] at hstep
    split at hstep
    next x hk =>
      split at hstep
      next henabled =>
        obtain rfl := Option.some.inj hstep
        obtain ⟨hnone, -, hid⟩ := henabled
        have hasks : x.asks = none := by
          rw [Exchange.asks, Option.isNone_iff_eq_none.mp hnone]
          rfl
        have hrequest : ∀ requestId, request.xRequestId = some requestId → requestId = randomUUID := by
          intro requestId heq
          rw [hid, h.sameId x (List.mem_of_getElem? hk)] at heq
          exact (Option.some.inj heq).symm
        apply inv_handle h hk (by simp [hasks]) (handleOpen_meets hrequest w.route)
        rw [hasks]
        exact fun q s hfresh hpiece => .early hfresh hpiece
      next => cases hstep
    next => cases hstep
  | serve k answer =>
    rw [step] at hstep
    split at hstep
    next => cases hstep
    next q next hrespond hhandler =>
      obtain rfl := Option.some.inj hstep
      obtain ⟨x, hk, hx⟩ := Option.bind_eq_some_iff.mp hhandler
      have hasks : x.asks = some q := by
        rw [Exchange.asks, hx]
        rfl
      have hnot : ∀ result, q ≠ .respond result := fun result heq => by
        subst heq
        exact hrespond _ _ rfl HEq.rfl
      have hrest := h.handlers x (List.mem_of_getElem? hk) _ hx q next rfl (answer q) w.route
      apply inv_handle h hk (by simpa [hasks] using hnot) hrest
      rw [hasks]
      exact fun q' s hstage hpiece => hstage.serve hnot hpiece
    next => cases hstep
  | response statusText isJson =>
    rw [step] at hstep
    split at hstep
    next result hresult =>
      apply inv_answerOpen h hstep
      rintro response ⟨⟩ h401 x hx
      obtain ⟨x', hx', hasks⟩ := Option.bind_eq_some_iff.mp hresult
      obtain rfl : x = x' := Option.some.inj (hx.symm.trans hx')
      exact ⟨result, Exchange.result_eq_some.mp hasks, h401⟩
    next => cases hstep
  | elsewhere answer =>
    rw [step] at hstep
    split at hstep
    next => cases hstep
    next hother =>
      apply inv_answerOpen h hstep
      rintro response rfl h401
      exact absurd (by simp [h401]) hother
  | resume answer =>
    rw [step] at hstep
    split at hstep
    next q next hpress =>
      split at hstep
      next henabled =>
        obtain rfl := Option.some.inj hstep
        exact inv_resume h hpress henabled.1 (answer q)
      next => cases hstep
    next => cases hstep

/-- One press opens the gate at most once: however the requests, the answers, the refreshes of
    the token and the other calls and requests interleave, if the id that the press makes up
    is new. -/
theorem one_press_one_open (hmethod : options.method = "POST")
    (hcaller : Press.NoCallerId options.headers) (huuid : randomUUID ≠ "") {route : RouteState}
    (hnew : ∀ record ∈ route.requests, record.requestId ≠ randomUUID)
    (hunopened : randomUUID ∉ route.opened) (client : Client) (events : List Event) :
    AllStates (step crypto options randomUUID) (AtMostOne randomUUID) ⟨client, none, [], route⟩
      events := by
  have hinit : Inv randomUUID ⟨client, none, [], route⟩ :=
    ⟨nofun, nofun, nofun, ⟨hnew, List.count_eq_zero.mpr hunopened⟩, rfl⟩
  refine (allStates_of_allSteps (C := fun _ _ => True) ?_ hinit allSteps_true).mono
    fun w h => h.atMostOne
  exact fun w e w' hw _ hstep => inv_step hmethod hcaller huuid hw hstep

end Runs

/-- Every operation of the route succeeds. -/
def works : (q : RouteAsk) → RouteAnswer q
  | .database      => none
  | .throttler     => false
  | .insertRequest => none
  | .openGate ..   => (⟨false, 0⟩, .ok ())
  | .insertLog ..  => none
  | .respond _     => ()

/-- The refresh succeeds with the token `token`. -/
def renewed (token : String) : (q : Ask) → Answer q
  | .fetch ..  => some ⟨201, "Created", true⟩
  | .retry _   => none
  | .json ..   => some (.object .other (some token))
  | .promise _ => some token

def pressId : String := "5f0c2a34-9c1d-4b7e-8a55-0123456789ab"

def pressUser : User where
  id := "64b0c2f1a1b2c3d4e5f60718"
  email := "dana@example.com"
  passwordHash := "salt$secret"
  role := .user
  firstName := "Dana"
  lastName := "Levi"
  phone := "0501234567"
  apartmentNumber := 4
  floor := 1
  status := .approved
  rejectionReason := none
  approvedAt := some 1600000000000
  rejectedAt := none
  approvalEmailSentAt := none
  activeDeviceId := some "phone"
  activeSessionId := some "s1"
  refreshTokenHash := none
  resetPasswordTokenHash := none
  resetPasswordExpiresAt := none
  createdAt := 1600000000000

def pressStart : World where
  client := .init
  press := none
  sent := []
  route := ⟨⟨[pressUser], [⟨pressUser.id, "phone", "s1", "hash", 0⟩], []⟩, [], [], [], 1700000000000⟩

/-- What the refresh brings. -/
def pressToken : String := Crypto.plain.signAccess 0 ⟨pressUser.id, .user, "phone", "s1"⟩

/-- A press without a token: the route answers 401, the token is renewed, and the second request
    passes the guards, is registered and has the gate opened. -/
def pressedTwice : List Event :=
  [.press, .arrive 0 ⟨none, some pressId, none, none⟩, .serve 0 works, .response "Unauthorized" false,
    .resume (renewed pressToken), .resume (renewed pressToken), .resume (renewed pressToken),
    .arrive 1 ⟨some ("Bearer " ++ pressToken), some pressId, none, none⟩] ++
    List.replicate 10 (.serve 1 works) ++ [.response "Created" true, .resume (renewed pressToken)]

theorem one_press_one_open_pressedTwice :
    let step := step .plain { method := "POST" } pressId
    AllStates step (AtMostOne pressId) pressStart pressedTwice ∧
      (exec step pressStart pressedTwice).map
        (fun w => (w.sent.length, w.route.opened, w.route.logs.map (·.status))) =
          some (2, [pressId], [.success]) :=
  ⟨one_press_one_open rfl (by simp [Press.NoCallerId]) (by decide) (by simp) (by simp) _ _,
    by decide +kernel⟩

end OnePress
