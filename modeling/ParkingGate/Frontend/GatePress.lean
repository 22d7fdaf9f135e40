-- SUMMARY: One press on the gate button: the requests that a call of apiRequest('/gate/open') sends, piece by piece, and their X-Request-Id.
import ParkingGate.Frontend.Calls

/-!
# A press

The call makes up a request id, sends the request, and sends it a second time with the new
token if the first answer is 401 and a refresh succeeds. The id is set on both.
-/

namespace Frontend

namespace Headers

/-- `req.headers[name]` on the server, where the names of headers are in lower case. -/
def lookup (headers : Headers) (name : String) : Option String :=
  headers.findSome? fun header => if header.1.toLower = name then some header.2 else none

variable {headers : Headers} {name key value : String}

theorem lookup_eq_none : headers.lookup name = none ↔ ∀ header ∈ headers, header.1.toLower ≠ name := by
  simp [lookup]

/-- A header of another name does not matter. -/
theorem lookup_set_of_ne (h : key.toLower ≠ name) :
    (headers.set key value).lookup name = headers.lookup name := by
  unfold set lookup
  split
  next =>
    rw [List.findSome?_map]
    congr 1
    funext header
    by_cases hkey : header.1 = key <;> simp [hkey, h]
  next => simp [List.findSome?_append, h]

/-- A header is set that is not there in another spelling with another value. -/
theorem lookup_set (h : key.toLower = name)
    (hold : headers.lookup name = none ∨ headers.lookup name = some value) :
    (headers.set key value).lookup name = some value := by
  unfold set
  split
  next hany =>
    obtain ⟨header, hmem, hkey⟩ := List.any_eq_true.mp hany
    have hsome : headers.lookup name = some value := hold.resolve_left fun hnone =>
      lookup_eq_none.mp hnone header hmem (by rw [beq_iff_eq.mp hkey, h])
    clear hold hany hmem hkey
    unfold lookup at hsome ⊢
    induction headers with
    | nil => cases hsome
    | cons first rest ih =>
      rw [List.map_cons, List.findSome?_cons]
      rw [List.findSome?_cons] at hsome
      by_cases hname : first.1.toLower = name
      · by_cases hkey : first.1 = key <;> simp_all
      · have hkey : (first.1 == key) = false := beq_false_of_ne fun heq => hname (heq ▸ h)
        simp only [hname, hkey, Bool.false_eq_true, if_false] at hsome ⊢
        exact ih hsome
  next hany =>
    unfold lookup at hold ⊢
    rw [List.findSome?_append]
    rcases hold with hold | hold <;> simp [hold, h]

end Headers

namespace Press

/-- The caller sets no request id, in any spelling. -/
def NoCallerId (headers : Headers) : Prop :=
  ∀ header ∈ headers, header.1.toLower ≠ "x-request-id"

theorem lower_xRequestId : "X-Request-Id".toLower = "x-request-id" := by decide +kernel

theorem get_of_noCallerId {headers : Headers} (h : NoCallerId headers) {name : String}
    (hname : name.toLower = "x-request-id") : headers.get name = none := by
  rw [Headers.get, List.lookup_eq_none_iff]
  intro header hmem
  rw [bne_iff_ne]
  rintro rfl
  exact h header hmem hname

/-- `crypto.randomUUID()` gives the id. -/
theorem requestIdOf_eq {options : ApiOptions} (hmethod : options.method = "POST")
    (h : NoCallerId options.headers) (randomUUID : String) :
    requestIdOf "/gate/open" options randomUUID = some randomUUID := by
  simp only [requestIdOf, hmethod, get_of_noCallerId h lower_xRequestId,
    get_of_noCallerId h (by decide +kernel : "x-request-id".toLower = "x-request-id")]
  rfl

/-- The headers before the id are the caller's, and `Accept`. -/
theorem lookup_foldl {headers : Headers} (h : NoCallerId headers) {acc : Headers}
    (hacc : acc.lookup "x-request-id" = none) :
    (headers.foldl (fun headers header => headers.set header.1 header.2) acc).lookup
      "x-request-id" = none := by
  induction headers generalizing acc with
  | nil => exact hacc
  | cons header headers ih =>
    refine ih (fun header' hmem => h header' (List.mem_cons_of_mem _ hmem)) ?_
    rw [Headers.lookup_set_of_ne (h header List.mem_cons_self)]
    exact hacc

/-- The first request, and the second, have the id. -/
theorem lookup_headersOf {options : ApiOptions} (h : NoCallerId options.headers) {id : String}
    (hid : id ≠ "") : (headersOf options (some id)).lookup "x-request-id" = some id := by
  have hfold : (options.headers.foldl (fun headers header => Headers.set headers header.1 header.2)
      [("Accept", "application/json")]).lookup "x-request-id" = none :=
    lookup_foldl h (by decide +kernel)
  have hset : ((setIfTruthy (options.headers.foldl (fun headers header =>
      Headers.set headers header.1 header.2) [("Accept", "application/json")]) "X-Request-Id"
        (some id)).lookup "x-request-id") = some id := by
    simp only [setIfTruthy, hid, if_false]
    exact Headers.lookup_set lower_xRequestId (.inl hfold)
  unfold headersOf
  dsimp only
  split
  next => rw [Headers.lookup_set_of_ne (by decide +kernel), hset]
  next => exact hset

theorem lookup_authorize {auth : Bool} {token : Option String} {headers : Headers} :
    (authorize auth token headers).lookup "x-request-id" = headers.lookup "x-request-id" := by
  unfold authorize
  split
  next =>
    split
    next => exact Headers.lookup_set_of_ne (by decide +kernel)
    next => rfl
  next => rfl

/-- A request to open the gate. -/
def isOpen (request : Request) : Bool :=
  request.url = urlOf "/gate/open" ∧ request.method = "POST"

/-- A request to open the gate with the id `id`. -/
structure Opens (id : String) (request : Request) : Prop where
  isOpen : isOpen request = true
  requestId : request.headers.lookup "x-request-id" = some id

theorem isOpen_refreshRequest : isOpen refreshRequest = false := by decide +kernel

/-- What a call waits for while it renews the token. -/
def renews : Ask → Bool
  | .fetch request _ => !isOpen request
  | .json request _  => !isOpen request
  | .promise _       => true
  | .retry _         => false

/-- What a call waits for after its last request. -/
def reads : Ask → Bool
  | .json request _ => isOpen request
  | _               => false

/-- A piece of a press that has the answer to a request to open, the first one if `first`. -/
def Answered (first : Bool) (answer : Option Response) (q : Option Ask) : Prop :=
  (∀ a, q = some a → reads a = true) ∨
    first = true ∧ (∃ response, answer = some response ∧ response.status = 401) ∧
      ∃ a, q = some a ∧ renews a = true

/-- What a piece of a press with the request id `id` awaits at its end. -/
def PressPiece (id : String) : Async.Entry Answer → Option Ask → Prop
  | .start, q => ∃ request retries, q = some (.fetch request retries) ∧ Opens id request
  | .answered (.fetch request _) answer, q =>
    if isOpen request then Answered true answer q else ∃ a, q = some a ∧ renews a = true
  | .answered (.retry _) answer, q => Answered false answer q
  | .answered (.json request _) _, q =>
    if isOpen request then q = none else ∃ a, q = some a ∧ renews a = true
  | .answered (.promise _) _, q =>
    (∀ a, q = some a → reads a = true) ∨ ∃ request, q = some (.retry request) ∧ Opens id request

/-- What a press waits for. -/
theorem PressPiece.cases {id : String} {entry : Async.Entry Answer} {a : Ask}
    (h : PressPiece id entry (some a)) :
    reads a = true ∨ renews a = true ∨
      ∃ request, Opens id request ∧ ((∃ retries, a = .fetch request retries) ∨ a = .retry request) := by
  have hanswered : ∀ {first answer}, Answered first answer (some a) →
      reads a = true ∨ renews a = true := by
    rintro first answer (hreads | ⟨-, -, _, ⟨⟩, hrenews⟩)
    · exact .inl (hreads a rfl)
    · exact .inr hrenews
  cases entry with
  | start =>
    obtain ⟨request, retries, heq, hopens⟩ := h
    exact .inr (.inr ⟨request, hopens, .inl ⟨retries, Option.some.inj heq⟩⟩)
  | answered q answer =>
    cases q with
    | fetch request retries =>
      rw [PressPiece] at h
      split at h
      · exact (hanswered h).imp_right .inl
      · obtain ⟨_, ⟨⟩, hrenews⟩ := h
        exact .inr (.inl hrenews)
    | retry request => exact (hanswered h).imp_right .inl
    | json request response =>
      rw [PressPiece] at h
      split at h
      · cases h
      · obtain ⟨_, ⟨⟩, hrenews⟩ := h
        exact .inr (.inl hrenews)
    | promise p =>
      rcases h with hreads | ⟨request, heq, hopens⟩
      · exact .inl (hreads a rfl)
      · exact .inr (.inr ⟨request, hopens, .inr (Option.some.inj heq)⟩)

/-- A piece of a press that ends at an await. -/
abbrev PressAwaits (id : String) (entry : Async.Entry Answer) (_ : Client) (q : Ask) (_ : Client) :
    Prop :=
  PressPiece id entry (some q)

section Specs

variable {id : String} {entry : Async.Entry Answer} {c₀ c : Client}
  {post : Async.Entry Answer → Client → Except JsError Data → Client → Prop}

/-- The last request is answered, and its body is read. -/
theorem wp_readOpen {request : Request} {response : Response} (hopen : isOpen request = true)
    (hreads : PressPiece id entry (some (.json request response))) (hends : PressPiece id entry none) :
    Async.wp (PressAwaits id) (fun entry _ _ _ => PressPiece id entry none) entry c₀
      (readResponse request response).run c := by
  have hread : ∀ answer, PressPiece id (.answered (.json request response) answer) none :=
    fun _ => by simp [PressPiece, hopen]
  simp only [readResponse]
  split
  next =>
    rw [Async.wp_run_bind, wp_json]
    refine ⟨hreads, fun c => hread none, fun data c => ?_⟩
    dsimp only
    split
    next => exact hread (some data)
    next => exact hread (some data)
  next =>
    simp only [Async.wp_run_bind, Async.wp_run_pure]
    split
    next => exact hends
    next => exact hends

/-- The piece may go on to renew the token. -/
def Renewing (id : String) (entry : Async.Entry Answer) : Prop :=
  ∀ a, renews a = true → PressPiece id entry (some a)

theorem renewing_fetch (answer : Option Response) :
    Renewing id (.answered (.fetch refreshRequest false) answer) := by
  intro a ha
  simp only [PressPiece, isOpen_refreshRequest, Bool.false_eq_true, if_false]
  exact ⟨a, rfl, ha⟩

theorem renewing_json (response : Response) (answer : Option Data) :
    Renewing id (.answered (.json refreshRequest response) answer) := by
  intro a ha
  simp only [PressPiece, isOpen_refreshRequest, Bool.false_eq_true, if_false]
  exact ⟨a, rfl, ha⟩

theorem wp_requestRefresh (hentry : Renewing id entry)
    (hpost : ∀ entry c r, Renewing id entry → post entry c r c) :
    Async.wp (PressAwaits id) post entry c₀ requestRefresh.run c := by
  have hother : (!isOpen refreshRequest) = true := by rw [isOpen_refreshRequest]; rfl
  rw [requestRefresh_eq, getAccessToken, Async.wp_run_bind, wp_atomically, Async.wp_run_bind, wp_fetch]
  refine ⟨hentry _ hother, fun c => hpost _ c _ (renewing_fetch _), fun response c => ?_⟩
  simp only [readResponse]
  split
  next =>
    rw [Async.wp_run_bind, wp_json]
    refine ⟨renewing_fetch _ _ hother, fun c => hpost _ c _ (renewing_json _ _), fun data c => ?_⟩
    dsimp only
    split
    next => exact hpost _ c (.ok data) (renewing_json _ _)
    next => exact hpost _ c (.error _) (renewing_json _ _)
  next =>
    simp only [Async.wp_run_bind, Async.wp_run_pure]
    split
    next => exact hpost _ c (.ok .null) (renewing_fetch _)
    next => exact hpost _ c (.error _) (renewing_fetch _)

theorem wp_refreshAccessToken
    {post : Async.Entry Answer → Client → Except JsError (Option String) → Client → Prop}
    (hentry : Renewing id entry)
    (hpost : ∀ p token c, post (.answered (.promise p) token) c (.ok token) c) :
    Async.wp (PressAwaits id) post entry c₀ refreshAccessToken.run c := by
  rw [refreshAccessToken, Async.wp_run_bind, wp_atomically]
  dsimp only
  split
  next p _ =>
    rw [wp_promise]
    exact ⟨hentry _ rfl, fun token c => hpost p token c⟩
  next =>
    rw [newRefreshPromise, Async.wp_run_bind, wp_atomically]
    dsimp only
    rw [Async.wp_run_bind, refreshOnce, Async.wp_run_tryCatch, Async.wp_run_bind]
    have hwait : ∀ entry c₀ c, Renewing id entry → ∀ p,
        Async.wp (PressAwaits id) post entry c₀ (promise p).run c := fun entry c₀ c hentry p => by
      rw [wp_promise]
      exact ⟨hentry _ rfl, fun token c => hpost p token c⟩
    refine wp_requestRefresh hentry fun entry c r hentry => ?_
    cases r with
    | error e => exact hwait entry _ _ hentry _
    | ok data =>
      dsimp only
      rw [Async.wp_run_bind, wp_accessTokenOf]
      exact ⟨fun token _ => hwait entry _ _ hentry _, fun _ => hwait entry _ _ hentry _⟩

end Specs

/-- Every piece of a press is as `PressPiece` says. -/
theorem press_meets {options : ApiOptions} {id : String} (hmethod : options.method = "POST")
    (hcaller : NoCallerId options.headers) (hid : id ≠ "") :
    (Call.task (apiRequest "/gate/open" options id)).Meets
      fun entry _ q _ => PressPiece id entry q := by
  intro c
  rw [Call.task, Async.Rest, Async.wp_bind, apiRequest, apiRequestWith, getAccessToken,
    Async.wp_run_bind, wp_atomically]
  dsimp only
  rw [requestIdOf_eq hmethod hcaller]
  generalize hheaders : authorize options.auth c.accessToken (headersOf options (some id)) = headers
  have hlookup : headers.lookup "x-request-id" = some id := by
    rw [← hheaders, lookup_authorize, lookup_headersOf hcaller hid]
  obtain ⟨request, hopens, hrequest⟩ : ∃ request, Opens id request ∧
      ⟨urlOf "/gate/open", options.method, headers, options.body⟩ = request :=
    ⟨_, ⟨by simp [isOpen, hmethod], hlookup⟩, rfl⟩
  have hopen := hopens.isOpen
  have hfetch : ∀ {retries answer q}, Answered true answer q →
      PressPiece id (.answered (.fetch request retries) answer) q := fun h => by
    simpa [PressPiece, hopen] using h
  have hreads : ∀ {first answer response}, Answered first answer (some (.json request response)) := by
    intro first answer response
    refine .inl ?_
    rintro _ ⟨⟩
    exact hopen
  have hends : ∀ {first answer}, Answered first answer none := .inl (by rintro _ ⟨⟩)
  rw [hrequest, sendWith, Async.wp_run_bind, wp_fetch]
  generalize (options.auth && !options.isRefreshCall) = retries
  refine ⟨⟨request, _, rfl, hopens⟩, fun c => ?_, fun response c => ?_⟩
  · change PressPiece id (.answered (.fetch request retries) none) none
    exact hfetch hends
  dsimp only
  split
  next h401 =>
    rw [Async.wp_run_bind]
    refine wp_refreshAccessToken (fun a ha => hfetch (.inr ⟨rfl, ⟨response, rfl, h401.1⟩, a, rfl, ha⟩))
      fun p token c => ?_
    -- without a token the first answer is the result
    have hfirst : Async.wp (PressAwaits id) (fun entry _ _ _ => PressPiece id entry none)
        (.answered (.promise p) token) c (readResponse request response).run c :=
      wp_readOpen hopen (.inl (by rintro _ ⟨⟩; exact hopen)) (.inl (by rintro _ ⟨⟩))
    dsimp only
    cases token with
    | none => exact hfirst
    | some newToken =>
      dsimp only
      split
      next => exact hfirst
      next =>
        have hopens' : Opens id
            { request with
              headers := setIfTruthy (request.headers.set "Authorization" s!"Bearer {newToken}")
                "X-Request-Id" (some id) } := by
          refine ⟨hopen, ?_⟩
          simp only [setIfTruthy, hid, if_false]
          refine Headers.lookup_set lower_xRequestId (.inr ?_)
          rw [Headers.lookup_set_of_ne (by decide +kernel), hopens.requestId]
        rw [Async.wp_run_bind, wp_fetchAgain]
        refine ⟨.inr ⟨_, rfl, hopens'⟩, fun c => hends, fun response c => ?_⟩
        exact wp_readOpen hopens'.isOpen (.inl (by rintro _ ⟨⟩; exact hopens'.isOpen)) hends
  next => exact wp_readOpen hopen (hfetch hreads) (hfetch hends)

end Press

end Frontend
