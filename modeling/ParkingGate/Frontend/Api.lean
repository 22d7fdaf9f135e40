-- SUMMARY: The fetch wrapper of the front end (`lib/api.ts`) and the calls of `AuthContext`: requests, the retry after a 401, and the single-flight refresh.
import ParkingGate.Backend.Store
import ParkingGate.Base.Async

/-!
# The API client

`apiRequest` sends a request, refreshes the access token once after a 401, and sends it again.
The access token and the promise of a running refresh are variables of the module, which all
calls share; between two awaits of one call the others may run.
-/

namespace Frontend

open Backend (truthy)

/-! ## Requests and answers -/

/-- A record of headers, in the order of their insertion. -/
abbrev Headers := List (String × String)

namespace Headers

def get (headers : Headers) (name : String) : Option String := List.lookup name headers

/-- `headers[name] = value` -/
def set (headers : Headers) (name value : String) : Headers :=
  if headers.any (·.1 == name) then
    headers.map fun header => if header.1 == name then (name, value) else header
  else headers ++ [(name, value)]

end Headers

structure ApiOptions where
  method : String := "GET"
  body : Option String := none
  headers : Headers := []
  auth : Bool := true
  isRefreshCall : Bool := false

def API_BASE_URL : String := "http://localhost:3001/api"

def urlOf (path : String) : String :=
  if path.startsWith "http" then path
  else API_BASE_URL ++ if path.startsWith "/" then path else "/" ++ path

/-- What `fetch` is called with. -/
structure Request where
  url : String
  method : String
  headers : Headers
  body : Option String
  deriving DecidableEq

/-- A response: its status, and whether its content type is JSON. -/
structure Response where
  status : Nat
  statusText : String
  isJson : Bool

def Response.ok (response : Response) : Bool := 200 ≤ response.status ∧ response.status < 300

/-- The field `message` of a body. -/
inductive Message where
  | text (s : String)
  | texts (l : List String)
  | other

/-- A body: `null`, another value that is no object, or an object with its message and, if it
    has the field `tokens`, the access token. -/
inductive Data where
  | null
  | primitive
  | object (message : Message) (tokens : Option String)

/-- `data.tokens.accessToken`, if it can be read. -/
def Data.accessToken? : Data → Option String
  | .object _ tokens => tokens
  | _                => none

inductive JsError where
  | apiError (message : String) (status : Option Nat)
  | typeError
  | syntaxError

/-! ## The module -/

/-- The variables of the module, with the promises that `refreshPromise` has been set to and
    what each of them was resolved with. `stores` counts the access tokens that were stored;
    the code does not read it. -/
structure Client where
  accessToken : Option String
  refreshPromise : Option Nat
  promises : List (Option (Option String))
  stores : Nat

def Client.init : Client := ⟨none, none, [], 0⟩

/-- What a call waits for: the answer to its first request (and whether it sends the request
    again after a 401), the answer to the second, the body of an answer, or a promise. -/
inductive Ask where
  | fetch (request : Request) (retries : Bool)
  | retry (request : Request)
  | json (request : Request) (response : Response)
  | promise (p : Nat)

/-- `none` stands for an exception. -/
abbrev Answer : Ask → Type
  | .fetch ..  => Option Response
  | .retry _   => Option Response
  | .json ..   => Option Data
  | .promise _ => Option String

/-- A promise answers with what it was resolved with. The network answers anything. -/
def allows (c : Client) : (q : Ask) → Answer q → Bool
  | .promise p, token => c.promises[p]? = some (some token)
  | .fetch .., _      => true
  | .retry _, _       => true
  | .json .., _       => true

abbrev Api := ExceptT JsError (Async Client Answer)

def atomically {α : Type} (f : Client → α × Client) : Api α := ExceptT.lift (Async.atomically f)

def ask (q : Ask) : Api (Answer q) := ExceptT.lift (Async.ask q)

def getAccessToken : Api (Option String) := atomically fun c => (c.accessToken, c)

def setAccessToken (token : String) : Api Unit :=
  atomically fun c => ((), { c with accessToken := some token, stores := c.stores + 1 })

def clearAccessToken : Api Unit := atomically fun c => ((), { c with accessToken := none })

/-- A new promise, to which `refreshPromise` is set. -/
def newRefreshPromise : Api Nat :=
  atomically fun c => (c.promises.length,
    { c with refreshPromise := some c.promises.length, promises := c.promises ++ [none] })

/-- `refreshPromise = null`, and the promise is resolved. -/
def resolveRefreshPromise (p : Nat) (token : Option String) : Api Unit :=
  atomically fun c => ((),
    { c with refreshPromise := none, promises := c.promises.set p (some token) })

def networkError : JsError := .apiError "שגיאת רשת, נסו שוב." none

/-- `fetch`, in the `try` block of `apiRequest`. -/
def fetch (request : Request) (retries : Bool) : Api Response := do
  let answer : Option Response ← ask (.fetch request retries)
  match answer with
  | some response => return response
  | none          => throw networkError

def fetchAgain (request : Request) : Api Response := do
  let answer : Option Response ← ask (.retry request)
  match answer with
  | some response => return response
  | none          => throw networkError

def json (request : Request) (response : Response) : Api Data := do
  let answer : Option Data ← ask (.json request response)
  match answer with
  | some data => return data
  | none      => throw .syntaxError

def promise (p : Nat) : Api (Option String) := ask (.promise p)

/-- `data.tokens.accessToken` -/
def accessTokenOf (data : Data) : Api String :=
  match data.accessToken? with
  | some token => return token
  | none       => throw .typeError

/-- A field of the body is read. -/
def readField : Data → Api Unit
  | .null => throw .typeError
  | _     => return ()

section WeakestPre

variable {E : Async.Entry Answer → Client → Ask → Client → Prop} {entry : Async.Entry Answer}
  {c₀ c : Client}

@[simp] theorem wp_atomically {α : Type} {f : Client → α × Client}
    {post : Async.Entry Answer → Client → Except JsError α → Client → Prop} :
    Async.wp E post entry c₀ (atomically f).run c ↔ post entry c₀ (.ok (f c).1) (f c).2 := by
  rw [atomically, Async.wp_run_lift, Async.wp_atomically]

theorem wp_fetch {request : Request} {retries : Bool}
    {post : Async.Entry Answer → Client → Except JsError Response → Client → Prop} :
    Async.wp E post entry c₀ (fetch request retries).run c ↔
      E entry c₀ (.fetch request retries) c ∧
        (∀ c', post (.answered (.fetch request retries) none) c' (.error networkError) c') ∧
        ∀ response c',
          post (.answered (.fetch request retries) (some response)) c' (.ok response) c' := by
  simp only [fetch, Async.wp_run_bind]
  refine and_congr_right fun _ => ⟨fun h => ⟨h none, fun r => h (some r)⟩, fun h answer => ?_⟩
  cases answer with
  | none   => exact h.1
  | some r => exact h.2 r

theorem wp_fetchAgain {request : Request}
    {post : Async.Entry Answer → Client → Except JsError Response → Client → Prop} :
    Async.wp E post entry c₀ (fetchAgain request).run c ↔
      E entry c₀ (.retry request) c ∧
        (∀ c', post (.answered (.retry request) none) c' (.error networkError) c') ∧
        ∀ response c', post (.answered (.retry request) (some response)) c' (.ok response) c' := by
  simp only [fetchAgain, Async.wp_run_bind]
  refine and_congr_right fun _ => ⟨fun h => ⟨h none, fun r => h (some r)⟩, fun h answer => ?_⟩
  cases answer with
  | none   => exact h.1
  | some r => exact h.2 r

theorem wp_json {request : Request} {response : Response}
    {post : Async.Entry Answer → Client → Except JsError Data → Client → Prop} :
    Async.wp E post entry c₀ (json request response).run c ↔
      E entry c₀ (.json request response) c ∧
        (∀ c', post (.answered (.json request response) none) c' (.error .syntaxError) c') ∧
        ∀ data c', post (.answered (.json request response) (some data)) c' (.ok data) c' := by
  simp only [json, Async.wp_run_bind]
  refine and_congr_right fun _ => ⟨fun h => ⟨h none, fun d => h (some d)⟩, fun h answer => ?_⟩
  cases answer with
  | none   => exact h.1
  | some d => exact h.2 d

theorem wp_promise {p : Nat}
    {post : Async.Entry Answer → Client → Except JsError (Option String) → Client → Prop} :
    Async.wp E post entry c₀ (promise p).run c ↔
      E entry c₀ (.promise p) c ∧
        ∀ token c', post (.answered (.promise p) token) c' (.ok token) c' := by
  rw [promise, ask, Async.wp_run_lift]
  exact Async.wp_ask

theorem wp_accessTokenOf {data : Data}
    {post : Async.Entry Answer → Client → Except JsError String → Client → Prop} :
    Async.wp E post entry c₀ (accessTokenOf data).run c ↔
      (∀ token, data.accessToken? = some token → post entry c₀ (.ok token) c) ∧
        (data.accessToken? = none → post entry c₀ (.error .typeError) c) := by
  unfold accessTokenOf
  cases data.accessToken? with
  | none       => simp
  | some token => simp

theorem wp_readField {data : Data}
    {post : Async.Entry Answer → Client → Except JsError Unit → Client → Prop}
    (h : ∀ r, post entry c₀ r c) : Async.wp E post entry c₀ (readField data).run c := by
  cases data <;> exact h _

end WeakestPre

/-! ## apiRequest -/

def serverError : String := "שגיאת שרת"

/-- The error thrown for a response that is not `ok`. -/
def errorOf (response : Response) (data : Data) : JsError :=
  let message :=
    match data with
    | .object (.texts l) _ => ", ".intercalate l
    | .object (.text s) _  => s
    | _                    => serverError
  let message :=
    if message = "" ∨ message = serverError then
      if response.statusText = "" then serverError else response.statusText
    else message
  if response.status = 401 then .apiError "AUTH_UNAUTHORIZED" (some 401)
  else .apiError message (some response.status)

/-- The end of `apiRequest`, from the body on. -/
def readResponse (request : Request) (response : Response) : Api Data := do
  let data ← if response.isJson then json request response else pure .null
  if response.ok then return data else throw (errorOf response data)

/-- The `X-Request-Id` of a call, which only `POST /gate/open` has. -/
def requestIdOf (path : String) (options : ApiOptions) (randomUUID : String) : Option String :=
  if path = "/gate/open" ∧ options.method = "POST" then
    if truthy (options.headers.get "X-Request-Id") then options.headers.get "X-Request-Id"
    else if truthy (options.headers.get "x-request-id") then options.headers.get "x-request-id"
    else some randomUUID
  else none

def setIfTruthy (headers : Headers) (name : String) : Option String → Headers
  | some value => if value = "" then headers else headers.set name value
  | none       => headers

/-- The headers without `Authorization`. -/
def headersOf (options : ApiOptions) (requestId : Option String) : Headers :=
  let headers : Headers := options.headers.foldl (fun headers header =>
    Headers.set headers header.1 header.2) [("Accept", "application/json")]
  let headers := setIfTruthy headers "X-Request-Id" requestId
  if options.body.isSome then headers.set "Content-Type" "application/json" else headers

/-- The part of `apiRequest` that sends the request, and sends it again after a refresh. -/
def sendWith (refreshAccessToken : Api (Option String)) (options : ApiOptions)
    (requestId : Option String) (request : Request) : Api Data := do
  let response ← fetch request (options.auth && !options.isRefreshCall)
  if response.status = 401 ∧ options.auth = true ∧ options.isRefreshCall = false then
    match ← refreshAccessToken with
    | some newToken =>
      if newToken = "" then readResponse request response
      else
        let headers := request.headers.set "Authorization" s!"Bearer {newToken}"
        let request := { request with headers := setIfTruthy headers "X-Request-Id" requestId }
        let response ← fetchAgain request
        readResponse request response
    | none => readResponse request response
  else readResponse request response

/-- The headers of the first request. -/
def authorize (auth : Bool) (token : Option String) (headers : Headers) : Headers :=
  match token with
  | some token =>
    if auth && token ≠ "" then headers.set "Authorization" s!"Bearer {token}" else headers
  | none => headers

/-- `apiRequest`, with the function it refreshes the access token by. -/
def apiRequestWith (refreshAccessToken : Api (Option String)) (path : String)
    (options : ApiOptions) (randomUUID : String) : Api Data := do
  let requestId := requestIdOf path options randomUUID
  let token ← getAccessToken
  let headers := authorize options.auth token (headersOf options requestId)
  sendWith refreshAccessToken options requestId ⟨urlOf path, options.method, headers, options.body⟩

/-- `apiRequest("/auth/refresh", …)`. A refresh call does not refresh. -/
def requestRefresh : Api Data :=
  apiRequestWith (pure none) "/auth/refresh"
    { method := "POST", auth := false, isRefreshCall := true } ""

/-- The `try` and `catch` of the async function that makes the promise. -/
def refreshOnce : Api (Option String) :=
  tryCatch
    (do
      let data ← requestRefresh
      let token ← accessTokenOf data
      setAccessToken token
      return some token)
    fun _ => do
      clearAccessToken
      return none

/-- The promise is made by an async function that runs at once; it runs here in the call that
    made it, which waits for the promise like the others. -/
def refreshAccessToken : Api (Option String) := do
  match ← atomically fun c => (c.refreshPromise, c) with
  | some p => promise p
  | none   =>
    let p ← newRefreshPromise
    let token ← refreshOnce
    resolveRefreshPromise p token
    promise p

def apiRequest (path : String) (options : ApiOptions) (randomUUID : String) : Api Data :=
  apiRequestWith refreshAccessToken path options randomUUID

/-- `refreshToken`, for `AuthContext` and the pending page. -/
def refreshToken : Api Data := do
  let data ← requestRefresh
  let token ← accessTokenOf data
  setAccessToken token
  return data

/-! ## AuthContext -/

namespace AuthContext

/-- `refresh`: whatever fails, the user is treated as logged out. -/
def refresh : Api Unit :=
  tryCatch
    (do
      let _ ← refreshToken
      let meData ← apiRequest "/auth/me" {} ""
      readField meData)
    fun _ => clearAccessToken

def login (body : String) : Api Unit := do
  let data ← apiRequest "/auth/login" { method := "POST", body := some body, auth := false } ""
  let token ← accessTokenOf data
  setAccessToken token
  tryCatch
    (do
      let meData ← apiRequest "/auth/me" {} ""
      readField meData)
    fun _ => return ()

def logout : Api Unit := do
  tryCatch
    (do
      let _ ← apiRequest "/auth/logout" { method := "POST" } ""
      return ())
    fun _ => return ()
  clearAccessToken

end AuthContext

end Frontend
