-- SUMMARY: The calls that the pages make of the API client, piece by piece: when a call sends a refresh, when it stores a token, and when it clears the token.
import ParkingGate.Frontend.Api

/-!
# Calls of the API client

A call runs in pieces, from one await to the next. `Call.Piece` says what a piece may do with
the variables of the module; `program_meets` proves it of every call, by one rule for each
function of `lib/api.ts`.
-/

namespace Frontend

/-- What `requestRefresh` sends. -/
def refreshRequest : Request :=
  ⟨urlOf "/auth/refresh", "POST", [("Accept", "application/json")], none⟩

/-- Whether a request is `POST /auth/refresh`. -/
def Request.isRefresh (request : Request) : Bool :=
  request.url = urlOf "/auth/refresh" ∧ request.method = "POST"

@[simp] theorem isRefresh_refreshRequest : refreshRequest.isRefresh = true := by
  simp [Request.isRefresh, refreshRequest]

/-- Whether `POST /auth/refresh` has been sent and is not answered. -/
def Ask.isRefresh : Ask → Bool
  | .fetch request _ => request.isRefresh
  | .retry request   => request.isRefresh
  | _                => false

/-- Whether a refresh has been sent, and its answer is not read to the end. -/
def Ask.refreshes : Ask → Bool
  | .fetch request _ => request.isRefresh
  | .retry request   => request.isRefresh
  | .json request _  => request.isRefresh
  | .promise _       => false

theorem requestRefresh_eq :
    requestRefresh = (do
      let _ ← getAccessToken
      let response ← fetch refreshRequest false
      readResponse refreshRequest response) := by
  simp only [requestRefresh, apiRequestWith, sendWith]
  refine bind_congr fun token => ?_
  have hheaders : headersOf { method := "POST", auth := false, isRefreshCall := true }
      (requestIdOf "/auth/refresh" { method := "POST", auth := false, isRefreshCall := true } "") =
      refreshRequest.headers := by decide
  cases token <;> simp [hheaders, refreshRequest, authorize]

/-! ## Calls -/

/-- The calls that the pages and `AuthContext` make. The pending page calls `refreshToken`. -/
inductive Call where
  | apiRequest (path : String) (options : ApiOptions) (randomUUID : String)
  | refreshToken
  | refresh
  | login (body : String)
  | logout

namespace Call

/-- A call as a task of the event loop. -/
def task {α : Type} (p : Api α) : Async Client Answer Unit := do
  let _ ← p.run
  return ()

def program : Call → Async Client Answer Unit
  | .apiRequest path options randomUUID => task (Frontend.apiRequest path options randomUUID)
  | .refreshToken                       => task Frontend.refreshToken
  | .refresh                            => task AuthContext.refresh
  | .login body                         => task (AuthContext.login body)
  | .logout                             => task AuthContext.logout

/-- `AuthContext.refresh` -/
def isContextRefresh : Call → Bool
  | .refresh => true
  | .apiRequest .. | .refreshToken | .login _ | .logout => false

theorem eq_refresh {call : Call} (h : call.isContextRefresh = true) : call = .refresh := by
  cases call with
  | refresh => rfl
  | apiRequest | refreshToken | login | logout => cases h

/-- The flag of the refresh calls is internal, and no page requests their path. -/
def FromPage : Call → Prop
  | .apiRequest path options _ =>
    options.isRefreshCall = false ∧ urlOf path ≠ urlOf "/auth/refresh"
  | _ => True

instance decidableFromPage : DecidablePred FromPage
  | .apiRequest .. => inferInstanceAs (Decidable (_ ∧ _))
  | .refreshToken  => inferInstanceAs (Decidable True)
  | .refresh       => inferInstanceAs (Decidable True)
  | .login _       => inferInstanceAs (Decidable True)
  | .logout        => inferInstanceAs (Decidable True)

/-- The call starts a refresh: it is one, or it is answered 401 and finds none under way. -/
def StartsRefresh (call : Call) : Async.Entry Answer → Client → Prop
  | .start, _ => call = .refreshToken ∨ call = .refresh
  | .answered (.fetch _ true) (some response), c =>
    response.status = 401 ∧ c.refreshPromise = none
  | _, _ => False

/-- The call stores a token: that of a refresh, or of its login. -/
def StoresToken (call : Call) : Async.Entry Answer → Prop
  | .answered (.json request response) (some data) =>
    response.ok = true ∧ data.accessToken?.isSome = true ∧
      (request.isRefresh = true ∨ (∃ body, call = .login body) ∧ request.url = urlOf "/auth/login")
  | _ => False

/-- The call fails, by a request without an answer or a body that cannot be read, and clears the
    token: whatever fails of `AuthContext.refresh`, and of the others their refresh. -/
def ClearsToken (call : Call) : Async.Entry Answer → Prop
  | .answered (.fetch request _) none => call = .refresh ∨ call ≠ .refreshToken ∧ request.isRefresh = true
  | .answered (.retry request) none   => call = .refresh ∨ call ≠ .refreshToken ∧ request.isRefresh = true
  | .answered (.json request _) none  => call = .refresh ∨ call ≠ .refreshToken ∧ request.isRefresh = true
  | _                                 => False

/-- What a piece of the call does that begins in `c`, awaits `q` at its end and leaves `c'`. -/
structure Piece (call : Call) (entry : Async.Entry Answer) (c : Client) (q : Option Ask)
    (c' : Client) : Prop where
  sends : call.StartsRefresh entry c → q = some (.fetch refreshRequest false)
  starts : ∀ a, q = some a → a.isRefresh = true →
    a = .fetch refreshRequest false ∧ call.StartsRefresh entry c
  reads : ∀ request response, q = some (.json request response) → request.isRefresh = true →
    ∃ answer, entry = .answered (.fetch refreshRequest false) answer
  stores : c'.stores = c.stores ∨ call.StoresToken entry
  keeps : call = .refreshToken → c.accessToken ≠ none → c'.accessToken ≠ none
  clears : call.ClearsToken entry → c'.accessToken = none

namespace Piece

variable {call : Call} {entry : Async.Entry Answer} {c c' c'' : Client} {q : Option Ask}

/-- A piece that has done nothing yet and need neither send a refresh nor clear the token. -/
theorem idle (hstart : ¬ call.StartsRefresh entry c) (hclear : ¬ call.ClearsToken entry) :
    call.Piece entry c none c where
  sends h := absurd h hstart
  starts := by simp
  reads := by simp
  stores := .inl rfl
  keeps _ := id
  clears h := absurd h hclear

theorem await (h : call.Piece entry c none c') {q : Ask} (hq : q.refreshes = false) :
    call.Piece entry c (some q) c' where
  sends hstart := nomatch h.sends hstart
  starts := by
    rintro a ⟨⟩ ha
    cases q <;> simp_all [Ask.refreshes, Ask.isRefresh]
  reads := by
    rintro request response ⟨⟩ hrequest
    rw [Ask.refreshes, hrequest] at hq
    cases hq
  stores := h.stores
  keeps := h.keeps
  clears := h.clears

theorem not_clears_of_starts (h : call.StartsRefresh entry c) : ¬ call.ClearsToken entry := by
  cases entry with
  | start => exact id
  | answered q answer =>
    cases q with
    | fetch request retries =>
      cases answer with
      | none => cases retries <;> exact h.elim
      | some response => exact id
    | retry request => exact h.elim
    | json request response => exact h.elim
    | promise p => exact id

theorem sent (hstart : call.StartsRefresh entry c) (hstores : c'.stores = c.stores)
    (htoken : c'.accessToken = c.accessToken) :
    call.Piece entry c (some (.fetch refreshRequest false)) c' where
  sends _ := rfl
  starts := by
    rintro _ ⟨⟩ -
    exact ⟨rfl, hstart⟩
  reads := nofun
  stores := .inl hstores
  keeps _ := by rw [htoken]; exact id
  clears h := absurd h (not_clears_of_starts hstart)

/-- The body of the answer to a refresh is read. -/
theorem reads_refresh (response : Response) :
    call.Piece (.answered (.fetch refreshRequest false) (some response)) c
      (some (.json refreshRequest response)) c where
  sends := nofun
  starts := by
    rintro _ ⟨⟩ ha
    cases ha
  reads := by
    rintro _ _ ⟨⟩ -
    exact ⟨_, rfl⟩
  stores := .inl rfl
  keeps _ := id
  clears := False.elim

/-- A token that came with a refresh, or with the login, is stored. -/
theorem stored {request : Request} {response : Response} {data : Data} {token : String}
    (hok : response.ok = true) (hdata : data.accessToken? = some token)
    (hrequest : request.isRefresh = true ∨
      (∃ body, call = .login body) ∧ request.url = urlOf "/auth/login") :
    call.Piece (.answered (.json request response) (some data)) c none
      { c with accessToken := some token, stores := c.stores + 1 } where
  sends := nofun
  starts := nofun
  reads := nofun
  stores := .inr ⟨hok, by rw [hdata]; rfl, hrequest⟩
  keeps _ _ := nofun
  clears := False.elim

theorem cleared (hcall : call ≠ .refreshToken) (hstart : ¬ call.StartsRefresh entry c) :
    call.Piece entry c none { c with accessToken := none } where
  sends h := absurd h hstart
  starts := nofun
  reads := nofun
  stores := .inl rfl
  keeps h := absurd h hcall
  clears _ := rfl

/-- The variables of the promises do not matter. -/
theorem congr (h : call.Piece entry c q c') (hstores : c''.stores = c'.stores)
    (htoken : c''.accessToken = c'.accessToken) : call.Piece entry c q c'' where
  sends := h.sends
  starts := h.starts
  reads := h.reads
  stores := by rw [hstores]; exact h.stores
  keeps := by rw [htoken]; exact h.keeps
  clears hclear := htoken.trans (h.clears hclear)

end Piece

/-! ## The functions -/

/-- A piece of the call that ends at an await. -/
abbrev Awaits (call : Call) (entry : Async.Entry Answer) (c : Client) (q : Ask) (c' : Client) :
    Prop :=
  call.Piece entry c (some q) c'

/-- A piece that is entered so has neither a refresh to send nor the token to clear. -/
structure Plain (entry : Async.Entry Answer) : Prop where
  starts : ∀ (call : Call) c, ¬ call.StartsRefresh entry c
  clears : ∀ call : Call, ¬ call.ClearsToken entry

/-- How a call of `apiRequest` ends: the last piece has nothing to send, fails only by a request
    that meets `P`, and takes a token from the body of a good response to such a request. -/
structure Ends (P : Request → Prop) (entry : Async.Entry Answer) (r : Except JsError Data) :
    Prop where
  starts : ∀ (call : Call) c, ¬ call.StartsRefresh entry c
  clears : ∀ call : Call, call.ClearsToken entry →
    call = .refresh ∨ ∃ request, P request ∧ request.isRefresh = true
  ok : ∀ data, r = .ok data → ∀ call : Call, ¬ call.ClearsToken entry
  tokens : ∀ data token, r = .ok data → data.accessToken? = some token →
    ∃ request response, P request ∧ response.ok = true ∧
      entry = .answered (.json request response) (some data)

namespace Ends

variable {P P' : Request → Prop} {entry : Async.Entry Answer} {e : JsError}
  {r : Except JsError Data}

theorem error (hstart : ∀ (call : Call) c, ¬ call.StartsRefresh entry c)
    (hclear : ∀ call : Call, call.ClearsToken entry →
      call = .refresh ∨ ∃ request, P request ∧ request.isRefresh = true) :
    Ends P entry (.error e) where
  starts := hstart
  clears := hclear
  ok := nofun
  tokens _ _ := nofun

theorem refused (h : Plain entry) : Ends P entry (.error e) :=
  error h.starts fun call hclear => absurd hclear (h.clears call)

theorem null (h : Plain entry) : Ends P entry (.ok .null) where
  starts := h.starts
  clears call hclear := absurd hclear (h.clears call)
  ok _ _ := h.clears
  tokens := by
    rintro _ _ ⟨⟩ ⟨⟩

theorem mono (h : Ends P entry r) (hP : ∀ request, P request → P' request) : Ends P' entry r where
  starts := h.starts
  clears call hclear := (h.clears call hclear).imp_right fun ⟨request, hrequest, hrefresh⟩ =>
    ⟨request, hP request hrequest, hrefresh⟩
  ok := h.ok
  tokens data token hr htoken :=
    let ⟨request, response, hrequest, hok⟩ := h.tokens data token hr htoken
    ⟨request, response, hP request hrequest, hok⟩

/-- No other call clears the token when a request fails that is no refresh. -/
theorem not_clears (h : Ends P entry r) (hP : ∀ request, P request → request.isRefresh = false)
    {call : Call} (hcall : call ≠ .refresh) : ¬ call.ClearsToken entry := by
  intro hclear
  obtain ⟨request, hrequest, hrefresh⟩ := (h.clears call hclear).resolve_left hcall
  rw [hP request hrequest] at hrefresh
  cases hrefresh

end Ends

section Specs

variable {call : Call} {entry : Async.Entry Answer} {c : Client}
  {post : Async.Entry Answer → Client → Except JsError Data → Client → Prop}

theorem wp_readResponse {request : Request} {response : Response}
    (hjson : call.Piece entry c (some (.json request response)) c) (hplain : Plain entry)
    (hpost : ∀ r, Ends (· = request) entry r → post entry c r c)
    (hread : ∀ answer c r, Ends (· = request) (.answered (.json request response) answer) r →
      post (.answered (.json request response) answer) c r c) :
    Async.wp call.Awaits post entry c (readResponse request response).run c := by
  simp only [readResponse]
  split
  next =>
    rw [Async.wp_run_bind, wp_json]
    refine ⟨hjson, fun c => hread none c (.error .syntaxError) (.error nofun ?_), fun data c => ?_⟩
    · exact fun _ hclear => hclear.imp_right fun h => ⟨request, rfl, h.2⟩
    dsimp only
    split
    next hok =>
      refine hread (some data) c (.ok data) ⟨nofun, nofun, nofun, ?_⟩
      rintro _ _ ⟨⟩ -
      exact ⟨request, response, rfl, hok, rfl⟩
    next => exact hread (some data) c (.error _) (.error nofun nofun)
  next =>
    simp only [Async.wp_run_bind, Async.wp_run_pure]
    split
    next => exact hpost (.ok .null) (.null hplain)
    next => exact hpost (.error _) (.refused hplain)

/-- A refresh is sent, and its answer is read. -/
theorem wp_requestRefresh {c₀ : Client}
    (hsend : call.Piece entry c₀ (some (.fetch refreshRequest false)) c)
    (hpost : ∀ entry c r, Ends (· = refreshRequest) entry r → post entry c r c) :
    Async.wp call.Awaits post entry c₀ requestRefresh.run c := by
  rw [requestRefresh_eq, getAccessToken, Async.wp_run_bind, wp_atomically, Async.wp_run_bind, wp_fetch]
  refine ⟨hsend, fun c => hpost _ c (.error _) (.error nofun ?_), fun response c => ?_⟩
  · exact fun _ hclear => hclear.imp_right fun h => ⟨refreshRequest, rfl, h.2⟩
  · exact wp_readResponse (.reads_refresh response) ⟨nofun, nofun⟩ (fun r => hpost _ c r)
      fun answer c r => hpost _ c r

/-- The token of a refresh is stored, or the token of the module is cleared. -/
theorem wp_refreshOnce (hcall : call ≠ .refreshToken) {c₀ : Client}
    (hsend : call.Piece entry c₀ (some (.fetch refreshRequest false)) c)
    {post : Async.Entry Answer → Client → Except JsError (Option String) → Client → Prop}
    (hpost : ∀ entry c₀ token c, call.Piece entry c₀ none c → post entry c₀ (.ok token) c) :
    Async.wp call.Awaits post entry c₀ refreshOnce.run c := by
  rw [refreshOnce, Async.wp_run_tryCatch, Async.wp_run_bind]
  refine wp_requestRefresh hsend fun entry c r hends => ?_
  cases r with
  | error e => exact hpost _ _ _ _ (.cleared hcall (hends.starts call c))
  | ok data =>
    dsimp only
    rw [Async.wp_run_bind, wp_accessTokenOf]
    refine ⟨fun token htoken => ?_, fun _ => hpost _ _ _ _ (.cleared hcall (hends.starts call c))⟩
    obtain ⟨request, response, rfl, hok, rfl⟩ := hends.tokens data token rfl htoken
    exact hpost _ _ _ _ (.stored hok htoken (.inl isRefresh_refreshRequest))

/-- A call that is answered 401 waits for the promise, its own or that of another call. -/
theorem wp_refreshAccessToken (hcall : call ≠ .refreshToken) {request : Request}
    {response : Response} (h401 : response.status = 401)
    {post : Async.Entry Answer → Client → Except JsError (Option String) → Client → Prop}
    (hpost : ∀ p token c, post (.answered (.promise p) token) c (.ok token) c) :
    Async.wp call.Awaits post (.answered (.fetch request true) (some response)) c
      refreshAccessToken.run c := by
  rw [refreshAccessToken, Async.wp_run_bind, wp_atomically]
  dsimp only
  split
  next p hp =>
    rw [wp_promise]
    have hidle : call.Piece (.answered (.fetch request true) (some response)) c none c :=
      .idle (fun h => by rw [h.2] at hp; cases hp) id
    exact ⟨hidle.await rfl, fun token c => hpost p token c⟩
  next hp =>
    rw [newRefreshPromise, Async.wp_run_bind, wp_atomically]
    dsimp only
    rw [Async.wp_run_bind]
    refine wp_refreshOnce hcall ?_ fun entry c₀ token c' h => ?_
    · exact .sent ⟨h401, hp⟩ rfl rfl
    · dsimp only
      rw [resolveRefreshPromise, Async.wp_run_bind, wp_atomically, wp_promise]
      have hresolved : call.Piece entry c₀ none
          { c' with
            refreshPromise := none
            promises := c'.promises.set c.promises.length (some token) } := h.congr rfl rfl
      exact ⟨hresolved.await rfl, fun token c => hpost _ token c⟩

theorem not_starts_fetch {request : Request} {retries : Bool} {answer : Option Response}
    (h : ∀ response, answer = some response → response.status = 401 → retries = true → False)
    (call : Call) (c : Client) :
    ¬ call.StartsRefresh (.answered (.fetch request retries) answer) c := by
  cases answer with
  | none => cases retries <;> exact id
  | some response =>
    cases retries with
    | false => exact id
    | true  => exact fun hstart => h response rfl hstart.1 rfl

/-- A request that is not a refresh, in a piece that has nothing else to send. -/
theorem wp_apiRequest (hcall : call ≠ .refreshToken) {c₀ : Client} {path : String}
    {options : ApiOptions} {randomUUID : String} (hflag : options.isRefreshCall = false)
    (hpath : urlOf path ≠ urlOf "/auth/refresh" ∨ options.method ≠ "POST")
    (hidle : call.Piece entry c₀ none c)
    (hpost : ∀ entry c r,
      Ends (fun request => request.url = urlOf path ∧ request.isRefresh = false) entry r →
        post entry c r c) :
    Async.wp call.Awaits post entry c₀ (Frontend.apiRequest path options randomUUID).run c := by
  have hother : ∀ request : Request, request.url = urlOf path → request.method = options.method →
      request.isRefresh = false := by
    intro request hurl hmethod
    simp only [Request.isRefresh, hurl, hmethod, decide_eq_false_iff_not]
    tauto
  -- the answer to the first request, or to the second, is read
  have hread : ∀ entry c (request : Request) response, request.url = urlOf path →
      request.method = options.method → Plain entry →
      Async.wp call.Awaits post entry c (readResponse request response).run c := by
    intro entry c request response hurl hmethod hplain
    have hmeets : ∀ r : Request, r = request → r.url = urlOf path ∧ r.isRefresh = false := by
      rintro _ rfl
      exact ⟨hurl, hother _ hurl hmethod⟩
    refine wp_readResponse ?_ hplain (fun r h => ?_) (fun answer c r h => ?_)
    · exact (Piece.idle (hplain.starts call c) (hplain.clears call)).await (hother request hurl hmethod)
    · exact hpost _ _ _ (h.mono hmeets)
    · exact hpost _ _ _ (h.mono hmeets)
  rw [Frontend.apiRequest, apiRequestWith, getAccessToken, Async.wp_run_bind, wp_atomically]
  dsimp only
  generalize authorize options.auth c.accessToken _ = headers
  obtain ⟨request, hurl, hmethod, hrequest⟩ : ∃ request : Request, request.url = urlOf path ∧
      request.method = options.method ∧ ⟨urlOf path, options.method, headers, options.body⟩ = request :=
    ⟨_, rfl, rfl, rfl⟩
  rw [hrequest, sendWith, Async.wp_run_bind, wp_fetch]
  refine ⟨hidle.await (hother _ hurl hmethod), fun c => ?_, fun response c => ?_⟩
  · refine hpost _ c (.error _) (.error (not_starts_fetch (by rintro _ ⟨⟩)) fun _ hclear => ?_)
    exact hclear.imp_right fun h => ⟨request, ⟨hurl, hother request hurl hmethod⟩, h.2⟩
  · dsimp only
    split
    next h401 =>
      obtain ⟨h401, hauth, -⟩ := h401
      have hretries : (options.auth && !options.isRefreshCall) = true := by simp [hauth, hflag]
      rw [hretries, Async.wp_run_bind]
      refine wp_refreshAccessToken hcall h401 fun p token c => ?_
      have hreadOld := hread (.answered (.promise p) token) c request response hurl hmethod
        ⟨nofun, nofun⟩
      cases token with
      | none => exact hreadOld
      | some newToken =>
        dsimp only
        split
        next => exact hreadOld
        next =>
          rw [Async.wp_run_bind, wp_fetchAgain]
          have hidle : call.Piece (.answered (.promise p) (some newToken)) c none c :=
            .idle (fun h => nomatch h) (fun h => nomatch h)
          refine ⟨hidle.await ?_, fun c => ?_, fun response c => ?_⟩
          · exact hother { request with headers := _ } hurl hmethod
          · refine hpost _ c (.error _) (.error nofun fun _ hclear => ?_)
            exact hclear.imp_right fun h =>
              ⟨_, ⟨hurl, hother { request with headers := _ } hurl hmethod⟩, h.2⟩
          · exact hread _ c _ response hurl hmethod ⟨nofun, nofun⟩
    next h401 =>
      refine hread _ c request response hurl hmethod ⟨not_starts_fetch ?_, nofun⟩
      rintro _ ⟨⟩ hstatus hretries
      exact h401 (by simpa [hstatus] using hretries)

/-- The refresh of the pending page, and that of `AuthContext`. -/
theorem wp_refreshToken {c₀ : Client}
    (hsend : call.Piece entry c₀ (some (.fetch refreshRequest false)) c)
    (hok : ∀ entry c₀ data c, call.Piece entry c₀ none c → post entry c₀ (.ok data) c)
    (hfail : ∀ entry c e, (∀ (call : Call) c, ¬ call.StartsRefresh entry c) →
      post entry c (.error e) c) :
    Async.wp call.Awaits post entry c₀ Frontend.refreshToken.run c := by
  rw [Frontend.refreshToken, Async.wp_run_bind]
  refine wp_requestRefresh hsend fun entry c r hends => ?_
  cases r with
  | error e => exact hfail entry c e hends.starts
  | ok data =>
    dsimp only
    rw [Async.wp_run_bind, wp_accessTokenOf]
    refine ⟨fun token htoken => ?_, fun _ => hfail _ _ _ hends.starts⟩
    obtain ⟨request, response, rfl, hresponse, rfl⟩ := hends.tokens data token rfl htoken
    exact hok _ _ _ _ (.stored hresponse htoken (.inl isRefresh_refreshRequest))

end Specs

theorem meets_task {call : Call} {α : Type} {p : Api α}
    (h : ∀ c, Async.wp call.Awaits (fun entry c _ c' => call.Piece entry c none c') .start c p.run c) :
    (task p).Meets call.Piece := by
  intro c
  rw [task, Async.Rest, Async.wp_bind]
  exact h c

/-- The pending page's refresh clears nothing. -/
theorem not_clears_refreshToken {entry : Async.Entry Answer} :
    ¬ Call.ClearsToken .refreshToken entry := by
  cases entry with
  | start => exact id
  | answered q answer =>
    cases q with
    | promise p => exact id
    | fetch | retry | json =>
      cases answer with
      | none => rintro (h | h) <;> simp at h
      | some answer => exact id

/-- The start of a call that is no refresh. -/
theorem idle_start {call : Call} (h : call ≠ .refreshToken) (h' : call ≠ .refresh) (c : Client) :
    call.Piece .start c none c :=
  .idle (by rintro (rfl | rfl) <;> contradiction) id

theorem program_meets {call : Call} (h : call.FromPage) : call.program.Meets call.Piece := by
  cases call with
  | apiRequest path options randomUUID =>
    have hcall : Call.apiRequest path options randomUUID ≠ .refreshToken := nofun
    have hidle := idle_start hcall nofun
    refine meets_task fun c => ?_
    refine wp_apiRequest hcall h.1 (.inl h.2) (hidle c) fun entry c r hends => ?_
    exact .idle (hends.starts _ c) (hends.not_clears (fun _ => And.right) nofun)
  | refreshToken =>
    refine meets_task fun c => ?_
    refine wp_refreshToken (.sent (.inl rfl) rfl rfl) (fun _ _ _ _ h => h) fun entry c e hstart => ?_
    exact .idle (hstart _ c) not_clears_refreshToken
  | refresh =>
    have hcall : Call.refresh ≠ .refreshToken := nofun
    refine meets_task fun c => ?_
    rw [AuthContext.refresh, Async.wp_run_tryCatch, Async.wp_run_bind]
    refine wp_refreshToken (.sent (.inr rfl) rfl rfl) (fun entry c₀ data c h => ?_)
      fun entry c e hstart => .cleared hcall (hstart _ c)
    dsimp only
    rw [Async.wp_run_bind]
    refine wp_apiRequest hcall rfl (.inr (by decide)) h fun entry c r hends => ?_
    cases r with
    | error e => exact .cleared hcall (hends.starts _ c)
    | ok data =>
      refine wp_readField fun r => ?_
      cases r with
      | error e => exact .cleared hcall (hends.starts _ c)
      | ok _    => exact .idle (hends.starts _ c) (hends.ok data rfl _)
  | login body =>
    have hcall : Call.login body ≠ .refreshToken := nofun
    have hidle := idle_start hcall nofun
    refine meets_task fun c => ?_
    rw [AuthContext.login, Async.wp_run_bind]
    refine wp_apiRequest hcall rfl (.inl (by decide +kernel)) (hidle c) fun entry c r hends => ?_
    have hend : (Call.login body).Piece entry c none c :=
      .idle (hends.starts _ c) (hends.not_clears (fun _ => And.right) nofun)
    cases r with
    | error e => exact hend
    | ok data =>
      dsimp only
      rw [Async.wp_run_bind, wp_accessTokenOf]
      refine ⟨fun token htoken => ?_, fun _ => hend⟩
      obtain ⟨request, response, ⟨hurl, -⟩, hok, rfl⟩ := hends.tokens data token rfl htoken
      dsimp only
      rw [setAccessToken, Async.wp_run_bind, wp_atomically]
      dsimp only
      rw [Async.wp_run_tryCatch, Async.wp_run_bind]
      refine wp_apiRequest hcall rfl (.inr (by decide))
        (.stored hok htoken (.inr ⟨⟨body, rfl⟩, hurl⟩)) fun entry c r hends => ?_
      have hend : (Call.login body).Piece entry c none c :=
      .idle (hends.starts _ c) (hends.not_clears (fun _ => And.right) nofun)
      cases r with
      | error e => exact hend
      | ok data =>
        refine wp_readField fun r => ?_
        cases r with
        | error e => exact hend
        | ok _    => exact hend
  | logout =>
    have hcall : Call.logout ≠ .refreshToken := nofun
    have hidle := idle_start hcall nofun
    refine meets_task fun c => ?_
    rw [AuthContext.logout, Async.wp_run_bind, Async.wp_run_tryCatch, Async.wp_run_bind]
    refine wp_apiRequest hcall rfl (.inl (by decide +kernel)) (hidle c) fun entry c r hends => ?_
    have hclear := Piece.cleared hcall (hends.starts _ c)
    cases r with
    | error e => exact hclear
    | ok data => exact hclear

end Call

end Frontend
