-- SUMMARY: The database steps of login and refresh one by one: what each reads, what it writes, and what is left of the call after it.
import ParkingGate.Backend.AuthService

namespace Backend

open Collection UsersService

/-! ## The two writes of a session -/

/-- `createSession` on the store. -/
def Session.put (doc : Session) (s : Store) : Store :=
  { s with sessions := upsert (·.key == doc.key) doc s.sessions }

/-- The session fields of a user document. -/
def Session.fields (doc : Session) (user : User) : User :=
  { user with
    activeDeviceId := some doc.deviceId
    activeSessionId := some doc.sessionId
    refreshTokenHash := some doc.refreshTokenHash }

/-- The user update of `setSession` on the store. -/
def Session.setFields (doc : Session) (s : Store) : Store :=
  { s with users := updateOne (·.id == doc.userId) doc.fields s.users }

/-- `clearAllSessions` on the store. -/
def Store.clearSessions (userId : String) (s : Store) : Store :=
  { s with sessions := deleteMany (·.userId == userId) s.sessions }

namespace Session

variable {doc d : Session} {s : Store}

theorem mem_put_self : doc ∈ (doc.put s).sessions := mem_upsert_self

theorem of_mem_put (h : d ∈ (doc.put s).sessions) : d = doc ∨ d ∈ s.sessions := of_mem_upsert h

theorem mem_put_of_key_ne (h : d ∈ s.sessions) (hk : d.key ≠ doc.key) : d ∈ (doc.put s).sessions :=
  mem_upsert_of_not h (by simpa using hk)

theorem keyed_put (h : Keyed key s.sessions) : Keyed key (doc.put s).sessions :=
  show Keyed key (upsert (fun x => key x == key doc) doc s.sessions) from h.upsert

@[simp] theorem mem_clearSessions {userId : String} :
    d ∈ (s.clearSessions userId).sessions ↔ d ∈ s.sessions ∧ d.userId ≠ userId := by
  simp [Store.clearSessions]

/-- `createSession` followed by `setSession`: three writes, then the rest of the call. -/
theorem prog_writes {α : Type} (k : Db α) :
    Fallible.prog (do
      createSession doc.userId doc.deviceId doc.sessionId doc.refreshTokenHash doc.lastActiveAt
      setSession doc.userId doc.deviceId doc.sessionId doc.refreshTokenHash doc.lastActiveAt
      k) =
    .act doc.put fun _ => .act doc.setFields fun _ => .act doc.put fun _ => k.prog := by
  simp only [createSession, setSession, findByIdAndUpdate, bind_assoc,
    Fallible.prog_atomically_bind]
  rfl

/-- Setting the session fields changes no other field of a user. -/
theorem find?_setFields {q : User → Bool} {user : User} (hq : ∀ u, q (doc.fields u) = q u)
    (h : s.users.find? q = some user) :
    ∃ user', (doc.setFields s).users.find? q = some user' ∧
      (user' = user ∨ user' = doc.fields user) := by
  rcases find?_updateOne_of_eq_some (p := (·.id == doc.userId)) hq h with h | ⟨-, h⟩
  · exact ⟨user, h, .inl rfl⟩
  · exact ⟨doc.fields user, h, .inr rfl⟩

theorem find?_setFields_self :
    (doc.setFields s).users.find? (·.id == doc.userId) =
      (s.users.find? (·.id == doc.userId)).map doc.fields :=
  find?_updateOne_self fun _ => rfl

end Session

namespace AuthService

/-! ## Refresh -/

section Refresh

variable (crypto : Crypto) (token : String) (payload : JwtPayload) (draw : Draw)

/-- The session lookup of `refresh` finds a document that the token fits. -/
def accepts (s : Store) : Bool :=
  match s.sessions.find? (·.sessionId == payload.sid) with
  | some session =>
    session.userId == payload.sub && session.deviceId == payload.deviceId &&
      crypto.compare token session.refreshTokenHash
  | none => false

/-- The document an accepted `refresh` writes. -/
def rotated : Session :=
  { userId := payload.sub
    deviceId := payload.deviceId
    sessionId := draw.sid
    refreshTokenHash := crypto.hash draw.salt
      (buildRefreshToken crypto draw.now payload.sub payload.role payload.deviceId draw.sid)
    lastActiveAt := draw.now }

def refreshResponse (s : Store) : Except HttpException RefreshResponse :=
  match s.users.find? (·.id == payload.sub) with
  | some user =>
    .ok {
      accessToken := buildAccessToken crypto draw.now user payload.deviceId draw.sid
      refreshToken :=
        buildRefreshToken crypto draw.now payload.sub payload.role payload.deviceId draw.sid }
  | none => .error (.unauthorized "משתמש לא נמצא")

/-- What is left of an accepted `refresh` before its last step … -/
def readUser : Prog Store (Except HttpException RefreshResponse) :=
  .act id fun s => .ret (refreshResponse crypto payload draw s)

/-- … before the second upsert … -/
def putAgain : Prog Store (Except HttpException RefreshResponse) :=
  .act (rotated crypto payload draw).put fun _ => readUser crypto payload draw

/-- … before the update of the user … -/
def updateFields : Prog Store (Except HttpException RefreshResponse) :=
  .act (rotated crypto payload draw).setFields fun _ => putAgain crypto payload draw

/-- … and after the lookup. -/
def rotate : Prog Store (Except HttpException RefreshResponse) :=
  .act (rotated crypto payload draw).put fun _ => updateFields crypto payload draw

variable {crypto token payload draw}

theorem of_accepts {s : Store} (h : accepts crypto token payload s = true) :
    ∃ doc ∈ s.sessions, doc.sessionId = payload.sid ∧ doc.userId = payload.sub ∧
      doc.deviceId = payload.deviceId ∧ crypto.compare token doc.refreshTokenHash = true := by
  unfold accepts at h
  split at h
  next doc hdoc =>
    simp only [Bool.and_eq_true, beq_iff_eq] at h
    exact ⟨doc, List.mem_of_find?_eq_some hdoc, by simpa using List.find?_some hdoc,
      h.1.1, h.1.2, h.2⟩
  next => cases h

theorem accepts_congr {s s' : Store} (h : s'.sessions = s.sessions) :
    accepts crypto token payload s' = accepts crypto token payload s := by
  simp only [accepts, h]

/-- The first step of `refresh` only reads; what it reads decides whether the session
    is rotated or the call fails. -/
theorem refresh_prog (h : crypto.verifyRefresh draw.now token = some payload) :
    ∃ next, (refresh crypto token draw).prog = .act id next ∧
      (∀ s, accepts crypto token payload s = true → next s = rotate crypto payload draw) ∧
      ∀ s, accepts crypto token payload s = false → ∃ e, next s = .ret (.error e) := by
  unfold refresh
  rw [h]
  refine ⟨_, Fallible.prog_atomically_bind _ _, fun s hs => ?_, fun s hs => ?_⟩
  all_goals unfold accepts at hs
  all_goals cases hdoc : s.sessions.find? (·.sessionId == payload.sid) with
    | none => ?_
    | some doc => ?_
  · simp [hdoc] at hs
  · simp only [hdoc, Bool.and_eq_true, beq_iff_eq] at hs
    simp only [hs.1.1, hs.1.2, hs.2, ne_eq, not_true_eq_false, if_false, Bool.not_true,
      Bool.false_eq_true]
    apply ((rotated crypto payload draw).prog_writes _).trans
    simp only [findById, Fallible.prog_atomically_bind, rotate, updateFields, putAgain, readUser]
    refine congrArg (Prog.act _) (funext fun _ => congrArg (Prog.act _) (funext fun _ =>
      congrArg (Prog.act _) (funext fun _ => congrArg (Prog.act _) (funext fun s => ?_))))
    unfold refreshResponse
    cases s.users.find? (·.id == payload.sub) <;> rfl
  · exact ⟨_, rfl⟩
  · simp only [hdoc, Bool.and_eq_false_iff, beq_eq_false_iff_ne] at hs
    by_cases hu : doc.userId = payload.sub
    · by_cases hd : doc.deviceId = payload.deviceId
      · obtain hc : crypto.compare token doc.refreshTokenHash = false := by simpa [hu, hd] using hs
        exact ⟨.unauthorized "Refresh token לא תקין", by simp [hu, hd, hc]⟩
      · exact ⟨.unauthorized "Device לא תואם", by simp [hu, hd]⟩
    · exact ⟨.unauthorized "Session לא תואם למשתמש", by simp [hu]⟩

variable (draw) in
theorem refresh_prog_of_invalid (h : crypto.verifyRefresh draw.now token = none) :
    ∃ e, (refresh crypto token draw).prog = .ret (.error e) := by
  unfold refresh
  rw [h]
  exact ⟨_, rfl⟩

/-- A refresh fails at once, or its first step looks the session up. -/
theorem refresh_cases
    (hpayload : ∀ p, crypto.verifyRefresh draw.now token = some p → p = payload) :
    (∃ e, (refresh crypto token draw).prog = .ret (.error e)) ∨
    crypto.verifyRefresh draw.now token = some payload ∧
      ∃ next, (refresh crypto token draw).prog = .act id next ∧
        (∀ s, accepts crypto token payload s = true → next s = rotate crypto payload draw) ∧
        ∀ s, accepts crypto token payload s = false → ∃ e, next s = .ret (.error e) := by
  cases h : crypto.verifyRefresh draw.now token with
  | none => exact .inl (refresh_prog_of_invalid draw h)
  | some p =>
    obtain rfl := hpayload p h
    exact .inr ⟨rfl, refresh_prog h⟩

variable (draw) in
/-- A refused refresh fails and leaves the store as it is. -/
theorem refresh_run_refused {s : Store} (h : crypto.verifyRefresh draw.now token = some payload)
    (hacc : accepts crypto token payload s = false) :
    ∃ e, (refresh crypto token draw).prog.run s = (.error e, s) := by
  obtain ⟨next, hprog, -, hrefused⟩ := refresh_prog h
  obtain ⟨e, he⟩ := hrefused s hacc
  exact ⟨e, by rw [hprog, Prog.run_act, he]; rfl⟩

/-- A refresh that succeeds was accepted, and returns tokens of the user of its token. -/
theorem refresh_run_ok {s : Store} {response : RefreshResponse}
    (h : crypto.verifyRefresh draw.now token = some payload)
    (hok : ((refresh crypto token draw).prog.run s).1 = .ok response) :
    accepts crypto token payload s = true ∧ ∃ user : User, user.id = payload.sub ∧
      response.accessToken = buildAccessToken crypto draw.now user payload.deviceId draw.sid ∧
      response.refreshToken =
        buildRefreshToken crypto draw.now payload.sub payload.role payload.deviceId draw.sid := by
  cases hacc : accepts crypto token payload s with
  | false =>
    obtain ⟨e, he⟩ := refresh_run_refused draw h hacc
    rw [he] at hok
    cases hok
  | true =>
    obtain ⟨next, hprog, haccepted, -⟩ := refresh_prog h
    rw [hprog, Prog.run_act, haccepted s hacc] at hok
    simp only [rotate, updateFields, putAgain, readUser, Prog.run_act, Prog.run_ret,
      refreshResponse] at hok
    split at hok
    next user huser =>
      cases hok
      exact ⟨rfl, user, by simpa using List.find?_some huser, rfl, rfl⟩
    next => cases hok

end Refresh

/-! ## Login -/

section Login

variable (crypto : Crypto) (dto : LoginDto) (draw : Draw) (user : User)

/-- The document an accepted `login` writes. -/
def opened : Session :=
  { userId := user.id
    deviceId := dto.deviceId
    sessionId := draw.sid
    refreshTokenHash := crypto.hash draw.salt
      (buildRefreshToken crypto draw.now user.id user.role dto.deviceId draw.sid)
    lastActiveAt := draw.now }

def loginResponse : AuthUserResponse :=
  { user
    accessToken := buildAccessToken crypto draw.now user dto.deviceId draw.sid
    refreshToken := buildRefreshToken crypto draw.now user.id user.role dto.deviceId draw.sid }

/-- What is left of an accepted `login` of a regular user before its last step … -/
def openAgain : Prog Store (Except HttpException AuthUserResponse) :=
  .act (opened crypto dto draw user).put fun _ => .ret (.ok (loginResponse crypto dto draw user))

/-- … before the update of the user … -/
def openFields : Prog Store (Except HttpException AuthUserResponse) :=
  .act (opened crypto dto draw user).setFields fun _ => openAgain crypto dto draw user

/-- … after the old sessions are cleared … -/
def openSession : Prog Store (Except HttpException AuthUserResponse) :=
  .act (opened crypto dto draw user).put fun _ => openFields crypto dto draw user

/-- … and after the lookup. -/
def clearAndOpen : Prog Store (Except HttpException AuthUserResponse) :=
  .act (Store.clearSessions user.id) fun _ => openSession crypto dto draw user

variable {crypto dto draw user}

variable (crypto dto draw) in
/-- The first step of `login` only reads. A regular user with the right password is
    refused there, or goes on to clear the sessions and to open its own. -/
theorem login_prog :
    ∃ next, (login crypto dto draw).prog = .act id next ∧
      ∀ s user, s.users.find? (·.email == dto.email) = some user →
        crypto.compare dto.password user.passwordHash = true → user.status = .approved →
        user.role = .user → next s = clearAndOpen crypto dto draw user ∨
          ∃ e, next s = .ret (.error e) := by
  refine ⟨_, Fallible.prog_atomically_bind _ _, fun s user hfind hpassword hstatus hrole => ?_⟩
  by_cases hconflict : truthy user.activeDeviceId = true ∧ user.activeDeviceId ≠ some dto.deviceId
  · refine .inr ⟨.conflict "המשתמש מחובר כבר ממכשיר אחר", ?_⟩
    simp [hfind, hpassword, hstatus, hrole, hconflict]
  · have hadmin : user.role ≠ .admin := by simp [hrole]
    apply Or.inl
    simp only [hfind, hpassword, hstatus, hadmin, hconflict, Bool.not_true, Bool.false_eq_true,
      reduceCtorEq, ne_eq, not_true_eq_false, not_false_eq_true, if_false, if_true, true_and,
      clearAllSessions, Fallible.prog_atomically_bind]
    exact congrArg (Prog.act _) (funext fun _ => (opened crypto dto draw user).prog_writes (pure _))

variable (crypto dto draw) in
/-- A login that succeeds returns tokens of the user it returns. -/
theorem login_returns : Fallible.Keeps (fun _ => True) (login crypto dto draw)
    fun response => response = loginResponse crypto dto draw response.user := by
  have hact {α : Type} {f : Store → α × Store} :
      Fallible.Keeps (fun _ => True) (Fallible.atomically f : Db α) fun _ => True :=
    .atomically fun _ _ => ⟨trivial, trivial⟩
  have hset {a b c d now} : Fallible.Keeps (fun _ => True) (setSession a b c d now) fun _ => True :=
    .bind hact fun _ _ => hact
  refine .bind hact fun found _ => ?_
  cases found with
  | none => exact .throw
  | some user =>
    refine .guard fun _ => .guard fun _ => .guard fun _ => .guard fun _ => .guard fun _ =>
      .guard fun _ => ?_
    have hreturn : Fallible.Keeps (fun _ => True)
        (do
          createSession user.id dto.deviceId draw.sid (opened crypto dto draw user).refreshTokenHash
            draw.now
          setSession user.id dto.deviceId draw.sid (opened crypto dto draw user).refreshTokenHash
            draw.now
          return loginResponse crypto dto draw user)
        fun response => response = loginResponse crypto dto draw response.user :=
      .bind hact fun _ _ => .bind hset fun _ _ => .pure rfl
    dsimp only
    split
    · exact .bind hact fun _ _ => hreturn
    · exact hreturn

end Login

/-! ## A resident who logs in from a phone -/

def resident : User where
  id := "u1"
  email := "resident@example.com"
  passwordHash := Crypto.plain.hash "salt" "password"
  role := .user
  firstName := "Dana"
  lastName := "Levi"
  phone := "0501234567"
  apartmentNumber := 4
  floor := 2
  status := .approved
  rejectionReason := none
  approvedAt := some 0
  rejectedAt := none
  approvalEmailSentAt := none
  activeDeviceId := none
  activeSessionId := none
  refreshTokenHash := none
  resetPasswordTokenHash := none
  resetPasswordExpiresAt := none
  createdAt := 0

def residentLogin (deviceId : String) : LoginDto :=
  { email := resident.email, password := "password", deviceId }

def loggedOut : Store := { Store.empty with users := [resident] }

def loggedIn : Store :=
  ((login Crypto.plain (residentLogin "phone") ⟨1, "s0", "salt"⟩).prog.run loggedOut).2

def phonePayload : JwtPayload := { sub := "u1", role := .user, deviceId := "phone", sid := "s0" }

def phoneToken : String := Crypto.plain.signRefresh 1 phonePayload

example : accepts Crypto.plain phoneToken phonePayload loggedIn = true := by decide +kernel

end AuthService

end Backend
