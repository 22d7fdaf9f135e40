-- SUMMARY: What each session operation returns and leaves in the store when it runs alone.
import ParkingGate.Backend.AdminService
import ParkingGate.Backend.SessionWrites

/-!
# Outcomes

A call that is not interleaved with others checks first and writes afterwards: it fails
and leaves the store as it is, or it succeeds and leaves a store that is written down here
in terms of a few transformers.
-/

namespace Backend

open Collection UsersService

/-! ## Store transformers -/

namespace Store

/-- `deleteSession` on the store. -/
def dropSession (userId : String) (deviceId : Option String) (s : Store) : Store :=
  { s with sessions := deleteMany (deleteSessionFilter userId deviceId) s.sessions }

/-- `findByIdAndUpdate` on the store. -/
def modifyUser (userId : String) (f : User → User) (s : Store) : Store :=
  { s with users := updateOne (·.id == userId) f s.users }

end Store

/-- The update of `clearSession`. -/
def User.clearFields (user : User) : User :=
  { user with activeDeviceId := none, activeSessionId := none, refreshTokenHash := none }

/-- The update of `requestPasswordReset`. -/
def User.expectReset (tokenHash : String) (expiresAt : Nat) (user : User) : User :=
  { user with resetPasswordTokenHash := some tokenHash, resetPasswordExpiresAt := some expiresAt }

/-- The update of `clearPasswordResetAndSetPassword`. -/
def User.setPassword (passwordHash : String) (user : User) : User :=
  { user with passwordHash, resetPasswordTokenHash := none, resetPasswordExpiresAt := none }

/-- The document, and the session fields of its user. -/
def Session.open (doc : Session) (s : Store) : Store := doc.put (doc.setFields s)

namespace Session

variable {doc : Session}

theorem put_setFields_put (s : Store) : doc.put (doc.setFields (doc.put s)) = doc.open s := by
  have hself : (fun d : Session => d.key == doc.key) doc = true := beq_self_eq_true doc.key
  exact congrArg (fun sessions => ({ (doc.setFields s) with sessions } : Store)) (upsert_upsert hself)

/-- The two calls that open a session, before the rest of a program. -/
theorem run_writes {α : Type} (k : Db α) (s : Store) :
    (Fallible.prog do
      createSession doc.userId doc.deviceId doc.sessionId doc.refreshTokenHash doc.lastActiveAt
      setSession doc.userId doc.deviceId doc.sessionId doc.refreshTokenHash doc.lastActiveAt
      k).run s = k.prog.run (doc.open s) := by
  rw [prog_writes]
  simp only [Prog.run_act, put_setFields_put]

end Session

namespace AuthService

variable {crypto : Crypto}

/-! ## AuthService -/

theorem create_settles (params : CreateUserParams) (id : String) (now : Nat) (s : Store) :
    (create params id now).Settles s fun user s' =>
      user = params.document id now ∧ s.users.any (·.email == params.email) = false ∧
      s' = { s with users := s.users ++ [user] } := by
  have hrun : (create params id now).prog.run s =
      if s.users.any (·.email == params.email) then
        (.error (.internal "E11000 duplicate key error"), s)
      else (.ok (params.document id now), { s with users := s.users ++ [params.document id now] }) := by
    rw [create, Fallible.prog_atomically_bind, Prog.run_act]
    split <;> rfl
  cases hany : s.users.any (·.email == params.email) with
  | false => exact .inr ⟨_, _, hrun.trans (if_neg (by simp [hany])), rfl, rfl, rfl⟩
  | true => exact .inl ⟨_, hrun.trans (if_pos hany)⟩

theorem register_settles (crypto : Crypto) (dto : RegisterDto) (id salt : String) (now : Nat)
    (s : Store) : (register crypto dto id salt now).Settles s fun user s' =>
      (∃ params : CreateUserParams, params.status = some .pending ∧ params.rejectionReason = none ∧
        user = params.document id now) ∧
      s.users.any (·.email == user.email) = false ∧
      s' = { s with users := s.users ++ [user] } := by
  refine .read rfl (.guard fun _ => ?_)
  rcases create_settles _ id now s with herror | ⟨user, s', hok, rfl, hemail, rfl⟩
  · exact .inl herror
  · exact .inr ⟨_, _, hok, ⟨_, rfl, rfl, rfl⟩, hemail, rfl⟩

theorem login_settles (crypto : Crypto) (dto : LoginDto) (draw : Draw) (s : Store) :
    (login crypto dto draw).Settles s fun r s' => ∃ user,
      s.users.find? (·.email == dto.email) = some user ∧
      (user.role ≠ .admin → truthy user.activeDeviceId = true →
        user.activeDeviceId = some dto.deviceId) ∧
      r = loginResponse crypto dto draw user ∧
      s' = (opened crypto dto draw user).open
        (if user.role ≠ .admin then s.clearSessions user.id else s) := by
  refine .read rfl ?_
  cases hfind : s.users.find? (·.email == dto.email) with
  | none => exact .throw
  | some user =>
    refine .guard fun _ => .guard fun _ => .guard fun _ => .guard fun _ => .guard fun _ =>
      .guard fun hdevice => ?_
    have hfree : user.role ≠ .admin → truthy user.activeDeviceId = true →
        user.activeDeviceId = some dto.deviceId := by
      intro hrole hactive
      by_contra hne
      exact hdevice ⟨hrole, hactive, hne⟩
    refine .returns ?_ ⟨user, rfl, hfree, rfl, rfl⟩
    dsimp only
    split
    · exact (opened crypto dto draw user).run_writes (pure _) (s.clearSessions user.id)
    · exact (opened crypto dto draw user).run_writes (pure _) s

/-- The right password of an approved user, from the active device or without one. -/
theorem login_run_ok (crypto : Crypto) {dto : LoginDto} {s : Store} {user : User} (draw : Draw)
    (hfind : s.users.find? (·.email == dto.email) = some user)
    (hpassword : crypto.compare dto.password user.passwordHash = true)
    (hstatus : user.status = .approved)
    (hdevice : ¬ (user.role ≠ .admin ∧ truthy user.activeDeviceId = true ∧
      user.activeDeviceId ≠ some dto.deviceId)) :
    ((login crypto dto draw).prog.run s).1 = .ok (loginResponse crypto dto draw user) := by
  simp only [login, findByEmailWithPassword, findByEmail, Fallible.prog_atomically_bind,
    Prog.run_act, hfind, hpassword, hstatus, hdevice, Bool.not_true, Bool.false_eq_true,
    reduceCtorEq, ne_eq, not_true_eq_false, if_false]
  split
  · exact congrArg Prod.fst ((opened crypto dto draw user).run_writes (pure _) _)
  · exact congrArg Prod.fst ((opened crypto dto draw user).run_writes (pure _) _)

/-- What a refresh returns for a user it has found. -/
def refreshed (crypto : Crypto) (payload : JwtPayload) (draw : Draw) (user : User) : RefreshResponse :=
  { accessToken := buildAccessToken crypto draw.now user payload.deviceId draw.sid
    refreshToken :=
      buildRefreshToken crypto draw.now payload.sub payload.role payload.deviceId draw.sid }

theorem refresh_run_accepted {token : String} {payload : JwtPayload} {draw : Draw} {s : Store}
    {user : User} (h : crypto.verifyRefresh draw.now token = some payload)
    (hacc : accepts crypto token payload s = true)
    (hfind : s.users.find? (·.id == payload.sub) = some user) :
    (refresh crypto token draw).prog.run s =
      (.ok (refreshed crypto payload draw user), (rotated crypto payload draw).open s) := by
  obtain ⟨next, hprog, haccepted, -⟩ := refresh_prog h
  have hfields : ((rotated crypto payload draw).open s).users.find? (·.id == payload.sub) =
      some ((rotated crypto payload draw).fields user) := by
    let doc := rotated crypto payload draw
    have hself : (doc.setFields s).users.find? (·.id == doc.userId) =
        (s.users.find? (·.id == doc.userId)).map doc.fields := Session.find?_setFields_self
    exact hself.trans (congrArg (Option.map _) hfind)
  rw [hprog, Prog.run_act, haccepted s hacc]
  simp only [rotate, updateFields, putAgain, readUser, Prog.run_act, Prog.run_ret,
    Session.put_setFields_put, refreshResponse, id_eq, hfields]
  rfl

/-- An accepted refresh opens the new session, whether or not it finds the user afterwards. -/
theorem refresh_run_store {token : String} {payload : JwtPayload} (draw : Draw) {s : Store}
    (h : crypto.verifyRefresh draw.now token = some payload)
    (hacc : accepts crypto token payload s = true) :
    ((refresh crypto token draw).prog.run s).2 = (rotated crypto payload draw).open s := by
  obtain ⟨next, hprog, haccepted, -⟩ := refresh_prog h
  rw [hprog, Prog.run_act, haccepted s hacc]
  exact Session.put_setFields_put s

variable (crypto) in
/-- A refresh fails and leaves the store as it is, or it rotates the session of its token. -/
theorem refresh_run_cases (token : String) (draw : Draw) (s : Store) :
    (∃ e, (refresh crypto token draw).prog.run s = (.error e, s)) ∨
      ∃ payload, crypto.verifyRefresh draw.now token = some payload ∧
        accepts crypto token payload s = true ∧
        ((refresh crypto token draw).prog.run s).2 = (rotated crypto payload draw).open s := by
  cases hverify : crypto.verifyRefresh draw.now token with
  | none =>
    obtain ⟨e, he⟩ := refresh_prog_of_invalid draw hverify
    exact .inl ⟨e, by rw [he]; rfl⟩
  | some payload =>
    cases hacc : accepts crypto token payload s with
    | false => exact .inl (refresh_run_refused draw hverify hacc)
    | true => exact .inr ⟨payload, rfl, hacc, refresh_run_store draw hverify hacc⟩

/-- A refresh whose token verifies, in a store where the user of every session exists. -/
theorem refresh_settles {token : String} {payload : JwtPayload} {draw : Draw} {s : Store}
    (h : crypto.verifyRefresh draw.now token = some payload)
    (huser : accepts crypto token payload s = true →
      (s.users.find? (·.id == payload.sub)).isSome) :
    (refresh crypto token draw).Settles s fun r s' =>
      accepts crypto token payload s = true ∧
      (∃ user, s.users.find? (·.id == payload.sub) = some user ∧
        r = refreshed crypto payload draw user) ∧
      s' = (rotated crypto payload draw).open s := by
  cases hacc : accepts crypto token payload s with
  | false =>
    obtain ⟨e, he⟩ := refresh_run_refused draw h hacc
    exact .inl ⟨e, he⟩
  | true =>
    obtain ⟨user, hfind⟩ := Option.isSome_iff_exists.mp (huser hacc)
    exact .returns (refresh_run_accepted h hacc hfind) ⟨rfl, ⟨user, hfind, rfl⟩, rfl⟩

/-- `findByIdAndUpdate`, before the rest of a program. -/
theorem run_findByIdAndUpdate {α : Type} (userId : String) (f : User → User)
    (k : Option User → Db α) (s : Store) :
    (Fallible.prog do let updated ← findByIdAndUpdate userId f; k updated).run s =
      (k ((s.modifyUser userId f).users.find? (·.id == userId))).prog.run (s.modifyUser userId f) := by
  rw [findByIdAndUpdate, Fallible.prog_atomically_bind, Prog.run_act]
  rfl

/-- `clearSession`, before the rest of a program. -/
theorem run_clearSession {α : Type} (userId : String) (k : Db α) (s : Store) :
    (Fallible.prog do clearSession userId; k).run s =
      k.prog.run (s.modifyUser userId User.clearFields) := by
  simp only [clearSession, bind_assoc, pure_bind]
  exact run_findByIdAndUpdate userId User.clearFields (fun _ => k) s

/-- The end of `logout`: without a session left, or for a regular user, the fields of the
    user are cleared too. -/
def afterLogout (userId : String) (role : UserRole) (s : Store) : Store :=
  if s.sessionsOf userId = [] ∨ role ≠ .admin then s.modifyUser userId User.clearFields else s

theorem run_logout (userId deviceId : String) (role : UserRole) (s : Store) :
    (Fallible.prog do
      deleteSession userId (some deviceId)
      let remainingSessions ← getAllSessions userId
      if remainingSessions.length = 0 ∨ role ≠ .admin then
        clearSession userId : Prog Store (Except HttpException Unit)).run s =
    (.ok (), afterLogout userId role (s.dropSession userId (some deviceId))) := by
  have hrest : ∀ t : Store, (Fallible.prog do
      let remainingSessions ← getAllSessions userId
      if remainingSessions.length = 0 ∨ role ≠ .admin then
        clearSession userId : Prog Store (Except HttpException Unit)).run t =
      (.ok (), afterLogout userId role t) := by
    intro t
    simp only [getAllSessions, Fallible.prog_atomically_bind, Prog.run_act,
      List.length_eq_zero_iff, afterLogout]
    split
    · exact run_clearSession userId (pure ()) t
    · rfl
  exact hrest (s.dropSession userId (some deviceId))

theorem logout_settles (userId deviceId : String) (s : Store) :
    (logout userId deviceId).Settles s fun _ s' => ∃ user,
      s.users.find? (·.id == userId) = some user ∧
      (user.role ≠ .admin → truthy user.activeDeviceId = true ∧
        user.activeDeviceId = some deviceId) ∧
      s' = afterLogout userId user.role (s.dropSession userId (some deviceId)) := by
  refine .read rfl ?_
  cases hfind : s.users.find? (·.id == userId) with
  | none => exact .throw
  | some user =>
    have hrest := run_logout userId deviceId user.role s
    dsimp only
    split
    · refine .read rfl ?_
      simp only [hfind, Option.map_some]
      refine .guard fun hactive => .guard fun hdevice => .returns hrest ⟨user, rfl, fun _ => ?_, rfl⟩
      exact ⟨by simpa using hactive, by simpa using hdevice⟩
    · rename_i hadmin
      exact .returns hrest ⟨user, rfl, fun hrole => absurd hrole hadmin, rfl⟩

theorem requestPasswordReset_run_none (crypto : Crypto) {email : String} {s : Store} (expiryMinutes now : Nat)
    (token salt homepageUrl : String) (transport : Transport)
    (h : s.users.find? (·.email == email) = none) :
    (requestPasswordReset crypto email expiryMinutes now token salt homepageUrl
      transport).prog.run s = (.ok (), s) := by
  rw [requestPasswordReset, findByEmail, Fallible.prog_atomically_bind, Prog.run_act, h]
  rfl

/-- The token is stored with its expiry, whatever happens to the e-mail. -/
theorem requestPasswordReset_run (crypto : Crypto) {email : String} {s : Store} {user : User}
    (expiryMinutes now : Nat) (token salt homepageUrl : String) (transport : Transport)
    (h : s.users.find? (·.email == email) = some user) :
    ∃ outbox, (requestPasswordReset crypto email expiryMinutes now token salt homepageUrl
      transport).prog.run s =
      (.ok (), { s.modifyUser user.id (User.expectReset (crypto.hash salt token)
        (now + expiryMinutes * 60 * 1000)) with outbox }) := by
  rw [requestPasswordReset, findByEmail, Fallible.prog_atomically_bind, Prog.run_act, h]
  cases transport with
  | notConfigured | fails => exact ⟨s.outbox, rfl⟩
  | accepts => exact ⟨_, rfl⟩

theorem resetPassword_run_none {token : String} {now : Nat} {s : Store} (newPassword salt : String)
    (h : matchedUser crypto token (s.users.filter (hasValidResetToken now)) = none) :
    ∃ e, (AuthService.resetPassword crypto token newPassword salt now).prog.run s = (.error e, s) := by
  rw [AuthService.resetPassword, findWithValidResetToken, Fallible.prog_atomically_bind,
    Prog.run_act, h]
  exact ⟨_, rfl⟩

theorem resetPassword_run {token : String} {now : Nat} {s : Store} {user : User}
    (newPassword salt : String)
    (h : matchedUser crypto token (s.users.filter (hasValidResetToken now)) = some user) :
    (AuthService.resetPassword crypto token newPassword salt now).prog.run s =
      (.ok (), s.modifyUser user.id (User.setPassword (crypto.hash salt newPassword))) := by
  rw [AuthService.resetPassword, findWithValidResetToken, Fallible.prog_atomically_bind,
    Prog.run_act, h]
  rfl

end AuthService

namespace AdminService

open AuthService

/-! ## AdminService -/

/-- A document that was found is found again after it is updated. -/
theorem find?_modifyUser {userId : String} {f : User → User} {s : Store} {user : User}
    (hf : ∀ u, (f u).id = u.id) (h : s.users.find? (·.id == userId) = some user) :
    (s.modifyUser userId f).users.find? (·.id == userId) = some (f user) := by
  have hself : (updateOne (·.id == userId) f s.users).find? (·.id == userId) =
      (s.users.find? (·.id == userId)).map f :=
    find?_updateOne_self fun d => by simp only [hf]
  exact hself.trans (congrArg (Option.map f) h)

/-- The password is written, and the sessions are cleared in both collections. -/
def changePassword (userId passwordHash : String) (s : Store) : Store :=
  ((s.modifyUser userId fun user => { user with passwordHash }).clearSessions userId).modifyUser
    userId User.clearFields

theorem resetPassword_run (crypto : Crypto) {userId : String} {dto : ResetPasswordDto}
    (salt : String) {s : Store} {user : User} (hsame : dto.newPassword = dto.confirmPassword)
    (hfind : s.users.find? (·.id == userId) = some user) :
    (resetPassword crypto userId dto salt).prog.run s =
      (.ok { user with passwordHash := crypto.hash salt dto.newPassword },
        changePassword userId (crypto.hash salt dto.newPassword) s) := by
  have hupdated := find?_modifyUser
    (f := fun user => { user with passwordHash := crypto.hash salt dto.newPassword })
    (fun _ => rfl) hfind
  simp only [AdminService.resetPassword, hsame, findById, Fallible.prog_atomically_bind, Prog.run_act,
    hfind, Option.isNone_some, Bool.false_eq_true, ne_eq, not_true_eq_false, if_false] at hupdated ⊢
  apply (run_findByIdAndUpdate userId _ _ s).trans
  rw [hupdated]
  exact run_clearSession userId (pure _) _

theorem resetPassword_settles (crypto : Crypto) (userId : String) (dto : ResetPasswordDto)
    (salt : String) (s : Store) :
    (resetPassword crypto userId dto salt).Settles s fun _ s' =>
      (dto.newPassword = dto.confirmPassword ∧
        ∃ user, s.users.find? (·.id == userId) = some user) ∧
      s' = changePassword userId (crypto.hash salt dto.newPassword) s := by
  by_cases hsame : dto.newPassword = dto.confirmPassword
  · cases hfind : s.users.find? (·.id == userId) with
    | some user =>
      exact .returns (resetPassword_run crypto salt hsame hfind) ⟨⟨hsame, user, rfl⟩, rfl⟩
    | none =>
      unfold AdminService.resetPassword
      exact .guard fun _ => .read rfl (.guard fun hfound => absurd (by simp [hfind]) hfound)
  · unfold AdminService.resetPassword
    exact .guard fun hmatch => absurd hsame hmatch

theorem updateUserRole_run {userId : String} {s : Store} {user : User} (role : UserRole)
    (hfind : s.users.find? (·.id == userId) = some user) :
    (updateUserRole userId role).prog.run s =
      (.ok { user with role }, s.modifyUser userId fun user => { user with role }) := by
  have hupdated := find?_modifyUser (f := fun user => { user with role }) (fun _ => rfl) hfind
  simp only [updateUserRole, findById, Fallible.prog_atomically_bind, Prog.run_act, hfind,
    Option.isNone_some, Bool.false_eq_true, if_false]
  apply (run_findByIdAndUpdate userId _ _ s).trans
  rw [hupdated]
  rfl

theorem updateUserRole_run_none {userId : String} {s : Store} (role : UserRole)
    (hfind : s.users.find? (·.id == userId) = none) :
    (updateUserRole userId role).prog.run s = (.error (.notFound "משתמש לא נמצא"), s) := by
  simp only [updateUserRole, findById, Fallible.prog_atomically_bind, Prog.run_act, hfind,
    Option.isNone_none, if_true]
  rfl

theorem updateUserRole_settles (userId : String) (role : UserRole) (s : Store) :
    (updateUserRole userId role).Settles s fun _ s' =>
      s' = s.modifyUser userId fun user => { user with role } := by
  cases hfind : s.users.find? (·.id == userId) with
  | some user => exact .returns (updateUserRole_run role hfind) rfl
  | none => exact .inl ⟨_, updateUserRole_run_none role hfind⟩

/-- The end of `resetUserDevice`: without a session left the fields are cleared. -/
def afterReset (userId : String) (s : Store) : Store :=
  if s.sessionsOf userId = [] then s.modifyUser userId User.clearFields else s

/-- Clearing the active device again changes nothing. -/
theorem modifyUser_clearActiveDevice (userId : String) (s : Store) :
    (s.modifyUser userId User.clearFields).modifyUser userId
        (fun user => { user with activeDeviceId := none }) =
      s.modifyUser userId User.clearFields :=
  congrArg (fun users => ({ s with users } : Store)) (updateOne_updateOne fun _ => rfl)

theorem run_clearSession_clearActiveDevice {α : Type} (userId : String) (k : Db α) (s : Store) :
    (Fallible.prog do clearSession userId; clearActiveDevice userId; k).run s =
      k.prog.run (s.modifyUser userId User.clearFields) := by
  have hactive : ∀ t : Store, (Fallible.prog do clearActiveDevice userId; k).run t =
      k.prog.run (t.modifyUser userId fun user => { user with activeDeviceId := none }) := by
    intro t
    simp only [clearActiveDevice, bind_assoc, pure_bind]
    exact run_findByIdAndUpdate userId _ (fun _ => k) t
  rw [run_clearSession, hactive, modifyUser_clearActiveDevice]

/-- Without a device id all sessions are dropped. -/
theorem dropSession_of_not_truthy {userId : String} {deviceId : Option String} (s : Store)
    (h : ¬ truthy deviceId = true) : s.dropSession userId deviceId = s.clearSessions userId := by
  have hfilter : deleteSessionFilter userId deviceId = (·.userId == userId) := by
    funext doc
    simp [deleteSessionFilter, h]
  rw [Store.dropSession, hfilter]
  rfl

theorem run_resetUserDevice {userId : String} {t : Store}
    (h : (t.users.find? (·.id == userId)).isSome) :
    ∃ user, (Fallible.prog do
      let remainingSessions ← getAllSessions userId
      if remainingSessions.length = 0 then
        clearSession userId
        clearActiveDevice userId
      let some updatedUser ← findById userId
        | throw (.notFound "משתמש לא נמצא")
      return updatedUser : Prog Store (Except HttpException User)).run t =
    (.ok user, afterReset userId t) := by
  obtain ⟨user, hfind⟩ := Option.isSome_iff_exists.mp h
  have hread : ∀ {s : Store} {u : User}, s.users.find? (·.id == userId) = some u →
      (Fallible.prog do
        let some updatedUser ← findById userId
          | throw (.notFound "משתמש לא נמצא")
        return updatedUser : Prog Store (Except HttpException User)).run s = (.ok u, s) := by
    intro s u hu
    rw [findById, Fallible.prog_atomically_bind, Prog.run_act, hu]
    rfl
  rw [getAllSessions, Fallible.prog_atomically_bind, Prog.run_act]
  simp only [List.length_eq_zero_iff, afterReset]
  split
  · refine ⟨user.clearFields, ?_⟩
    rw [run_clearSession_clearActiveDevice]
    exact hread (find?_modifyUser (fun _ => rfl) hfind)
  · exact ⟨user, hread hfind⟩

theorem resetUserDevice_settles (userId : String) (deviceId : Option String) (s : Store) :
    (resetUserDevice userId deviceId).Settles s fun _ s' =>
      s' = afterReset userId (s.dropSession userId deviceId) := by
  refine .read rfl (.guard fun hfound => ?_)
  have hfind : (s.users.find? (·.id == userId)).isSome := by simpa using hfound
  dsimp only
  split
  · obtain ⟨user, hrun⟩ := run_resetUserDevice (t := s.dropSession userId deviceId) hfind
    exact .returns hrun rfl
  · rename_i hall
    -- The fields are cleared at once, and once more because no session is left.
    let t := (s.clearSessions userId).modifyUser userId User.clearFields
    have hnone : ∀ u : Store, u.sessions = (s.clearSessions userId).sessions →
        u.sessionsOf userId = [] := by
      intro u hu
      rw [Store.sessionsOf_eq_nil, hu]
      exact fun doc hdoc => (Session.mem_clearSessions.mp hdoc).2
    have hcleared : afterReset userId t = afterReset userId (s.dropSession userId deviceId) := by
      rw [dropSession_of_not_truthy s hall, afterReset, afterReset, if_pos (hnone t rfl),
        if_pos (hnone _ rfl)]
      exact congrArg (fun users => ({ s.clearSessions userId with users } : Store))
        (updateOne_updateOne fun _ => rfl)
    have hstill : (t.users.find? (·.id == userId)).isSome := by
      obtain ⟨user, hfind⟩ := Option.isSome_iff_exists.mp hfind
      exact Option.isSome_iff_exists.mpr ⟨_, find?_modifyUser (fun _ => rfl) hfind⟩
    obtain ⟨user, hrun⟩ := run_resetUserDevice hstill
    refine .returns (a := user) ?_ rfl
    rw [← hcleared, clearAllSessions, Fallible.prog_atomically_bind, Prog.run_act,
      run_clearSession_clearActiveDevice]
    exact hrun

theorem deleteUser_settles (userId actingAdminId : String) (s : Store) :
    (deleteUser userId actingAdminId).Settles s fun _ s' =>
      s' = { s.clearSessions userId with users := s.users.eraseP (·.id == userId) } := by
  unfold AdminService.deleteUser
  refine .guard fun _ => .read rfl (.guard fun hfound => ?_)
  obtain ⟨user, hfind⟩ : ∃ user, s.users.find? (·.id == userId) = some user :=
    Option.isSome_iff_exists.mp (by simpa using hfound)
  refine .returns (a := user) ?_ rfl
  simp only [clearAllSessions, deleteById, Fallible.prog_atomically_bind, Prog.run_act, hfind]
  rfl

end AdminService

end Backend
