-- SUMMARY: Which session documents each operation of the backend can bring into the store: login and refresh write sessions with their own new id, no other operation writes one.
import ParkingGate.Backend.ServiceEffects

namespace Backend

open Collection UsersService

/-- The same session, seen active at another time. -/
def Session.Same (d doc : Session) : Prop :=
  doc.userId = d.userId ∧ doc.deviceId = d.deviceId ∧ doc.sessionId = d.sessionId ∧
    doc.refreshTokenHash = d.refreshTokenHash

/-- Every session of `s'` is one of `s`, or has a new id. -/
def Opens (new : String → Prop) (s s' : Store) : Prop :=
  ∀ doc ∈ s'.sessions, new doc.sessionId ∨ ∃ d ∈ s.sessions, d.Same doc

/-- What one action does to the sessions: nothing, a deletion, a new time of activity, or
    the upsert of a session with a new id. -/
inductive SessionAction (new : String → Prop) (upd : Store → Store) : Prop
  | quiet (h : ∀ s, (upd s).sessions = s.sessions)
  | delete (p : Session → Bool) (h : ∀ s, (upd s).sessions = deleteMany p s.sessions)
  | touch (sid : String) (now : Nat)
      (h : ∀ s, (upd s).sessions =
        updateOne (·.sessionId == sid) (fun doc => { doc with lastActiveAt := now }) s.sessions)
  | put (doc : Session) (hnew : new doc.sessionId)
      (h : ∀ s, (upd s).sessions = upsert (·.key == doc.key) doc s.sessions)

/-- Every action of the program is one of these. -/
abbrev OpensOnly {α : Type} (new : String → Prop) (p : Db α) : Prop :=
  p.prog.Always (SessionAction new)

namespace Opens

variable {new : String → Prop} {s s' s'' : Store}

theorem of_sub (h : ∀ doc ∈ s'.sessions, doc ∈ s.sessions) : Opens new s s' :=
  fun doc hdoc => .inr ⟨doc, h doc hdoc, rfl, rfl, rfl, rfl⟩

theorem of_eq (h : s'.sessions = s.sessions) : Opens new s s' := of_sub fun _ hdoc => h ▸ hdoc

theorem trans (h : Opens new s s') (h' : Opens new s' s'') : Opens new s s'' := by
  intro doc hdoc
  rcases h' doc hdoc with hnew | ⟨d, hd, hu, hv, hs, hh⟩
  · exact .inl hnew
  · rcases h d hd with hnew | ⟨e, he, hu', hv', hs', hh'⟩
    · exact .inl (hs ▸ hnew)
    · exact .inr ⟨e, he, hu.trans hu', hv.trans hv', hs.trans hs', hh.trans hh'⟩

end Opens

namespace SessionAction

variable {new : String → Prop} {upd : Store → Store}

theorem opens (h : SessionAction new upd) (s : Store) : Opens new s (upd s) := by
  cases h with
  | quiet h => exact .of_eq (h s)
  | delete p h => exact .of_sub fun doc hdoc => (mem_deleteMany.mp (h s ▸ hdoc)).1
  | touch sid now h =>
    intro doc hdoc
    rcases of_mem_updateOne (h s ▸ hdoc) with hdoc | ⟨d, hd, -, rfl⟩
    · exact .inr ⟨doc, hdoc, rfl, rfl, rfl, rfl⟩
    · exact .inr ⟨d, hd, rfl, rfl, rfl, rfl⟩
  | put new hnew h =>
    intro doc hdoc
    rcases of_mem_upsert (h s ▸ hdoc) with rfl | hdoc
    · exact .inl hnew
    · exact .inr ⟨doc, hdoc, rfl, rfl, rfl, rfl⟩

/-- There stays one session document for each user and device. -/
theorem keyed (h : SessionAction new upd) {s : Store} (hs : Keyed Session.key s.sessions) :
    Keyed Session.key (upd s).sessions := by
  cases h with
  | quiet h => exact h s ▸ hs
  | delete p h => exact h s ▸ hs.deleteMany
  | touch sid now h => exact h s ▸ hs.updateOne fun _ => rfl
  | put doc hnew h =>
    have hput : Keyed Session.key (doc.put s).sessions := Session.keyed_put hs
    exact h s ▸ hput

end SessionAction

namespace OpensOnly

variable {α β : Type} {new : String → Prop}

theorem run {p : Db α} (h : OpensOnly new p) (s : Store) : Opens new s (p.prog.run s).2 :=
  Prog.Always.run (fun _ => .of_eq rfl) (fun _ _ _ => .trans) (h.mono fun _ hupd => hupd.opens) s

theorem keyed {p : Db α} (h : OpensOnly new p) {s : Store} (hs : Keyed Session.key s.sessions) :
    Keyed Session.key (p.prog.run s).2.sessions := by
  have hkeyed : p.prog.Always fun upd =>
      ∀ s, Keyed Session.key s.sessions → Keyed Session.key (upd s).sessions :=
    h.mono fun _ hupd s hs => hupd.keyed hs
  exact (hkeyed.maintains.run hs).2

theorem bind {p : Db α} {k : α → Db β} (h : OpensOnly new p) (hk : ∀ a, OpensOnly new (k a)) :
    OpensOnly new (p >>= k) :=
  Fallible.always_bind h hk

theorem guard {c : Prop} [Decidable c] {e : HttpException} {k : PUnit → Db α}
    (h : OpensOnly new (k ⟨⟩)) : OpensOnly new (if c then throw e >>= k else k ⟨⟩) :=
  Fallible.always_guard h

/-- An action that leaves the sessions alone. -/
theorem quiet {f : Store → α × Store} (h : ∀ s, (f s).2.sessions = s.sessions) :
    OpensOnly new (Fallible.atomically f) := ⟨.quiet h, fun _ => trivial⟩

/-- An action that deletes sessions. -/
theorem delete {p : Session → Bool} :
    OpensOnly new (Fallible.atomically fun s =>
      ((), { s with sessions := deleteMany p s.sessions })) :=
  ⟨.delete p fun _ => rfl, fun _ => trivial⟩

theorem createSession {userId deviceId sid refreshTokenHash : String} {now : Nat}
    (h : new sid) : OpensOnly new (createSession userId deviceId sid refreshTokenHash now) :=
  ⟨.put ⟨userId, deviceId, sid, refreshTokenHash, now⟩ h fun _ => rfl, fun _ => trivial⟩

theorem findByIdAndUpdate {userId : String} {f : User → User} :
    OpensOnly new (findByIdAndUpdate userId f) := quiet fun _ => rfl

theorem setSession {userId deviceId sid refreshTokenHash : String} {now : Nat}
    (h : new sid) : OpensOnly new (setSession userId deviceId sid refreshTokenHash now) :=
  bind findByIdAndUpdate fun _ => createSession h

theorem clearSession {userId : String} : OpensOnly new (clearSession userId) :=
  bind findByIdAndUpdate fun _ => trivial

theorem clearActiveDevice {userId : String} : OpensOnly new (clearActiveDevice userId) :=
  bind findByIdAndUpdate fun _ => trivial

theorem updateSessionLastActive {sid : String} {now : Nat} :
    OpensOnly new (updateSessionLastActive sid now) :=
  ⟨.touch sid now fun _ => rfl, fun _ => trivial⟩

theorem sendMail {mail : Mail} {transport : Transport} : OpensOnly new (sendMail mail transport) := by
  cases transport with
  | notConfigured | fails => trivial
  | accepts => exact quiet fun _ => rfl

/-! ## AuthService -/

section Auth

open AuthService

variable {crypto : Crypto}

theorem register {dto : RegisterDto} {id salt : String} {now : Nat} :
    OpensOnly new (register crypto dto id salt now) := by
  refine bind (quiet fun _ => rfl) fun found => guard ?_
  refine bind (quiet fun s => by dsimp only; split <;> rfl) fun stored => ?_
  split <;> trivial

theorem login {dto : LoginDto} {draw : Draw} :
    OpensOnly (· = draw.sid) (login crypto dto draw) :=
  login_always (.quiet fun _ => rfl) (fun _ => delete) (fun _ _ => createSession rfl)
    fun _ _ => setSession rfl

theorem refresh {token : String} {draw : Draw} :
    OpensOnly (· = draw.sid) (refresh crypto token draw) :=
  refresh_always (.quiet fun _ => rfl) (fun _ _ _ => createSession rfl) fun _ _ _ => setSession rfl

theorem logout {userId deviceId : String} : OpensOnly new (logout userId deviceId) :=
  logout_always (.quiet fun _ => rfl) delete clearSession

theorem updateMe {userId : String} {dto : UpdateMeDto} : OpensOnly new (updateMe userId dto) := by
  refine bind (quiet fun _ => rfl) fun found => guard ?_
  refine bind findByIdAndUpdate fun updated => ?_
  cases updated <;> trivial

theorem requestPasswordReset {email token salt homepageUrl : String} {expiryMinutes now : Nat}
    {transport : Transport} :
    OpensOnly new
      (requestPasswordReset crypto email expiryMinutes now token salt homepageUrl transport) := by
  refine bind (quiet fun _ => rfl) fun found => ?_
  cases found with
  | none => trivial
  | some user =>
    refine bind findByIdAndUpdate fun _ => ?_
    exact Fallible.always_tryCatch sendMail fun _ => trivial

theorem resetPassword {token newPassword salt : String} {now : Nat} :
    OpensOnly new (resetPassword crypto token newPassword salt now) := by
  refine bind (quiet fun _ => rfl) fun candidates => ?_
  split
  · exact bind findByIdAndUpdate fun _ => trivial
  · trivial

theorem authenticate {accessToken : String} {now : Nat} :
    OpensOnly new (JwtStrategy.authenticate crypto accessToken now) := by
  unfold JwtStrategy.authenticate
  split
  · exact JwtStrategy.validate_always (.quiet fun _ => rfl) updateSessionLastActive
  · trivial

theorem canActivate {authUser : AuthUser} : OpensOnly new (ApprovedGuard.canActivate authUser) :=
  ApprovedGuard.canActivate_always (.quiet fun _ => rfl)

end Auth

/-! ## AdminService -/

section Admin

open AdminService

theorem updateUser {userId : String} {dto : UpdateUserDto} {now : Nat} {transport : Transport} :
    OpensOnly new (AdminService.updateUser userId dto now transport) := by
  refine updateUser_always (.quiet fun _ => rfl) (fun _ => clearSession) (fun _ => findByIdAndUpdate)
    fun user => Fallible.always_tryCatch ?_ fun _ => trivial
  exact bind sendMail fun _ => bind findByIdAndUpdate fun _ => bind (quiet fun _ => rfl) fun _ => trivial

theorem updateUserRole {userId : String} {role : UserRole} :
    OpensOnly new (updateUserRole userId role) := by
  refine bind (quiet fun _ => rfl) fun found => guard ?_
  refine bind findByIdAndUpdate fun updated => ?_
  cases updated <;> trivial

theorem adminResetPassword {crypto : Crypto} {userId : String} {dto : ResetPasswordDto}
    {salt : String} : OpensOnly new (AdminService.resetPassword crypto userId dto salt) := by
  unfold AdminService.resetPassword
  apply guard
  refine bind (quiet fun _ => rfl) fun found => guard ?_
  refine bind findByIdAndUpdate fun updated => ?_
  cases updated with
  | none => trivial
  | some user => exact bind delete fun _ => bind clearSession fun _ => trivial

theorem deleteUser {userId actingAdminId : String} :
    OpensOnly new (deleteUser userId actingAdminId) := by
  unfold AdminService.deleteUser
  apply guard
  refine bind (quiet fun _ => rfl) fun found => guard ?_
  refine bind delete fun _ => bind (quiet fun _ => rfl) fun deleted => ?_
  cases deleted <;> trivial

theorem resetUserDevice {userId : String} {deviceId : Option String} :
    OpensOnly new (resetUserDevice userId deviceId) :=
  resetUserDevice_always (.quiet fun _ => rfl) delete delete clearSession clearActiveDevice

theorem approvePendingUser {now : Nat} {user : User} {transport : Transport} :
    OpensOnly new (approvePendingUser now user transport) := by
  refine bind findByIdAndUpdate fun _ => bind ?_ fun _ =>
    bind clearSession fun _ => clearActiveDevice
  refine Fallible.always_tryCatch ?_ fun _ => trivial
  exact bind sendMail fun _ => bind findByIdAndUpdate fun _ => trivial

theorem approveEach {now : Nat} {users : List User} {transports : List Transport} {count : Nat} :
    OpensOnly new (approveEach now users transports count) :=
  approveEach_always fun _ _ _ => approvePendingUser

theorem approveAllPendingUsers {now : Nat} {transports : List Transport} :
    OpensOnly new (approveAllPendingUsers now transports) :=
  bind (quiet fun _ => rfl) fun _ => approveEach

theorem sendApprovalEmail {userId : String} {now : Nat} {transport : Transport} :
    OpensOnly new (sendApprovalEmail userId now transport) := by
  refine bind (quiet fun _ => rfl) fun found => ?_
  cases found with
  | none => trivial
  | some user => exact guard (bind sendMail fun _ => bind findByIdAndUpdate fun _ => trivial)

end Admin

end OpensOnly

end Backend
