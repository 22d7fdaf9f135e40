-- SUMMARY: What the writes of the session operations leave alone: other users and their sessions, the keys, and the fields that are not cleared.
import ParkingGate.Backend.Outcomes
import ParkingGate.Backend.SessionEffects

namespace Backend

open AuthService AdminService Collection UsersService

/-! ## Keys -/

/-- Each user, session and device has one document, and each session a user. -/
structure WellKeyed (s : Store) : Prop where
  sessions : Keyed Session.key s.sessions
  users : Keyed User.id s.users
  owners : ∀ doc ∈ s.sessions, doc.userId ∈ s.users.map User.id

namespace WellKeyed

variable {s : Store}

theorem modifyUser (h : WellKeyed s) {userId : String} {f : User → User}
    (hf : ∀ user, (f user).id = user.id) : WellKeyed (s.modifyUser userId f) where
  sessions := h.sessions
  users := h.users.updateOne hf
  owners := fun doc hdoc => by
    rw [Store.modifyUser, map_updateOne hf]
    exact h.owners doc hdoc

theorem deleteMany (h : WellKeyed s) (p : Session → Bool) :
    WellKeyed { s with sessions := Collection.deleteMany p s.sessions } where
  sessions := h.sessions.deleteMany
  users := h.users
  owners := fun doc hdoc => h.owners doc (mem_deleteMany.mp hdoc).1

theorem put (h : WellKeyed s) {doc : Session} (howner : doc.userId ∈ s.users.map User.id) :
    WellKeyed (doc.put s) where
  sessions := Session.keyed_put h.sessions
  users := h.users
  owners := fun d hd => by
    rcases Session.of_mem_put hd with rfl | hd
    · exact howner
    · exact h.owners d hd

theorem openSession (h : WellKeyed s) {doc : Session} (howner : doc.userId ∈ s.users.map User.id) :
    WellKeyed (doc.open s) := by
  have hfields : WellKeyed (doc.setFields s) := h.modifyUser fun _ => rfl
  have hids : (doc.setFields s).users.map User.id = s.users.map User.id :=
    map_updateOne fun _ => rfl
  exact hfields.put (hids ▸ howner)

end WellKeyed

/-! ## The documents of a user -/

theorem mem_sessionsOf {s : Store} {userId : String} {doc : Session} :
    doc ∈ s.sessionsOf userId ↔ doc ∈ s.sessions ∧ doc.userId = userId := by
  simp [Store.sessionsOf]

theorem sessionsOf_deleteMany {p : Session → Bool} {s : Store} {userId id : String}
    (hp : ∀ doc, p doc = true → doc.userId = userId) (hid : id ≠ userId) :
    ({ s with sessions := deleteMany p s.sessions } : Store).sessionsOf id = s.sessionsOf id := by
  rw [Store.sessionsOf, deleteMany, List.filter_filter]
  refine List.filter_congr fun doc _ => ?_
  cases hmatch : p doc with
  | false => simp
  | true => simp [hp doc hmatch, hid.symm]

theorem sessionsOf_put {doc : Session} {s : Store} {id : String} (hid : id ≠ doc.userId) :
    (doc.put s).sessionsOf id = s.sessionsOf id := by
  refine filter_upsert (by simp [hid.symm]) fun d hd => ?_
  have huser : d.userId = doc.userId := congrArg Prod.fst (beq_iff_eq.mp hd)
  simp [huser, hid.symm]

theorem mem_dropSession {s : Store} {userId : String} {deviceId : Option String} {doc : Session} :
    doc ∈ (s.dropSession userId deviceId).sessionsOf userId ↔
      doc ∈ s.sessionsOf userId ∧ truthy deviceId = true ∧ deviceId ≠ some doc.deviceId := by
  rw [mem_sessionsOf, mem_sessionsOf, Store.dropSession, mem_deleteMany]
  constructor
  · rintro ⟨⟨hdoc, hkept⟩, huser⟩
    simp only [deleteSessionFilter, huser, BEq.rfl, Bool.true_and, Bool.or_eq_false_iff,
      Bool.not_eq_false', beq_eq_false_iff_ne] at hkept
    exact ⟨⟨hdoc, huser⟩, hkept⟩
  · rintro ⟨⟨hdoc, huser⟩, htruthy, hne⟩
    exact ⟨⟨hdoc, by simp [deleteSessionFilter, htruthy, hne]⟩, huser⟩

theorem sessionsOf_clearSessions {s : Store} {userId : String} :
    (s.clearSessions userId).sessionsOf userId = [] :=
  Store.sessionsOf_eq_nil.mpr fun _ hdoc => (Session.mem_clearSessions.mp hdoc).2

/-! ## One user -/

/-- `f` is applied to one user, and no document of another user is touched. -/
structure Touches (userId : String) (f : User → User) (s s' : Store) : Prop where
  users : ∀ user' ∈ s'.users, user' ∈ s.users ∧ user'.id ≠ userId ∨
    ∃ user ∈ s.users, user.id = userId ∧ user' = f user
  sessions : ∀ id ≠ userId, s'.sessionsOf id = s.sessionsOf id

namespace Touches

variable {userId : String} {f g : User → User} {s s' s'' : Store}

theorem modifyUser (h : WellKeyed s) : Touches userId f s (s.modifyUser userId f) where
  users := fun _ huser => h.users.mem_updateOne.mp huser
  sessions := fun _ _ => rfl

protected theorem refl : Touches userId id s s where
  users := fun user huser => by
    by_cases hid : user.id = userId
    · exact .inr ⟨user, huser, hid, rfl⟩
    · exact .inl ⟨huser, hid⟩
  sessions := fun _ _ => rfl

/-- The documents that are deleted are those of the user. -/
theorem deleteMany (p : Session → Bool) (hp : ∀ doc, p doc = true → doc.userId = userId) :
    Touches userId id s { s with sessions := Collection.deleteMany p s.sessions } where
  users := Touches.refl.users
  sessions := fun _ hid => sessionsOf_deleteMany hp hid

theorem clearSessions : Touches userId id s (s.clearSessions userId) :=
  deleteMany _ fun _ => by simp

theorem dropSession {deviceId : Option String} :
    Touches userId id s (s.dropSession userId deviceId) :=
  deleteMany _ fun doc hdoc => by
    rw [deleteSessionFilter, Bool.and_eq_true] at hdoc
    simpa using hdoc.1

theorem openSession {doc : Session} (h : WellKeyed s) :
    Touches doc.userId doc.fields s (doc.open s) where
  users := fun _ huser => h.users.mem_updateOne.mp huser
  sessions := fun _ hid => sessionsOf_put hid

theorem trans (h : Touches userId f s s') (h' : Touches userId g s' s'')
    (hf : ∀ user, (f user).id = user.id) : Touches userId (fun user => g (f user)) s s'' where
  users := fun user'' huser'' => by
    rcases h'.users user'' huser'' with ⟨huser', hid⟩ | ⟨user', huser', hid, rfl⟩
    · rcases h.users user'' huser' with hold | ⟨user, -, huser, rfl⟩
      · exact .inl hold
      · exact absurd ((hf user).trans huser) hid
    · rcases h.users user' huser' with ⟨-, hne⟩ | ⟨user, huser, hold, rfl⟩
      · exact absurd hid hne
      · exact .inr ⟨user, huser, hold, rfl⟩
  sessions := fun id hid => (h'.sessions id hid).trans (h.sessions id hid)

end Touches

/-! ## Clearing the fields alone -/

/-- The fields of some users are cleared, and nothing else about sessions changes. -/
structure Clears (who : String → Prop) (s s' : Store) : Prop where
  sessions : s'.sessions = s.sessions
  ids : s'.users.map User.id = s.users.map User.id
  users : ∀ user' ∈ s'.users, ∃ user ∈ s.users, user'.id = user.id ∧ user'.role = user.role ∧
    (user'.activeDeviceId = none ∧ who user.id ∨
      user'.activeDeviceId = user.activeDeviceId ∧ user'.activeSessionId = user.activeSessionId ∧
      user'.refreshTokenHash = user.refreshTokenHash)

namespace Clears

variable {who : String → Prop}

protected theorem refl (s : Store) : Clears who s s :=
  ⟨rfl, rfl, fun user huser => ⟨user, huser, rfl, rfl, .inr ⟨rfl, rfl, rfl⟩⟩⟩

theorem trans {s s' s'' : Store} (h : Clears who s s') (h' : Clears who s' s'') :
    Clears who s s'' where
  sessions := h'.sessions.trans h.sessions
  ids := h'.ids.trans h.ids
  users := fun user'' huser'' => by
    obtain ⟨user', huser', hid', hrole', hfields'⟩ := h'.users user'' huser''
    obtain ⟨user, huser, hid, hrole, hfields⟩ := h.users user' huser'
    refine ⟨user, huser, hid'.trans hid, hrole'.trans hrole, ?_⟩
    rcases hfields' with ⟨hnone, hwho⟩ | ⟨hdevice', hsid', hhash'⟩
    · exact .inl ⟨hnone, hid ▸ hwho⟩
    rcases hfields with ⟨hnone, hwho⟩ | ⟨hdevice, hsid, hhash⟩
    · exact .inl ⟨hdevice'.trans hnone, hwho⟩
    · exact .inr ⟨hdevice'.trans hdevice, hsid'.trans hsid, hhash'.trans hhash⟩

theorem mono {who' : String → Prop} (h : Clears who s s') (hwho : ∀ id, who id → who' id) :
    Clears who' s s' where
  sessions := h.sessions
  ids := h.ids
  users := fun user' huser' => by
    obtain ⟨user, huser, hid, hrole, hfields⟩ := h.users user' huser'
    exact ⟨user, huser, hid, hrole, hfields.imp_left fun hnone => ⟨hnone.1, hwho _ hnone.2⟩⟩

end Clears

/-- Every action of the program clears fields at most. -/
abbrev ClearsOnly {α : Type} (who : String → Prop) (p : Db α) : Prop :=
  p.prog.Always fun upd => ∀ s, Clears who s (upd s)

namespace ClearsOnly

variable {α β : Type} {who : String → Prop}

theorem run {p : Db α} (h : ClearsOnly who p) (s : Store) : Clears who s (p.prog.run s).2 :=
  Prog.Always.run .refl (fun _ _ _ => .trans) h s

theorem bind {p : Db α} {k : α → Db β} (h : ClearsOnly who p) (hk : ∀ a, ClearsOnly who (k a)) :
    ClearsOnly who (p >>= k) :=
  Fallible.always_bind h hk

/-- An action that leaves users and sessions alone. -/
theorem quiet {f : Store → α × Store} (husers : ∀ s, (f s).2.users = s.users)
    (hsessions : ∀ s, (f s).2.sessions = s.sessions) : ClearsOnly who (Fallible.atomically f) := by
  refine ⟨fun s => ⟨hsessions s, congrArg (List.map User.id) (husers s), ?_⟩, fun _ => trivial⟩
  rw [husers s]
  exact (Clears.refl s).users

theorem findByIdAndUpdate {userId : String} {f : User → User}
    (hid : ∀ user, (f user).id = user.id) (hrole : ∀ user, (f user).role = user.role)
    (hfields : ∀ user, (f user).activeDeviceId = none ∧ who userId ∨
      (f user).activeDeviceId = user.activeDeviceId ∧
        (f user).activeSessionId = user.activeSessionId ∧
        (f user).refreshTokenHash = user.refreshTokenHash) :
    ClearsOnly who (findByIdAndUpdate userId f) := by
  refine ⟨fun s => ⟨rfl, map_updateOne hid, fun user' huser' => ?_⟩, fun _ => trivial⟩
  rcases of_mem_updateOne huser' with hmem | ⟨user, hmem, hmatch, rfl⟩
  · exact (Clears.refl s).users user' hmem
  · refine ⟨user, hmem, hid user, hrole user, ?_⟩
    rw [beq_iff_eq.mp hmatch]
    exact hfields user

theorem clearSession {userId : String} (h : who userId) : ClearsOnly who (clearSession userId) :=
  bind (findByIdAndUpdate (fun _ => rfl) (fun _ => rfl) fun _ => .inl ⟨rfl, h⟩) fun _ => trivial

theorem clearActiveDevice {userId : String} (h : who userId) :
    ClearsOnly who (clearActiveDevice userId) :=
  bind (findByIdAndUpdate (fun _ => rfl) (fun _ => rfl) fun _ => .inl ⟨rfl, h⟩) fun _ => trivial

theorem sendMail {mail : Mail} {transport : Transport} : ClearsOnly who (sendMail mail transport) := by
  cases transport with
  | notConfigured | fails => trivial
  | accepts => exact quiet (fun _ => rfl) fun _ => rfl

/-- The e-mail, and the time it was sent at. -/
theorem notify {mail : Mail} {transport : Transport} {userId : String} {now : Nat}
    {k : Option User → Db α} (hk : ∀ updated, ClearsOnly who (k updated)) :
    ClearsOnly who (do
      Backend.sendMail mail transport
      let updated ← UsersService.updateUser userId fun user => { user with approvalEmailSentAt := some now }
      k updated) :=
  bind sendMail fun _ =>
    bind (findByIdAndUpdate (fun _ => rfl) (fun _ => rfl) fun _ => .inr ⟨rfl, rfl, rfl⟩) hk

end ClearsOnly

/-- The timestamps are not session fields. -/
theorem statusTimestamps_fields (status previousStatus : UserStatus) (now : Nat) (user : User) :
    ∃ approvedAt rejectedAt, statusTimestamps status previousStatus now user =
      { user with approvedAt, rejectedAt } := by
  unfold statusTimestamps
  split
  · exact ⟨_, _, rfl⟩
  split
  · exact ⟨_, _, rfl⟩
  · exact ⟨_, _, rfl⟩

/-- The update of `updateUser` clears the active device if it forces the logout. -/
theorem updateData_fields (dto : UpdateUserDto) (existing : User) (now : Nat) (user : User) :
    (dto.updateData existing now user).id = user.id ∧
    (dto.updateData existing now user).role = user.role ∧
    (dto.updateData existing now user).activeDeviceId =
      (if dto.status.any forcesLogout then none else user.activeDeviceId) ∧
    (dto.updateData existing now user).activeSessionId = user.activeSessionId ∧
    (dto.updateData existing now user).refreshTokenHash = user.refreshTokenHash ∧
    (dto.updateData existing now user).email = user.email ∧
    (dto.updateData existing now user).passwordHash = user.passwordHash := by
  unfold UpdateUserDto.updateData
  cases dto.status with
  | none =>
    dsimp only
    split
    · exact ⟨rfl, rfl, rfl, rfl, rfl, rfl, rfl⟩
    · exact ⟨rfl, rfl, rfl, rfl, rfl, rfl, rfl⟩
  | some status =>
    obtain ⟨approvedAt, rejectedAt, htimes⟩ :=
      statusTimestamps_fields status existing.status now { dto.profile user with status }
    simp only [htimes, Option.any_some]
    split
    · exact ⟨rfl, rfl, rfl, rfl, rfl, rfl, rfl⟩
    · exact ⟨rfl, rfl, rfl, rfl, rfl, rfl, rfl⟩

namespace ClearsOnly

theorem updateUser {userId : String} {dto : UpdateUserDto} {now : Nat} {transport : Transport} :
    ClearsOnly (fun id => dto.status.any forcesLogout = true ∧ id = userId)
      (AdminService.updateUser userId dto now transport) := by
  refine updateUser_always (fun s => .refl s) (fun hforced => clearSession ⟨hforced, rfl⟩)
    (fun existing => findByIdAndUpdate (fun user => (updateData_fields dto existing now user).1)
      (fun user => (updateData_fields dto existing now user).2.1) fun user => ?_)
    fun user => Fallible.always_tryCatch ?_ fun _ => trivial
  · obtain ⟨-, -, hdevice, hsid, hhash, -⟩ := updateData_fields dto existing now user
    by_cases hforced : dto.status.any forcesLogout = true
    · exact .inl ⟨hdevice.trans (if_pos hforced), hforced, rfl⟩
    · exact .inr ⟨hdevice.trans (if_neg hforced), hsid, hhash⟩
  · exact notify fun _ => bind (quiet (fun _ => rfl) fun _ => rfl) fun _ => trivial

theorem approveEach {now : Nat} {users : List User} {transports : List Transport} {count : Nat}
    {who : String → Prop} (h : ∀ user ∈ users, who user.id) :
    ClearsOnly who (approveEach now users transports count) := by
  refine approveEach_always fun user huser transport => ?_
  refine bind (findByIdAndUpdate (fun _ => rfl) (fun _ => rfl) fun _ => .inr ⟨rfl, rfl, rfl⟩)
    fun _ => bind ?_ fun _ => bind (clearSession (h user huser)) fun _ => clearActiveDevice (h user huser)
  exact Fallible.always_tryCatch (notify fun _ => trivial) fun _ => trivial

end ClearsOnly

end Backend
