-- SUMMARY: Sequential runs of the session operations: how far the session fields of a user document agree with the session documents of the user.
import ParkingGate.Backend.StoreFrames

/-!
# The two copies of a session

A session is a document of its own, and the user document repeats the fields of the latest
one. Both are written by different operations. The fields always agree with the document of
the device they name, if there is one. There need not be one after an administrator has
logged out of one of several devices, and a regular user keeps documents of other devices
when an administrator becomes one, or when a forced logout clears the fields only.
-/

namespace Backend.SessionCopies

open AuthService AdminService Collection UsersService

/-! ## The copies -/

/-- The fields of the user are those of the document. -/
def Agrees (user : User) (doc : Session) : Prop :=
  user.activeSessionId = some doc.sessionId ∧ user.refreshTokenHash = some doc.refreshTokenHash

/-- The active device has a document that agrees. -/
def Stored (s : Store) (user : User) : Prop :=
  ∀ deviceId ∈ user.activeDeviceId, ∃ doc ∈ s.sessions,
    doc.key = (user.id, deviceId) ∧ Agrees user doc

/-- No other device has a document. -/
def Sole (s : Store) (user : User) : Prop :=
  ∀ doc ∈ s.sessions, doc.userId = user.id → user.activeDeviceId = some doc.deviceId

/-- The two copies are the same state. -/
def Copies (s : Store) : Prop :=
  ∀ user ∈ s.users, Stored s user ∧ (user.role = .user → Sole s user)

section Decidable

variable (s : Store) (user : User)

instance (doc : Session) : Decidable (Agrees user doc) := inferInstanceAs (Decidable (_ ∧ _))

instance : Decidable (Stored s user) :=
  inferInstanceAs (Decidable (∀ deviceId ∈ user.activeDeviceId, _))

instance : Decidable (Sole s user) := inferInstanceAs (Decidable (∀ doc ∈ s.sessions, _))

instance : Decidable (Copies s) := inferInstanceAs (Decidable (∀ user ∈ s.users, _))

end Decidable

/-- None of the documents of the user is that of the active device. -/
def dangles (user : User) (docs : List Session) : Bool :=
  user.activeDeviceId.any fun deviceId => docs.all (·.deviceId ≠ deviceId)

/-- One of the documents of the user is that of another device. -/
def strays (user : User) (docs : List Session) : Bool :=
  docs.any fun doc => user.activeDeviceId ≠ some doc.deviceId

/-! ## Runs -/

inductive Op where
  | register (dto : RegisterDto) (id salt : String)
  | login (dto : LoginDto) (sid salt : String)
  | refresh (token sid salt : String)
  | logout (userId deviceId : String)
  | updateUser (userId : String) (dto : UpdateUserDto) (transport : Transport)
  | updateUserRole (userId : String) (role : UserRole)
  | resetPassword (userId : String) (dto : ResetPasswordDto) (salt : String)
  | resetUserDevice (userId : String) (deviceId : Option String)
  | approveAllPendingUsers (transports : List Transport)
  | deleteUser (userId actingAdminId : String)
  | pass (ms : Nat)

/-- The store and the clock. `stale` are the users whose active device has had no document
    since their session on it was ended alone; `loose` are those who have had documents of
    other devices since they lost the admin role or had their fields cleared. -/
structure World where
  store : Store
  now : Nat
  stale : List String
  loose : List String

/-- A store without sessions. -/
def World.start (users : List User) : World where
  store := { Store.empty with users }
  now := 0
  stale := []
  loose := []

/-- The user exists and passes the test, taken together with the documents of the user. -/
def passes (test : User → List Session → Bool) (s : Store) (id : String) : Bool :=
  s.users.any fun user => user.id == id && test user (s.sessionsOf id)

section Semantics

variable (crypto : Crypto) (w : World)

/-- One operation, from its first step to its last. -/
def Op.run (now : Nat) (s : Store) : Op → Store
  | register dto id salt              => ((AuthService.register crypto dto id salt now).prog.run s).2
  | login dto sid salt                => ((AuthService.login crypto dto ⟨now, sid, salt⟩).prog.run s).2
  | refresh token sid salt            =>
    ((AuthService.refresh crypto token ⟨now, sid, salt⟩).prog.run s).2
  | logout userId deviceId            => ((AuthService.logout userId deviceId).prog.run s).2
  | updateUser userId dto transport   =>
    ((AdminService.updateUser userId dto now transport).prog.run s).2
  | updateUserRole userId role        => ((AdminService.updateUserRole userId role).prog.run s).2
  | resetPassword userId dto salt     =>
    ((AdminService.resetPassword crypto userId dto salt).prog.run s).2
  | resetUserDevice userId deviceId   => ((AdminService.resetUserDevice userId deviceId).prog.run s).2
  | approveAllPendingUsers transports =>
    ((AdminService.approveAllPendingUsers now transports).prog.run s).2
  | deleteUser userId actingAdminId   => ((AdminService.deleteUser userId actingAdminId).prog.run s).2
  | pass _                            => s

/-- Whose session on the active device the operation ends, and only that one. -/
def Op.unseats (s : Store) : Op → List String
  | logout userId deviceId                 =>
    if passes (fun user _ => user.activeDeviceId = some deviceId) s userId then [userId] else []
  | resetUserDevice userId (some deviceId) =>
    if passes (fun user _ => user.activeDeviceId = some deviceId) s userId then [userId] else []
  | _                                      => []

/-- Who may be left with documents of other devices: an administrator who becomes a regular
    user, and a user whose fields are cleared and whose documents are not. -/
def Op.loosens (s : Store) : Op → List String
  | updateUser userId dto _   => if dto.status.any forcesLogout then [userId] else []
  | updateUserRole userId role =>
    if role = .user ∧ passes (fun user _ => user.role = .admin) s userId then [userId] else []
  | approveAllPendingUsers _  => (s.users.filter (·.status == .pending)).map User.id
  | _                         => []

def Op.clock (now : Nat) : Op → Nat
  | pass ms => now + ms
  | _       => now

/-- A user is kept in the lists for as long as the state is what the list says. -/
def step (op : Op) : Option World :=
  let store := op.run crypto w.now w.store
  some {
    store
    now := op.clock w.now
    stale := (op.unseats w.store ++ w.stale).filter (passes dangles store)
    loose := (op.loosens w.store ++ w.loose).filter (passes strays store) }

/-- The id of a new user is not in use. -/
def Genuine : Op → Prop
  | .register _ id _ => id ∉ w.store.users.map User.id
  | _                => True

instance : ∀ op, Decidable (Genuine w op) := by
  intro op
  cases op <;> unfold Genuine <;> infer_instance

end Semantics

/-- What does hold of the copies. -/
structure Agreement (w : World) (user : User) : Prop where
  agree : ∀ doc ∈ w.store.sessions, doc.userId = user.id →
    user.activeDeviceId = some doc.deviceId → Agrees user doc
  stored : user.id ∉ w.stale → Stored w.store user
  regular : user.role = .user → user.id ∉ w.loose → Stored w.store user ∧ Sole w.store user

/-! ## The invariant -/

/-- What holds of a user and the documents of the user. -/
structure Good (stale loose : List String) (user : User) (docs : List Session) : Prop where
  agree : ∀ doc ∈ docs, user.activeDeviceId = some doc.deviceId → Agrees user doc
  /-- The fields are cleared with the last document. -/
  nonempty : user.activeDeviceId.isSome → docs ≠ []
  stale : dangles user docs = true → user.id ∈ stale
  loose : user.role = .user → strays user docs = true → user.id ∈ loose

structure Inv (stale loose : List String) (s : Store) : Prop extends WellKeyed s where
  good : ∀ user ∈ s.users, Good stale loose user (s.sessionsOf user.id)

theorem dangles_eq_true {user : User} {docs : List Session} :
    dangles user docs = true ↔
      ∃ deviceId, user.activeDeviceId = some deviceId ∧ ∀ doc ∈ docs, doc.deviceId ≠ deviceId := by
  simp [dangles, Option.any_eq_true]

theorem strays_eq_true {user : User} {docs : List Session} :
    strays user docs = true ↔ ∃ doc ∈ docs, user.activeDeviceId ≠ some doc.deviceId := by
  simp [strays]

theorem passes_of_mem {test : User → List Session → Bool} {s : Store} {user : User}
    (h : user ∈ s.users) (htest : test user (s.sessionsOf user.id) = true) :
    passes test s user.id = true :=
  List.any_eq_true.mpr ⟨user, h, by simp [htest]⟩

theorem inv_start {users : List User} (hids : Keyed User.id users)
    (hout : ∀ user ∈ users, user.activeDeviceId = none) :
    Inv [] [] (World.start users).store where
  sessions := List.nodup_nil
  users := hids
  owners := fun _ hdoc => absurd hdoc List.not_mem_nil
  good := fun user huser =>
    { agree := fun _ hdoc => absurd hdoc List.not_mem_nil
      nonempty := fun hsome => by simp [hout user huser] at hsome
      stale := fun hdangles => by simp [dangles, hout user huser] at hdangles
      loose := fun _ hstrays => absurd hstrays Bool.false_ne_true }

namespace Good

variable {stale loose stale' loose' : List String} {user : User} {docs : List Session}

theorem mono (h : Good stale loose user docs) (hstale : stale ⊆ stale') (hloose : loose ⊆ loose') :
    Good stale' loose' user docs where
  agree := h.agree
  nonempty := h.nonempty
  stale := fun hdangles => hstale (h.stale hdangles)
  loose := fun hrole hstrays => hloose (h.loose hrole hstrays)

/-- A user without an active device. -/
theorem cleared (hnone : user.activeDeviceId = none)
    (hloose : user.role = .user → docs ≠ [] → user.id ∈ loose) : Good stale loose user docs where
  agree := fun _ _ hactive => nomatch hnone.symm.trans hactive
  nonempty := fun hsome => by simp [hnone] at hsome
  stale := fun hdangles => by simp [dangles, hnone] at hdangles
  loose := fun hrole hstrays => by
    obtain ⟨doc, hdoc, -⟩ := strays_eq_true.mp hstrays
    exact hloose hrole (List.ne_nil_of_mem hdoc)

/-- Only the session fields and the role matter. -/
theorem congr {user' : User} (h : Good stale loose user docs) (hid : user'.id = user.id)
    (hrole : user'.role = user.role) (hdevice : user'.activeDeviceId = user.activeDeviceId)
    (hsid : user'.activeSessionId = user.activeSessionId)
    (hhash : user'.refreshTokenHash = user.refreshTokenHash) : Good stale loose user' docs where
  agree := by simpa only [Agrees, hdevice, hsid, hhash] using h.agree
  nonempty := hdevice ▸ h.nonempty
  stale := by simpa only [dangles, hdevice, hid] using h.stale
  loose := by simpa only [strays, hdevice, hid, hrole] using h.loose

end Good

variable {stale loose stale' loose' : List String} {s s' : Store}

/-- Only the user that is touched has to be looked at. -/
theorem Inv.touch (h : Inv stale loose s) {userId : String} {f : User → User}
    (ht : Touches userId f s s') (hs' : WellKeyed s') (hf : ∀ user, (f user).id = user.id)
    (hstale : stale ⊆ stale') (hloose : loose ⊆ loose')
    (hgood : ∀ user ∈ s.users, user.id = userId →
      Good stale' loose' (f user) (s'.sessionsOf userId)) : Inv stale' loose' s' where
  toWellKeyed := hs'
  good := fun user' huser' => by
    rcases ht.users user' huser' with ⟨huser, hid⟩ | ⟨user, huser, rfl, rfl⟩
    · rw [ht.sessions _ hid]
      exact (h.good user' huser).mono hstale hloose
    · rw [hf user]
      exact hgood user huser rfl

theorem Inv.mono (h : Inv stale loose s) (hstale : stale ⊆ stale') (hloose : loose ⊆ loose') :
    Inv stale' loose' s where
  toWellKeyed := h.toWellKeyed
  good := fun user huser => (h.good user huser).mono hstale hloose

/-- A user whose documents are all deleted and whose fields are cleared. -/
theorem Inv.out (h : Inv stale loose s) {userId : String} {f : User → User}
    (ht : Touches userId f s s') (hs' : WellKeyed s') (hf : ∀ user, (f user).id = user.id)
    (hnone : ∀ user, (f user).activeDeviceId = none) (hdocs : s'.sessionsOf userId = []) :
    Inv stale loose s' :=
  h.touch ht hs' hf (List.Subset.refl _) (List.Subset.refl _) fun user _ _ =>
    .cleared (hnone user) fun _ hne => absurd hdocs hne

/-- A session is opened after others of the user were deleted, or none. -/
theorem Inv.openSession (h : Inv stale loose s) {doc : Session} {t : Store} (ht' : WellKeyed t)
    (ht : Touches doc.userId id s t) (howner : doc.userId ∈ t.users.map User.id)
    (hloose : ∀ user ∈ s.users, user.id = doc.userId → user.role = .user →
      ∀ d ∈ t.sessions, d.userId = doc.userId → d.deviceId ≠ doc.deviceId → user.id ∈ loose) :
    Inv stale loose (doc.open t) := by
  have hmem : ∀ d, d ∈ (doc.open t).sessionsOf doc.userId ↔
      (d = doc ∨ d ∈ t.sessions ∧ d.key ≠ doc.key) ∧ d.userId = doc.userId := by
    intro d
    rw [mem_sessionsOf]
    exact and_congr_left' ht'.sessions.mem_upsert
  have hother : ∀ d, d ∈ (doc.open t).sessionsOf doc.userId → d.deviceId = doc.deviceId →
      d = doc := by
    intro d hd hdevice
    obtain ⟨rfl | ⟨-, hkey⟩, huser⟩ := (hmem d).mp hd
    · rfl
    · exact absurd (Prod.ext huser hdevice) hkey
  have hself : doc ∈ (doc.open t).sessionsOf doc.userId := (hmem doc).mpr ⟨.inl rfl, rfl⟩
  refine h.touch (ht.trans (.openSession ht') fun _ => rfl) (ht'.openSession howner)
    (fun _ => rfl) (List.Subset.refl _) (List.Subset.refl _) fun user huser hid => ?_
  constructor
  · intro d hd hactive
    obtain rfl := hother d hd (Option.some.inj hactive).symm
    exact ⟨rfl, rfl⟩
  · exact fun _ => List.ne_nil_of_mem hself
  · intro hdangles
    obtain ⟨deviceId, hdevice, hnone⟩ := dangles_eq_true.mp hdangles
    exact absurd (Option.some.inj hdevice) (hnone doc hself)
  · intro hrole hstrays
    obtain ⟨d, hd, hne⟩ := strays_eq_true.mp hstrays
    have hdevice : d.deviceId ≠ doc.deviceId := fun heq => hne (congrArg some heq.symm)
    obtain ⟨rfl | ⟨hold, -⟩, hduser⟩ := (hmem d).mp hd
    · exact absurd rfl hdevice
    · exact hloose user huser hid hrole d hold hduser hdevice

/-! ## The operations -/

variable {crypto : Crypto}

/-- The session on one device is deleted, and another one of the user is left. -/
theorem Inv.dropSession (h : Inv stale loose s) {userId : String} {deviceId : Option String}
    (hleft : (s.dropSession userId deviceId).sessionsOf userId ≠ [])
    (hstale : stale ⊆ stale')
    (hunseats : ∀ user ∈ s.users, user.id = userId → user.activeDeviceId = deviceId →
      user.id ∈ stale') : Inv stale' loose (s.dropSession userId deviceId) := by
  refine h.touch .dropSession (h.toWellKeyed.deleteMany _) (fun _ => rfl) hstale
    (List.Subset.refl _) fun user huser hid => ?_
  obtain rfl := hid
  have hgood := h.good user huser
  constructor
  · exact fun doc hdoc => hgood.agree doc (mem_dropSession.mp hdoc).1
  · exact fun _ => hleft
  · intro hdangles
    obtain ⟨active, hactive, hnone⟩ := dangles_eq_true.mp hdangles
    by_cases hsame : user.activeDeviceId = deviceId
    · exact hunseats user huser rfl hsame
    · -- The document of another device is still there.
      refine hstale (hgood.stale (dangles_eq_true.mpr ⟨active, hactive, fun doc hdoc heq => ?_⟩))
      obtain ⟨left, hmem⟩ := List.exists_mem_of_ne_nil _ hleft
      have hkept : doc ∈ (s.dropSession user.id deviceId).sessionsOf user.id :=
        mem_dropSession.mpr ⟨hdoc, (mem_dropSession.mp hmem).2.1,
          fun hdevice => hsame (hactive.trans (heq ▸ hdevice.symm))⟩
      exact hnone doc hkept heq
  · intro hrole hstrays
    obtain ⟨doc, hdoc, hne⟩ := strays_eq_true.mp hstrays
    exact hgood.loose hrole (strays_eq_true.mpr ⟨doc, (mem_dropSession.mp hdoc).1, hne⟩)

theorem Inv.register (h : Inv stale loose s) (dto : RegisterDto) {id : String} (salt : String)
    (now : Nat) (hfresh : id ∉ s.users.map User.id) :
    Inv stale loose ((AuthService.register crypto dto id salt now).prog.run s).2 := by
  apply (register_settles crypto dto id salt now s).leaves h
  rintro _ s' ⟨⟨params, -, -, rfl⟩, -, rfl⟩
  have hother : ∀ doc ∈ s.sessions, doc.userId ≠ id := fun doc hdoc heq =>
    hfresh (heq ▸ h.owners doc hdoc)
  constructor
  · refine ⟨h.sessions, h.users.append hfresh, fun doc hdoc => ?_⟩
    rw [List.map_append]
    exact List.mem_append_left _ (h.owners doc hdoc)
  · intro user huser
    rcases List.mem_append.mp huser with huser | huser
    · exact h.good user huser
    · obtain rfl := List.mem_singleton.mp huser
      exact .cleared rfl fun _ hne => absurd (Store.sessionsOf_eq_nil.mpr hother) hne

theorem Inv.login (h : Inv stale loose s) (dto : LoginDto) (draw : Draw) :
    Inv stale loose ((AuthService.login crypto dto draw).prog.run s).2 := by
  apply (login_settles crypto dto draw s).leaves h
  rintro _ s' ⟨user, hfind, -, -, rfl⟩
  have hmem := List.mem_of_find?_eq_some hfind
  have howner : user.id ∈ s.users.map User.id := List.mem_map_of_mem hmem
  split
  · apply h.openSession (h.toWellKeyed.deleteMany _) .clearSessions howner
    exact fun _ _ _ _ d hd huser _ => absurd huser (Session.mem_clearSessions.mp hd).2
  · rename_i hadmin
    refine h.openSession h.toWellKeyed .refl howner fun u hu hid hrole => ?_
    obtain rfl := h.users.eq_of_key hu hmem hid
    exact absurd (by simp [hrole]) hadmin

theorem Inv.refresh (h : Inv stale loose s) (token : String) (draw : Draw) :
    Inv stale loose ((AuthService.refresh crypto token draw).prog.run s).2 := by
  obtain ⟨e, he⟩ | ⟨payload, -, hacc, hstore⟩ := refresh_run_cases crypto token draw s
  · rw [he]
    exact h
  · rw [hstore]
    obtain ⟨doc, hdoc, -, hdocuser, hdevice, -⟩ := of_accepts hacc
    have howner : payload.sub ∈ s.users.map User.id := hdocuser ▸ h.owners doc hdoc
    refine h.openSession h.toWellKeyed .refl howner fun user huser hid hrole d hd hduser hne => ?_
    -- The documents of two devices are not both that of the active device.
    refine (h.good user huser).loose hrole (strays_eq_true.mpr ?_)
    by_cases hactive : user.activeDeviceId = some doc.deviceId
    · refine ⟨d, mem_sessionsOf.mpr ⟨hd, hduser.trans hid.symm⟩, fun hother => hne ?_⟩
      exact (Option.some.inj (hother.symm.trans hactive)).trans hdevice
    · exact ⟨doc, mem_sessionsOf.mpr ⟨hdoc, hdocuser.trans hid.symm⟩, hactive⟩

/-- `unseats`, for the device of the call. -/
theorem mem_unseats {user : User} {deviceId : String} (huser : user ∈ s.users)
    (hactive : user.activeDeviceId = some deviceId) :
    user.id ∈ (Op.logout user.id deviceId).unseats s := by
  have hpasses : passes (fun user _ => user.activeDeviceId = some deviceId) s user.id = true :=
    passes_of_mem huser (by simp [hactive])
  simp [Op.unseats, hpasses]

theorem Inv.logout (h : Inv stale loose s) (userId deviceId : String) :
    Inv ((Op.logout userId deviceId).unseats s ++ stale) loose
      ((AuthService.logout userId deviceId).prog.run s).2 := by
  have hmono := h.mono (List.subset_append_right ((Op.logout userId deviceId).unseats s) stale)
    (List.Subset.refl loose)
  apply (logout_settles userId deviceId s).leaves hmono
  rintro _ s' ⟨user, hfind, hactive, rfl⟩
  obtain rfl : user.id = userId := by simpa using List.find?_some hfind
  have hmem := List.mem_of_find?_eq_some hfind
  have hkeyed : WellKeyed (s.dropSession user.id (some deviceId)) := h.toWellKeyed.deleteMany _
  unfold afterLogout
  split
  · refine hmono.touch (Touches.dropSession.trans (.modifyUser hkeyed) fun _ => rfl)
      (hkeyed.modifyUser fun _ => rfl) (fun _ => rfl) (List.Subset.refl _) (List.Subset.refl _)
      fun u hu hid => .cleared rfl fun hrole hne => ?_
    -- A document that is left is that of another device.
    obtain rfl := h.users.eq_of_key hu hmem hid
    obtain ⟨doc, hdoc⟩ := List.exists_mem_of_ne_nil _ hne
    obtain ⟨hold, -, hother⟩ := mem_dropSession.mp hdoc
    refine (h.good u hu).loose hrole (strays_eq_true.mpr ⟨doc, hold, ?_⟩)
    rw [(hactive (by simp [show u.role = .user from hrole])).2]
    exact hother
  · rename_i hkept
    refine h.dropSession (fun hnil => hkept (.inl hnil)) (List.subset_append_right _ _) ?_
    intro u hu hid hdevice
    obtain rfl := h.users.eq_of_key hu hmem hid
    exact List.mem_append_left _ (mem_unseats hu hdevice)

theorem Inv.resetUserDevice (h : Inv stale loose s) (userId : String) (deviceId : Option String) :
    Inv ((Op.resetUserDevice userId deviceId).unseats s ++ stale) loose
      ((AdminService.resetUserDevice userId deviceId).prog.run s).2 := by
  have hmono := h.mono (List.subset_append_right
    ((Op.resetUserDevice userId deviceId).unseats s) stale) (List.Subset.refl loose)
  apply (resetUserDevice_settles userId deviceId s).leaves hmono
  rintro _ s' rfl
  have hkeyed : WellKeyed (s.dropSession userId deviceId) := h.toWellKeyed.deleteMany _
  unfold afterReset
  split
  · rename_i hnil
    exact hmono.out (Touches.dropSession.trans (.modifyUser hkeyed) fun _ => rfl)
      (hkeyed.modifyUser fun _ => rfl) (fun _ => rfl) (fun _ => rfl) hnil
  · rename_i hleft
    refine h.dropSession hleft (List.subset_append_right _ _) fun user huser hid hactive => ?_
    obtain rfl := hid
    obtain ⟨doc, hdoc⟩ := List.exists_mem_of_ne_nil _ hleft
    cases deviceId with
    | none => exact absurd (mem_dropSession.mp hdoc).2.1 (by decide)
    | some deviceId => exact List.mem_append_left _ (mem_unseats huser hactive)

theorem Inv.resetPassword (h : Inv stale loose s) (userId : String) (dto : ResetPasswordDto)
    (salt : String) :
    Inv stale loose ((AdminService.resetPassword crypto userId dto salt).prog.run s).2 := by
  apply (resetPassword_settles crypto userId dto salt s).leaves h
  rintro _ s' ⟨-, rfl⟩
  let change (user : User) : User := { user with passwordHash := crypto.hash salt dto.newPassword }
  let changed := s.modifyUser userId change
  have hchanged : WellKeyed changed := h.toWellKeyed.modifyUser fun _ => rfl
  have hcleared : WellKeyed (changed.clearSessions userId) := hchanged.deleteMany _
  have hchange : Touches userId change s changed := .modifyUser h.toWellKeyed
  have hclear : Touches userId id changed (changed.clearSessions userId) := .clearSessions
  have hboth := hchange.trans hclear fun _ => rfl
  exact h.out (hboth.trans (.modifyUser hcleared) fun _ => rfl) (hcleared.modifyUser fun _ => rfl)
    (fun _ => rfl) (fun _ => rfl) sessionsOf_clearSessions

theorem Inv.deleteUser (h : Inv stale loose s) (userId actingAdminId : String) :
    Inv stale loose ((AdminService.deleteUser userId actingAdminId).prog.run s).2 := by
  apply (deleteUser_settles userId actingAdminId s).leaves h
  rintro _ s' rfl
  constructor
  · refine ⟨h.sessions.deleteMany, h.users.sublist (List.eraseP_sublist.map User.id), ?_⟩
    intro doc hdoc
    obtain ⟨hold, hother⟩ := Session.mem_clearSessions.mp hdoc
    obtain ⟨user, huser, hid⟩ := List.mem_map.mp (h.owners doc hold)
    exact List.mem_map.mpr ⟨user, h.users.mem_eraseP.mpr ⟨huser, hid ▸ hother⟩, hid⟩
  · intro user huser
    obtain ⟨hmem, hid⟩ := h.users.mem_eraseP.mp huser
    have hframe : (s.clearSessions userId).sessionsOf user.id = s.sessionsOf user.id :=
      Touches.clearSessions.sessions _ hid
    exact hframe ▸ h.good user hmem

theorem Inv.updateUserRole (h : Inv stale loose s) (userId : String) (role : UserRole) :
    Inv stale ((Op.updateUserRole userId role).loosens s ++ loose)
      ((AdminService.updateUserRole userId role).prog.run s).2 := by
  have hmono := h.mono (List.Subset.refl stale)
    (List.subset_append_right ((Op.updateUserRole userId role).loosens s) loose)
  apply (updateUserRole_settles userId role s).leaves hmono
  rintro _ s' rfl
  refine hmono.touch (.modifyUser h.toWellKeyed) (h.toWellKeyed.modifyUser fun _ => rfl)
    (fun _ => rfl) (List.Subset.refl _) (List.Subset.refl _) fun user huser hid => ?_
  obtain rfl := hid
  have hgood := hmono.good user huser
  refine ⟨hgood.agree, hgood.nonempty, hgood.stale, fun hrole hstrays => ?_⟩
  obtain rfl : role = .user := hrole
  cases hold : user.role with
  | user => exact hgood.loose hold hstrays
  | admin =>
    have hpasses : passes (fun user _ => user.role = .admin) s user.id = true :=
      passes_of_mem huser (by simp [hold])
    exact List.mem_append_left _ (by simp [Op.loosens, hpasses])

/-! ## Clearing the fields alone -/

theorem Inv.clear (h : Inv stale loose s) (hs : Clears (· ∈ loose) s s') : Inv stale loose s' where
  sessions := hs.sessions ▸ h.sessions
  users := by
    rw [Keyed, hs.ids]
    exact h.users
  owners := by
    rw [hs.sessions, hs.ids]
    exact h.owners
  good := fun user' huser' => by
    obtain ⟨user, huser, hid, hrole, hfields⟩ := hs.users user' huser'
    have hdocs : s'.sessionsOf user'.id = s.sessionsOf user.id := by
      rw [Store.sessionsOf, hs.sessions, hid]
      rfl
    rw [hdocs]
    rcases hfields with ⟨hnone, hwho⟩ | ⟨hdevice, hsid, hhash⟩
    · exact .cleared hnone fun _ _ => hid ▸ hwho
    · exact (h.good user huser).congr hid hrole hdevice hsid hhash

theorem Inv.updateUser (h : Inv stale loose s) (userId : String) (dto : UpdateUserDto) (now : Nat)
    (transport : Transport) :
    Inv stale ((Op.updateUser userId dto transport).loosens s ++ loose)
      ((AdminService.updateUser userId dto now transport).prog.run s).2 := by
  have hmono := h.mono (List.Subset.refl stale)
    (List.subset_append_right ((Op.updateUser userId dto transport).loosens s) loose)
  refine hmono.clear (ClearsOnly.updateUser.run s |>.mono ?_)
  rintro _ ⟨hforced, rfl⟩
  exact List.mem_append_left _ (by simp [Op.loosens, hforced])

theorem Inv.approveAllPendingUsers (h : Inv stale loose s) (now : Nat)
    (transports : List Transport) :
    Inv stale ((Op.approveAllPendingUsers transports).loosens s ++ loose)
      ((AdminService.approveAllPendingUsers now transports).prog.run s).2 := by
  have hmono := h.mono (List.Subset.refl stale)
    (List.subset_append_right ((Op.approveAllPendingUsers transports).loosens s) loose)
  apply hmono.clear
  rw [AdminService.approveAllPendingUsers, UsersService.findUsersByStatus,
    Fallible.prog_atomically_bind, Prog.run_act]
  refine (ClearsOnly.approveEach fun user huser => ?_).run s
  have hpending := List.mem_mergeSort.mp (List.mem_of_mem_take huser)
  exact List.mem_append_left _ (List.mem_map_of_mem hpending)

/-! ## The runs -/

theorem Inv.run {w : World} (h : Inv stale loose w.store) (now : Nat) {op : Op}
    (hgenuine : Genuine w op) :
    Inv (op.unseats w.store ++ stale) (op.loosens w.store ++ loose)
      (op.run crypto now w.store) := by
  cases op with
  | register dto id salt => exact h.register dto salt now hgenuine
  | login dto sid salt => exact h.login dto ⟨now, sid, salt⟩
  | refresh token sid salt => exact h.refresh token ⟨now, sid, salt⟩
  | logout userId deviceId => exact h.logout userId deviceId
  | updateUser userId dto transport => exact h.updateUser userId dto now transport
  | updateUserRole userId role => exact h.updateUserRole userId role
  | resetPassword userId dto salt => exact h.resetPassword userId dto salt
  | resetUserDevice userId deviceId => exact h.resetUserDevice userId deviceId
  | approveAllPendingUsers transports => exact h.approveAllPendingUsers now transports
  | deleteUser userId actingAdminId => exact h.deleteUser userId actingAdminId
  | pass ms => exact h

/-- A user who is dropped from a list does not need it. -/
theorem Inv.filter (h : Inv stale loose s) :
    Inv (stale.filter (passes dangles s)) (loose.filter (passes strays s)) s where
  toWellKeyed := h.toWellKeyed
  good := fun user huser =>
    { h.good user huser with
      stale := fun hdangles =>
        List.mem_filter.mpr ⟨(h.good user huser).stale hdangles, passes_of_mem huser hdangles⟩
      loose := fun hrole hstrays =>
        List.mem_filter.mpr ⟨(h.good user huser).loose hrole hstrays, passes_of_mem huser hstrays⟩ }

theorem Inv.step {w w' : World} {op : Op} (h : Inv w.stale w.loose w.store)
    (hgenuine : Genuine w op) (hstep : step crypto w op = some w') :
    Inv w'.stale w'.loose w'.store := by
  obtain rfl := Option.some.inj hstep
  exact (h.run w.now hgenuine).filter

theorem Inv.agreement {w : World} (h : Inv w.stale w.loose w.store) {user : User}
    (huser : user ∈ w.store.users) : Agreement w user := by
  have hgood := h.good user huser
  have hagree : ∀ doc ∈ w.store.sessions, doc.userId = user.id →
      user.activeDeviceId = some doc.deviceId → Agrees user doc := fun doc hdoc hid =>
    hgood.agree doc (mem_sessionsOf.mpr ⟨hdoc, hid⟩)
  have hstored : ¬ dangles user (w.store.sessionsOf user.id) = true → Stored w.store user := by
    intro hdangles deviceId hdevice
    by_contra hnone
    refine hdangles (dangles_eq_true.mpr ⟨deviceId, hdevice, fun doc hdoc heq => hnone ?_⟩)
    obtain ⟨hmem, hid⟩ := mem_sessionsOf.mp hdoc
    exact ⟨doc, hmem, Prod.ext hid heq, hagree doc hmem hid (heq ▸ hdevice)⟩
  refine ⟨hagree, fun hstale => hstored fun hdangles => hstale (hgood.stale hdangles), ?_⟩
  intro hrole hloose
  have hsole : Sole w.store user := by
    intro doc hdoc hid
    by_contra hne
    exact hloose (hgood.loose hrole (strays_eq_true.mpr ⟨doc, mem_sessionsOf.mpr ⟨hdoc, hid⟩, hne⟩))
  refine ⟨hstored fun hdangles => ?_, hsole⟩
  -- There is a document, and it can only be that of the active device.
  obtain ⟨deviceId, hdevice, hnone⟩ := dangles_eq_true.mp hdangles
  obtain ⟨doc, hdoc⟩ := List.exists_mem_of_ne_nil _ (hgood.nonempty (by simp [hdevice]))
  obtain ⟨hmem, hid⟩ := mem_sessionsOf.mp hdoc
  exact hnone doc hdoc (Option.some.inj ((hsole doc hmem hid).symm.trans hdevice))

/-- In every run from a state where nobody is logged in, the copies of a session agree as far
    as `Agreement` says. -/
theorem copies_agree (crypto : Crypto) (users : List User) (hids : Keyed User.id users)
    (hout : ∀ user ∈ users, user.activeDeviceId = none) (ops : List Op)
    (hgenuine : Trace.AllSteps (step crypto) Genuine (World.start users) ops) :
    Trace.AllStates (step crypto) (fun w => ∀ user ∈ w.store.users, Agreement w user)
      (World.start users) ops := by
  have hinv : Trace.AllStates (step crypto) (fun w => Inv w.stale w.loose w.store)
      (World.start users) ops :=
    Trace.allStates_of_allSteps (fun _ _ _ h hgenuine hstep => h.step hgenuine hstep)
      (inv_start hids hout) hgenuine
  refine hinv.mono fun w h => ?_
  intro user huser
  exact h.agreement huser

/-! ## An administrator on two devices -/

def registration : RegisterDto where
  email := resident.email
  password := "password"
  firstName := resident.firstName
  lastName := resident.lastName
  phone := resident.phone
  apartmentNumber := resident.apartmentNumber
  floor := resident.floor

def approval : UpdateUserDto := { UpdateUserDto.empty with status := some .approved }

def administrator : List Op :=
  [.register registration "u1" "salt", .updateUser "u1" approval .notConfigured,
    .updateUserRole "u1" .admin, .login (residentLogin "phone") "s0" "salt",
    .login (residentLogin "tablet") "s1" "salt"]

/-- The administrator logs out of the tablet. -/
def tabletLoggedOut : List Op := administrator ++ [.logout "u1" "tablet"]

/-- The administrator becomes a regular user. -/
def demoted : List Op := administrator ++ [.updateUserRole "u1" .user]

/-- A regular user is archived while logged in. -/
def archived : List Op :=
  [.register registration "u1" "salt", .updateUser "u1" approval .notConfigured,
    .login (residentLogin "phone") "s0" "salt",
    .updateUser "u1" { UpdateUserDto.empty with status := some .archived } .notConfigured]

/-- The copies differ at some point of a run from the empty store. -/
def Differ (ops : List Op) : Prop :=
  Trace.AllSteps (step Crypto.plain) Genuine (World.start []) ops ∧
    ¬ Trace.AllStates (step Crypto.plain) (fun w => Copies w.store) (World.start []) ops

private theorem differ_of_last {ops : List Op}
    (hgenuine : Trace.AllSteps (step Crypto.plain) Genuine (World.start []) ops)
    (hlast : (Trace.exec (step Crypto.plain) (World.start []) ops).any
      (fun w => ¬ Copies w.store) = true) : Differ ops := by
  refine ⟨hgenuine, fun hall => ?_⟩
  obtain ⟨w, hw, hnot⟩ := Option.any_eq_true _ _ |>.mp hlast
  exact of_decide_eq_true hnot (hall.last hw)

/-- The active device of an administrator has no document, and a regular user has documents
    of other devices than the active one. -/
theorem copies_differ : Differ tabletLoggedOut ∧ Differ demoted ∧ Differ archived := by
  refine ⟨?_, ?_, ?_⟩
  · exact differ_of_last (by decide +kernel) (by decide +kernel)
  · exact differ_of_last (by decide +kernel) (by decide +kernel)
  · exact differ_of_last (by decide +kernel) (by decide +kernel)

/-- The administrator goes on after the logout, and is then a regular user again. -/
theorem copies_agree_administrator :
    Trace.AllStates (step Crypto.plain) (fun w => ∀ user ∈ w.store.users, Agreement w user)
      (World.start [resident])
      [.updateUserRole "u1" .admin, .login (residentLogin "phone") "s0" "salt",
        .login (residentLogin "tablet") "s1" "salt", .logout "u1" "tablet",
        .register { registration with email := "neighbour@example.com" } "u2" "salt",
        .updateUserRole "u1" .user, .pass 1000, .login (residentLogin "tablet") "s2" "salt",
        .resetUserDevice "u1" (some "tablet")] :=
  copies_agree Crypto.plain [resident] (by decide) (by decide) _ (by decide +kernel)

end Backend.SessionCopies
