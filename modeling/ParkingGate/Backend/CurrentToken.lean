-- SUMMARY: Sequential runs of the session operations: exactly the current token of a user and device is accepted.
import ParkingGate.Backend.Guards
import ParkingGate.Backend.Outcomes

/-!
# The current token

What decides about a token is the session id in it: every login and refresh draws a new
one, and the upsert by user and device puts it in the place of the old one. The comparison
of the hashes never refuses a token here. A history of what was issued and deleted says
which token of a pair is current; the store follows it, document by document.
-/

namespace Backend.CurrentToken

open AuthService AdminService Collection UsersService

/-! ## What is current -/

/-- The tokens issued together, with the payload both were signed with. -/
structure Issue where
  payload : JwtPayload
  accessToken : String
  refreshToken : String
  deriving DecidableEq

/-- What happens to the sessions of a user. A deletion without a device id is one of all
    the sessions of the user. -/
inductive SessionEvent where
  | issued (issue : Issue)
  | deleted (userId : String) (deviceId : Option String)
  deriving DecidableEq

/-- The sessions a deletion concerns. -/
def deletes (userId : String) (deviceId : Option String) (pair : String × String) : Bool :=
  pair.1 == userId && (!truthy deviceId || deviceId == some pair.2)

/-- The most recent issue for a user and device, unless the session was deleted since. The
    newest event comes first. -/
def current : List SessionEvent → String × String → Option Issue
  | [], _ => none
  | .issued issue :: history, pair =>
    if (issue.payload.sub, issue.payload.deviceId) = pair then some issue else current history pair
  | .deleted userId deviceId :: history, pair =>
    if deletes userId deviceId pair then none else current history pair

/-- Everything issued so far. -/
def issues (history : List SessionEvent) : List Issue :=
  history.filterMap fun
    | .issued issue => some issue
    | .deleted _ _  => none

theorem mem_issues_of_current {history : List SessionEvent} {pair : String × String} {issue : Issue}
    (h : current history pair = some issue) :
    issue ∈ issues history ∧ (issue.payload.sub, issue.payload.deviceId) = pair := by
  induction history with
  | nil => cases h
  | cons event history ih =>
    cases event with
    | issued latest =>
      simp only [current] at h
      split at h
      · rename_i hpair
        obtain rfl := Option.some.inj h
        exact ⟨List.mem_cons_self, hpair⟩
      · exact (ih h).imp_left (List.mem_cons_of_mem latest)
    | deleted userId deviceId =>
      simp only [current] at h
      split at h
      · cases h
      · exact ih h

/-! ## Runs -/

inductive Op where
  | login (dto : LoginDto) (sid salt : String)
  | refresh (token sid salt : String)
  | logout (userId deviceId : String)
  | resetPassword (userId : String) (dto : ResetPasswordDto) (salt : String)
  | resetUserDevice (userId : String) (deviceId : Option String)
  | deleteUser (userId actingAdminId : String)
  | pass (ms : Nat)

/-- The store and the clock, the session ids drawn so far, and the history. -/
structure World where
  store : Store
  now : Nat
  sids : List String
  history : List SessionEvent

/-- A store without sessions. -/
def World.start (users : List User) : World where
  store := { Store.empty with users }
  now := 0
  sids := []
  history := []

section Semantics

variable (crypto : Crypto) (w : World)

/-- A login of a regular user deletes all the sessions of the user first. -/
def afterLogin (dto : LoginDto) (sid salt : String) : World :=
  let out := (login crypto dto ⟨w.now, sid, salt⟩).prog.run w.store
  match out.1 with
  | .ok response =>
    let payload : JwtPayload :=
      { sub := response.user.id, role := response.user.role, deviceId := dto.deviceId, sid }
    let earlier :=
      if response.user.role ≠ .admin then .deleted response.user.id none :: w.history else w.history
    { w with
      store := out.2
      sids := sid :: w.sids
      history := .issued ⟨payload, response.accessToken, response.refreshToken⟩ :: earlier }
  | .error _ => { w with store := out.2, sids := sid :: w.sids }

def afterRefresh (token sid salt : String) : World :=
  let out := (refresh crypto token ⟨w.now, sid, salt⟩).prog.run w.store
  match out.1, crypto.verifyRefresh w.now token with
  | .ok response, some payload =>
    { w with
      store := out.2
      sids := sid :: w.sids
      history :=
        .issued ⟨{ payload with sid }, response.accessToken, response.refreshToken⟩ :: w.history }
  | _, _ => { w with store := out.2, sids := sid :: w.sids }

/-- An operation that deletes sessions if it succeeds. -/
def afterDeletion {α : Type} (p : Db α) (userId : String) (deviceId : Option String) : World :=
  let out := p.prog.run w.store
  match out.1 with
  | .ok _    => { w with store := out.2, history := .deleted userId deviceId :: w.history }
  | .error _ => { w with store := out.2 }

/-- One operation, from its first step to its last. -/
def step : Op → Option World
  | .login dto sid salt                => some (afterLogin crypto w dto sid salt)
  | .refresh token sid salt            => some (afterRefresh crypto w token sid salt)
  | .logout userId deviceId            =>
    some (afterDeletion w (logout userId deviceId) userId (some deviceId))
  | .resetPassword userId dto salt     =>
    some (afterDeletion w (AdminService.resetPassword crypto userId dto salt) userId none)
  | .resetUserDevice userId deviceId   =>
    some (afterDeletion w (resetUserDevice userId deviceId) userId deviceId)
  | .deleteUser userId actingAdminId   =>
    some (afterDeletion w (deleteUser userId actingAdminId) userId none)
  | .pass ms                           => some { w with now := w.now + ms }

/-- A token that verifies under a session id of this run was issued in it. -/
def Unforged (token : String) : Prop :=
  ∀ payload ∈ crypto.verifyRefresh w.now token, payload.sid ∈ w.sids →
    token ∈ (issues w.history).map Issue.refreshToken

/-- Session ids are not drawn twice, and nobody else can sign a token. -/
def Genuine : Op → Prop
  | .login _ sid _       => sid ∉ w.sids
  | .refresh token sid _ => sid ∉ w.sids ∧ Unforged crypto w token
  | .logout ..           => True
  | .resetPassword ..    => True
  | .resetUserDevice ..  => True
  | .deleteUser ..       => True
  | .pass _              => True

instance (token : String) : Decidable (Unforged crypto w token) :=
  inferInstanceAs (Decidable (∀ payload ∈ crypto.verifyRefresh w.now token, _))

instance : ∀ op, Decidable (Genuine crypto w op)
  | .login ..           => inferInstanceAs (Decidable (_ ∉ _))
  | .refresh ..         => inferInstanceAs (Decidable (_ ∧ _))
  | .logout ..          => inferInstanceAs (Decidable True)
  | .resetPassword ..   => inferInstanceAs (Decidable True)
  | .resetUserDevice .. => inferInstanceAs (Decidable True)
  | .deleteUser ..      => inferInstanceAs (Decidable True)
  | .pass _             => inferInstanceAs (Decidable True)

end Semantics

/-! ## Accepting the current token -/

variable {crypto : Crypto}

/-- A verified token is refreshed exactly if it is the current one of its user and device,
    and the access token issued with it, if it is one of a regular user, passes `validate`
    under the same condition. -/
structure AcceptsCurrent (crypto : Crypto) (w : World) : Prop where
  refresh : ∀ token payload, crypto.verifyRefresh w.now token = some payload →
    Unforged crypto w token → ∀ sid salt,
    (((AuthService.refresh crypto token ⟨w.now, sid, salt⟩).prog.run w.store).1.isOk = true ↔
      (current w.history (payload.sub, payload.deviceId)).map Issue.refreshToken = some token)
  validate : ∀ issue ∈ issues w.history, ∀ payload,
    crypto.verifyAccess w.now issue.accessToken = some payload → payload.role = .user →
    (((JwtStrategy.validate payload w.now).prog.run w.store).1.isOk = true ↔
      current w.history (issue.payload.sub, issue.payload.deviceId) = some issue)

/-! ## The invariant -/

/-- The document of an issue. -/
def Fits (crypto : Crypto) (issue : Issue) (doc : Session) : Prop :=
  issue.payload.sid = doc.sessionId ∧ crypto.compare issue.refreshToken doc.refreshTokenHash = true

/-- The two tokens of a payload. -/
def Issue.sign (crypto : Crypto) (now : Nat) (payload : JwtPayload) : Issue :=
  ⟨payload, crypto.signAccess now payload, crypto.signRefresh now payload⟩

/-- What identifies a user in a token. -/
def identity (user : User) : String × UserRole := (user.id, user.role)

/-- The sessions in the store are those of the current issues. -/
structure Inv (crypto : Crypto) (users : List User) (w : World) : Prop where
  keyed : Keyed Session.key w.store.sessions
  /-- Users are deleted, and nothing else happens to their ids and roles. -/
  identities : (w.store.users.map identity).Sublist (users.map identity)
  owners : ∀ doc ∈ w.store.sessions, doc.userId ∈ w.store.users.map User.id
  signed : ∀ issue ∈ issues w.history, issue.payload.sid ∈ w.sids ∧
    (issue.payload.sub, issue.payload.role) ∈ users.map identity ∧
    ∃ now, issue = Issue.sign crypto now issue.payload
  distinct : ∀ i ∈ issues w.history, ∀ j ∈ issues w.history,
    i.payload.sid = j.payload.sid → i = j
  documents : ∀ doc ∈ w.store.sessions, ∃ issue, current w.history doc.key = some issue ∧
    Fits crypto issue doc
  stored : ∀ pair issue, current w.history pair = some issue →
    ∃ doc ∈ w.store.sessions, doc.key = pair

variable {users : List User} {w : World}

theorem inv_start (users : List User) : Inv crypto users (World.start users) where
  keyed := List.nodup_nil
  identities := List.Sublist.refl _
  owners := fun _ hdoc => absurd hdoc List.not_mem_nil
  signed := fun _ hissue => absurd hissue List.not_mem_nil
  distinct := fun _ hissue => absurd hissue List.not_mem_nil
  documents := fun _ hdoc => absurd hdoc List.not_mem_nil
  stored := fun _ _ hcurrent => nomatch hcurrent

/-- The clock, new session ids and the rest of the store do not matter. -/
theorem Inv.with_sids (h : Inv crypto users w) {sids : List String} {now : Nat}
    (hsids : ∀ sid ∈ w.sids, sid ∈ sids) :
    Inv crypto users { w with now := now, sids := sids } where
  keyed := h.keyed
  identities := h.identities
  owners := h.owners
  signed := fun issue hissue => (h.signed issue hissue).imp_left (hsids _)
  distinct := h.distinct
  documents := h.documents
  stored := h.stored

/-- A change of the users that keeps the owners of the sessions. -/
theorem Inv.with_users (h : Inv crypto users w) {users' : List User} {outbox : List Mail}
    (hidentities : (users'.map identity).Sublist (w.store.users.map identity))
    (howners : ∀ doc ∈ w.store.sessions, doc.userId ∈ users'.map User.id) :
    Inv crypto users { w with store := { w.store with users := users', outbox := outbox } } where
  keyed := h.keyed
  identities := hidentities.trans h.identities
  owners := howners
  signed := h.signed
  distinct := h.distinct
  documents := h.documents
  stored := h.stored

theorem Inv.modifyUser (h : Inv crypto users w) {userId : String} {f : User → User}
    (hf : ∀ user, identity (f user) = identity user) :
    Inv crypto users { w with store := w.store.modifyUser userId f } := by
  have hids : ∀ user, (f user).id = user.id := fun user => congrArg Prod.fst (hf user)
  refine h.with_users ?_ ?_
  · rw [map_updateOne hf]
  · rw [map_updateOne hids]
    exact h.owners

/-- A deletion, in the store and in the history. -/
theorem Inv.delete (h : Inv crypto users w) (userId : String) (deviceId : Option String) :
    Inv crypto users { w with
      store := w.store.dropSession userId deviceId
      history := .deleted userId deviceId :: w.history } where
  keyed := h.keyed.deleteMany
  identities := h.identities
  owners := fun doc hdoc => h.owners doc (mem_deleteMany.mp hdoc).1
  signed := h.signed
  distinct := h.distinct
  documents := by
    intro doc hdoc
    obtain ⟨hdoc, hkept⟩ := mem_deleteMany.mp hdoc
    obtain ⟨issue, hcurrent, hfits⟩ := h.documents doc hdoc
    have hnot : ¬ deletes userId deviceId doc.key = true := Bool.eq_false_iff.mp hkept
    exact ⟨issue, (if_neg hnot).trans hcurrent, hfits⟩
  stored := by
    intro pair issue hcurrent
    simp only [current] at hcurrent
    split at hcurrent
    · cases hcurrent
    · rename_i hkept
      obtain ⟨doc, hdoc, rfl⟩ := h.stored pair issue hcurrent
      exact ⟨doc, mem_deleteMany.mpr ⟨hdoc, Bool.eq_false_iff.mpr hkept⟩, rfl⟩

/-- A new issue, in the store and in the history. -/
theorem Inv.issue (h : Inv crypto users w) {doc : Session} {payload : JwtPayload} (now : Nat)
    (hfresh : payload.sid ∉ w.sids) (hkey : (payload.sub, payload.deviceId) = doc.key)
    (hfits : Fits crypto (Issue.sign crypto now payload) doc)
    (howner : doc.userId ∈ w.store.users.map User.id)
    (hrole : (payload.sub, payload.role) ∈ users.map identity) :
    Inv crypto users { w with
      store := doc.open w.store
      sids := payload.sid :: w.sids
      history := .issued (Issue.sign crypto now payload) :: w.history } := by
  let issue := Issue.sign crypto now payload
  have hissues : issues (.issued issue :: w.history) = issue :: issues w.history := rfl
  have hold : ∀ i ∈ issues w.history, i.payload.sid ≠ payload.sid := fun i hi heq =>
    hfresh (heq ▸ (h.signed i hi).1)
  have hput : Inv crypto users { w with
      store := doc.put w.store
      sids := payload.sid :: w.sids
      history := .issued issue :: w.history } := by
    refine ⟨Session.keyed_put h.keyed, h.identities, ?_, ?_, ?_, ?_, ?_⟩
    · intro d hd
      rcases Session.of_mem_put hd with rfl | hd
      · exact howner
      · exact h.owners d hd
    · intro i hi
      rw [hissues] at hi
      rcases List.mem_cons.mp hi with rfl | hi
      · exact ⟨List.mem_cons_self, hrole, now, rfl⟩
      · exact (h.signed i hi).imp_left (List.mem_cons_of_mem _)
    · intro i hi j hj heq
      rw [hissues] at hi hj
      rcases List.mem_cons.mp hi with rfl | hi' <;> rcases List.mem_cons.mp hj with rfl | hj'
      · rfl
      · exact absurd heq.symm (hold j hj')
      · exact absurd heq (hold i hi')
      · exact h.distinct i hi' j hj' heq
    · intro d hd
      rcases (Keyed.mem_upsert h.keyed).mp hd with rfl | ⟨hd, hne⟩
      · exact ⟨issue, if_pos hkey, hfits⟩
      · obtain ⟨i, hcurrent, hi⟩ := h.documents d hd
        exact ⟨i, (if_neg fun heq => hne (heq.symm.trans hkey)).trans hcurrent, hi⟩
    · intro pair i hcurrent
      simp only [current] at hcurrent
      split at hcurrent
      · rename_i hpair
        exact ⟨doc, Session.mem_put_self, hkey.symm.trans hpair⟩
      · rename_i hpair
        obtain ⟨d, hd, rfl⟩ := h.stored pair i hcurrent
        exact ⟨d, Session.mem_put_of_key_ne hd fun heq => hpair (hkey.trans heq.symm), rfl⟩
  exact hput.modifyUser fun _ => rfl

/-! ## Every operation keeps it -/

theorem Inv.identity_mem (h : Inv crypto users w) {user : User} (hu : user ∈ w.store.users) :
    identity user ∈ users.map identity :=
  h.identities.subset (List.mem_map_of_mem hu)

/-- A user has one role. -/
theorem role_eq (hids : Keyed User.id users) {id : String} {role role' : UserRole}
    (h : (id, role) ∈ users.map identity) (h' : (id, role') ∈ users.map identity) :
    role = role' := by
  obtain ⟨user, hu, heq⟩ := List.mem_map.mp h
  obtain ⟨user', hu', heq'⟩ := List.mem_map.mp h'
  have hid : user.id = user'.id := (congrArg Prod.fst heq).trans (congrArg Prod.fst heq').symm
  obtain rfl := hids.eq_of_key hu hu' hid
  exact congrArg Prod.snd (heq.symm.trans heq')

theorem Inv.login (hcompare : ∀ salt text, crypto.compare text (crypto.hash salt text) = true)
    (h : Inv crypto users w) (dto : LoginDto) {sid : String} (salt : String) (hfresh : sid ∉ w.sids) :
    Inv crypto users (afterLogin crypto w dto sid salt) := by
  have hsettles := login_settles crypto dto ⟨w.now, sid, salt⟩ w.store
  unfold afterLogin
  cases hout : ((AuthService.login crypto dto ⟨w.now, sid, salt⟩).prog.run w.store).1 with
  | error e =>
    simp only [hout, hsettles.of_error hout]
    exact h.with_sids fun _ => List.mem_cons_of_mem sid
  | ok response =>
    obtain ⟨user, hfind, -, hresponse, hstore⟩ := hsettles.of_ok hout
    obtain rfl : response = loginResponse crypto dto ⟨w.now, sid, salt⟩ user := hresponse
    simp only [hout, hstore]
    -- The sessions of a regular user are deleted first.
    have hdeleted : Inv crypto users { w with
        store := if user.role ≠ .admin then w.store.clearSessions user.id else w.store
        history := if user.role ≠ .admin then .deleted user.id none :: w.history else w.history } := by
      split
      · have hdelete := h.delete user.id none
        rw [dropSession_of_not_truthy _ (by decide)] at hdelete
        exact hdelete
      · exact h
    have howner : user.id ∈ (if user.role ≠ .admin then w.store.clearSessions user.id
        else w.store).users.map User.id := by
      have hmem : user.id ∈ w.store.users.map User.id :=
        List.mem_map_of_mem (List.mem_of_find?_eq_some hfind)
      split <;> exact hmem
    let payload : JwtPayload := { sub := user.id, role := user.role, deviceId := dto.deviceId, sid }
    have hfits : Fits crypto (Issue.sign crypto w.now payload)
        (opened crypto dto ⟨w.now, sid, salt⟩ user) := ⟨rfl, hcompare _ _⟩
    exact hdeleted.issue w.now hfresh rfl hfits howner
      (h.identity_mem (List.mem_of_find?_eq_some hfind))

/-- A verified token under a session id of the run is the one that was issued with it. -/
theorem Inv.issue_of_token (hcrypto : crypto.Lawful) (h : Inv crypto users w) {token : String}
    {payload : JwtPayload} (hverify : crypto.verifyRefresh w.now token = some payload)
    (hunforged : Unforged crypto w token) (hsid : payload.sid ∈ w.sids) :
    ∃ issue ∈ issues w.history, issue.refreshToken = token ∧ issue.payload = payload := by
  obtain ⟨issue, hissue, htoken⟩ := List.mem_map.mp (hunforged payload hverify hsid)
  obtain ⟨-, -, now, hsign⟩ := h.signed issue hissue
  have hpayload : payload = issue.payload := by
    rw [← htoken, hsign] at hverify
    exact hcrypto.refresh_payload hverify
  exact ⟨issue, hissue, htoken, hpayload.symm⟩

theorem Inv.user_of_accepts (h : Inv crypto users w) {token : String} {payload : JwtPayload}
    (hacc : accepts crypto token payload w.store = true) :
    (w.store.users.find? (·.id == payload.sub)).isSome := by
  obtain ⟨doc, hdoc, -, huser, -⟩ := of_accepts hacc
  obtain ⟨user, hmem, hid⟩ := List.mem_map.mp (huser ▸ h.owners doc hdoc)
  exact List.find?_isSome.mpr ⟨user, hmem, by simp [hid]⟩

theorem Inv.refresh (hcrypto : crypto.Lawful)
    (hcompare : ∀ salt text, crypto.compare text (crypto.hash salt text) = true)
    (hids : Keyed User.id users) (h : Inv crypto users w) {token sid : String} (salt : String)
    (hfresh : sid ∉ w.sids) (hunforged : Unforged crypto w token) :
    Inv crypto users (afterRefresh crypto w token sid salt) := by
  have hsids : ∀ s ∈ w.sids, s ∈ sid :: w.sids := fun _ => List.mem_cons_of_mem sid
  unfold afterRefresh
  cases hverify : crypto.verifyRefresh w.now token with
  | none =>
    obtain ⟨e, he⟩ := refresh_prog_of_invalid ⟨w.now, sid, salt⟩ hverify
    simp only [he, Prog.run_ret]
    exact h.with_sids hsids
  | some payload =>
    have hverify : crypto.verifyRefresh (Draw.mk w.now sid salt).now token = some payload := hverify
    have hsettles := refresh_settles hverify h.user_of_accepts
    cases hout : ((AuthService.refresh crypto token ⟨w.now, sid, salt⟩).prog.run w.store).1 with
    | error e =>
      simp only [hout, hsettles.of_error hout]
      exact h.with_sids hsids
    | ok response =>
      obtain ⟨hacc, ⟨user, hfind, hresponse⟩, hstore⟩ := hsettles.of_ok hout
      obtain ⟨doc, hdoc, hsid, -⟩ := of_accepts hacc
      obtain ⟨issue, hcurrent, hfits⟩ := h.documents doc hdoc
      have hdrawn : payload.sid ∈ w.sids := by
        rw [← hsid, ← hfits.1]
        exact (h.signed issue (mem_issues_of_current hcurrent).1).1
      obtain ⟨old, hold, -, rfl⟩ := h.issue_of_token hcrypto hverify hunforged hdrawn
      have hmem := List.mem_of_find?_eq_some hfind
      have hid : user.id = old.payload.sub := by simpa using List.find?_some hfind
      -- The access token takes the role of the user, the refresh token that of the old one.
      have hrole : user.role = old.payload.role :=
        role_eq hids (hid ▸ h.identity_mem hmem) (h.signed old hold).2.1
      simp only [hout, hstore, hresponse, refreshed, buildAccessToken, buildRefreshToken, hid, hrole]
      have hfits : Fits crypto (Issue.sign crypto w.now { old.payload with sid })
          (rotated crypto old.payload ⟨w.now, sid, salt⟩) := ⟨rfl, hcompare _ _⟩
      exact h.issue w.now hfresh rfl hfits (List.mem_map.mpr ⟨user, hmem, hid⟩)
        (h.signed old hold).2.1

theorem Inv.deletion {α : Type} {p : Db α} {Q : α → Store → Prop} {userId : String}
    {deviceId : Option String} (h : Inv crypto users w) (hsettles : p.Settles w.store Q)
    (hdeleted : ∀ a s', Q a s' → Inv crypto users { w with
      store := s', history := .deleted userId deviceId :: w.history }) :
    Inv crypto users (afterDeletion w p userId deviceId) := by
  unfold afterDeletion
  cases hout : (p.prog.run w.store).1 with
  | error e =>
    simp only [hout, hsettles.of_error hout]
    exact h
  | ok a =>
    simp only [hout]
    exact hdeleted a _ (hsettles.of_ok hout)

theorem Inv.logout (h : Inv crypto users w) (userId deviceId : String) :
    Inv crypto users (afterDeletion w (logout userId deviceId) userId (some deviceId)) := by
  apply h.deletion (logout_settles userId deviceId w.store)
  rintro _ s' ⟨user, -, -, rfl⟩
  have hdelete := h.delete userId (some deviceId)
  unfold afterLogout
  split
  · exact hdelete.modifyUser fun _ => rfl
  · exact hdelete

theorem Inv.resetPassword (h : Inv crypto users w) (userId : String) (dto : ResetPasswordDto)
    (salt : String) :
    Inv crypto users
      (afterDeletion w (AdminService.resetPassword crypto userId dto salt) userId none) := by
  apply h.deletion (resetPassword_settles crypto userId dto salt w.store)
  rintro _ s' ⟨-, rfl⟩
  have hupdated : Inv crypto users { w with
      store := w.store.modifyUser userId fun user =>
        { user with passwordHash := crypto.hash salt dto.newPassword } } :=
    h.modifyUser fun _ => rfl
  have hdelete := hupdated.delete userId none
  rw [dropSession_of_not_truthy _ (by decide)] at hdelete
  exact hdelete.modifyUser fun _ => rfl

theorem Inv.resetUserDevice (h : Inv crypto users w) (userId : String) (deviceId : Option String) :
    Inv crypto users (afterDeletion w (resetUserDevice userId deviceId) userId deviceId) := by
  apply h.deletion (resetUserDevice_settles userId deviceId w.store)
  rintro _ s' rfl
  have hdelete := h.delete userId deviceId
  unfold afterReset
  split
  · exact hdelete.modifyUser fun _ => rfl
  · exact hdelete

theorem Inv.deleteUser (h : Inv crypto users w) (userId actingAdminId : String) :
    Inv crypto users (afterDeletion w (deleteUser userId actingAdminId) userId none) := by
  apply h.deletion (deleteUser_settles userId actingAdminId w.store)
  rintro _ s' rfl
  have hdelete := h.delete userId none
  rw [dropSession_of_not_truthy _ (by decide)] at hdelete
  refine hdelete.with_users (List.eraseP_sublist.map identity) fun doc hdoc => ?_
  -- The owner of a session that is left is another user.
  have hother : doc.userId ≠ userId := (Session.mem_clearSessions.mp hdoc).2
  obtain ⟨user, hmem, hid⟩ := List.mem_map.mp (hdelete.owners doc hdoc)
  refine List.mem_map.mpr ⟨user, ?_, hid⟩
  exact (List.mem_eraseP_of_neg (by simpa [hid] using hother)).mpr hmem

theorem Inv.step (hcrypto : crypto.Lawful)
    (hcompare : ∀ salt text, crypto.compare text (crypto.hash salt text) = true)
    (hids : Keyed User.id users) (h : Inv crypto users w) {op : Op} {w' : World}
    (hgenuine : Genuine crypto w op) (hstep : step crypto w op = some w') : Inv crypto users w' := by
  cases op with
  | login dto sid salt =>
    obtain rfl := Option.some.inj hstep
    exact h.login hcompare dto salt hgenuine
  | refresh token sid salt =>
    obtain rfl := Option.some.inj hstep
    exact h.refresh hcrypto hcompare hids salt hgenuine.1 hgenuine.2
  | logout userId deviceId =>
    obtain rfl := Option.some.inj hstep
    exact h.logout userId deviceId
  | resetPassword userId dto salt =>
    obtain rfl := Option.some.inj hstep
    exact h.resetPassword userId dto salt
  | resetUserDevice userId deviceId =>
    obtain rfl := Option.some.inj hstep
    exact h.resetUserDevice userId deviceId
  | deleteUser userId actingAdminId =>
    obtain rfl := Option.some.inj hstep
    exact h.deleteUser userId actingAdminId
  | pass ms =>
    obtain rfl := Option.some.inj hstep
    exact h.with_sids fun _ => id

/-! ## Acceptance -/

/-- A document under the session id of an issue is the one of that issue, and the issue is
    current. -/
theorem Inv.document (h : Inv crypto users w) {issue : Issue} (hissue : issue ∈ issues w.history)
    {doc : Session} (hdoc : doc ∈ w.store.sessions) (hsid : doc.sessionId = issue.payload.sid) :
    current w.history doc.key = some issue ∧ Fits crypto issue doc := by
  obtain ⟨i, hcurrent, hfits⟩ := h.documents doc hdoc
  have hi := (mem_issues_of_current hcurrent).1
  obtain rfl := h.distinct i hi issue hissue (hfits.1.trans hsid)
  exact ⟨hcurrent, hfits⟩

/-- The lookup by the session id of an issue finds a document of its pair exactly if the
    issue is current. -/
theorem Inv.lookup_iff (h : Inv crypto users w) {issue : Issue} (hissue : issue ∈ issues w.history) :
    (∃ doc, w.store.sessions.find? (·.sessionId == issue.payload.sid) = some doc ∧
      doc.key = (issue.payload.sub, issue.payload.deviceId) ∧ Fits crypto issue doc) ↔
      current w.history (issue.payload.sub, issue.payload.deviceId) = some issue := by
  constructor
  · rintro ⟨doc, hfind, hkey, -⟩
    have hsid : doc.sessionId = issue.payload.sid := by simpa using List.find?_some hfind
    exact hkey ▸ (h.document hissue (List.mem_of_find?_eq_some hfind) hsid).1
  · intro hcurrent
    obtain ⟨stored, hstored, hkey⟩ := h.stored _ _ hcurrent
    have hsome : (w.store.sessions.find? (·.sessionId == issue.payload.sid)).isSome := by
      obtain ⟨i, hi, hfits⟩ := h.documents stored hstored
      obtain rfl := Option.some.inj (hi.symm.trans (hkey ▸ hcurrent))
      exact List.find?_isSome.mpr ⟨stored, hstored, by simp [hfits.1]⟩
    obtain ⟨doc, hfind⟩ := Option.isSome_iff_exists.mp hsome
    have hsid : doc.sessionId = issue.payload.sid := by simpa using List.find?_some hfind
    obtain ⟨hcurrent', hfits⟩ := h.document hissue (List.mem_of_find?_eq_some hfind) hsid
    exact ⟨doc, hfind, (mem_issues_of_current hcurrent').2.symm, hfits⟩

theorem Inv.accepts_iff (hcrypto : crypto.Lawful) (h : Inv crypto users w) {token : String}
    {payload : JwtPayload} (hverify : crypto.verifyRefresh w.now token = some payload)
    (hunforged : Unforged crypto w token) :
    accepts crypto token payload w.store = true ↔
      (current w.history (payload.sub, payload.deviceId)).map Issue.refreshToken = some token := by
  constructor
  · intro hacc
    obtain ⟨doc, hdoc, hsid, huser, hdevice, -⟩ := of_accepts hacc
    obtain ⟨latest, hlatest, hfits⟩ := h.documents doc hdoc
    have hdrawn : payload.sid ∈ w.sids := by
      rw [← hsid, ← hfits.1]
      exact (h.signed latest (mem_issues_of_current hlatest).1).1
    obtain ⟨issue, hissue, rfl, rfl⟩ := h.issue_of_token hcrypto hverify hunforged hdrawn
    have hkey : doc.key = (issue.payload.sub, issue.payload.deviceId) := Prod.ext huser hdevice
    rw [← hkey, (h.document hissue hdoc hsid).1]
    rfl
  · intro htoken
    obtain ⟨issue, hcurrent, rfl⟩ := Option.map_eq_some_iff.mp htoken
    obtain ⟨hissue, hpair⟩ := mem_issues_of_current hcurrent
    obtain ⟨-, -, now, hsign⟩ := h.signed issue hissue
    obtain rfl : payload = issue.payload := by
      rw [hsign] at hverify
      exact hcrypto.refresh_payload hverify
    obtain ⟨doc, hfind, hkey, hfits⟩ := (h.lookup_iff hissue).mpr hcurrent
    have huser : doc.userId = issue.payload.sub := congrArg Prod.fst hkey
    have hdevice : doc.deviceId = issue.payload.deviceId := congrArg Prod.snd hkey
    simp [accepts, hfind, huser, hdevice, hfits.2]

theorem Inv.refresh_iff (hcrypto : crypto.Lawful) (h : Inv crypto users w) {token : String}
    {payload : JwtPayload} (hverify : crypto.verifyRefresh w.now token = some payload)
    (hunforged : Unforged crypto w token) (sid salt : String) :
    ((AuthService.refresh crypto token ⟨w.now, sid, salt⟩).prog.run w.store).1.isOk = true ↔
      (current w.history (payload.sub, payload.deviceId)).map Issue.refreshToken = some token := by
  rw [← h.accepts_iff hcrypto hverify hunforged]
  cases hacc : accepts crypto token payload w.store with
  | false =>
    obtain ⟨e, he⟩ := refresh_run_refused ⟨w.now, sid, salt⟩ hverify hacc
    simp [he, Except.isOk, Except.toBool]
  | true =>
    obtain ⟨user, hfind⟩ := Option.isSome_iff_exists.mp (h.user_of_accepts hacc)
    have hverify : crypto.verifyRefresh (Draw.mk w.now sid salt).now token = some payload := hverify
    rw [refresh_run_accepted hverify hacc hfind]
    rfl

theorem Inv.validate_iff (hcrypto : crypto.Lawful) (h : Inv crypto users w) {issue : Issue}
    (hissue : issue ∈ issues w.history) {payload : JwtPayload}
    (hverify : crypto.verifyAccess w.now issue.accessToken = some payload)
    (hrole : payload.role = .user) :
    ((JwtStrategy.validate payload w.now).prog.run w.store).1.isOk = true ↔
      current w.history (issue.payload.sub, issue.payload.deviceId) = some issue := by
  obtain ⟨-, -, now, hsign⟩ := h.signed issue hissue
  obtain rfl : payload = issue.payload := by
    rw [hsign] at hverify
    exact hcrypto.access_payload hverify
  rw [JwtStrategy.validate_isOk_iff (by simp [hrole]), ← h.lookup_iff hissue]
  constructor
  · rintro ⟨-, doc, hfind, huser, hdevice⟩
    have hsid : doc.sessionId = issue.payload.sid := by simpa using List.find?_some hfind
    have hdoc := List.mem_of_find?_eq_some hfind
    exact ⟨doc, hfind, Prod.ext huser hdevice, (h.document hissue hdoc hsid).2⟩
  · rintro ⟨doc, hfind, hkey, -⟩
    have huser : doc.userId = issue.payload.sub := congrArg Prod.fst hkey
    obtain ⟨user, hmem, hid⟩ :=
      List.mem_map.mp (h.owners doc (List.mem_of_find?_eq_some hfind))
    exact ⟨List.find?_isSome.mpr ⟨user, hmem, by simp [hid, huser]⟩, doc, hfind, huser,
      congrArg Prod.snd hkey⟩

/-- In every sequential run from a store without sessions, exactly the current token of a
    user and device is accepted. -/
theorem accepts_current (hcrypto : crypto.Lawful)
    (hcompare : ∀ salt text, crypto.compare text (crypto.hash salt text) = true)
    (users : List User) (hids : Keyed User.id users) (ops : List Op)
    (hgenuine : Trace.AllSteps (step crypto) (Genuine crypto) (World.start users) ops) :
    Trace.AllStates (step crypto) (AcceptsCurrent crypto) (World.start users) ops := by
  have hinv : Trace.AllStates (step crypto) (Inv crypto users) (World.start users) ops :=
    Trace.allStates_of_allSteps
      (fun _ _ _ h hgenuine hstep => h.step hcrypto hcompare hids hgenuine hstep)
      (inv_start users) hgenuine
  refine hinv.mono fun w h => ⟨fun token payload hverify hunforged sid salt => ?_, ?_⟩
  · exact h.refresh_iff hcrypto hverify hunforged sid salt
  · exact fun issue hissue payload hverify hrole => h.validate_iff hcrypto hissue hverify hrole

/-! ## The resident changes the phone for a tablet -/

/-- Hashes that see the first 72 characters of a text, as `bcrypt` does. -/
def truncating : Crypto :=
  { Crypto.plain with
    hash := fun salt text => salt ++ "$" ++ String.ofList (text.toList.take 72)
    compare := fun text hashed => decide ('$' :: text.toList.take 72 <:+ hashed.toList) }

theorem truncating_lawful : truncating.Lawful where
  access_payload h := by
    simpa [truncating, Crypto.plain, Crypto.plainPayload_plainToken, eq_comm] using h
  refresh_payload h := by
    simpa [truncating, Crypto.plain, Crypto.plainPayload_plainToken, eq_comm] using h
  access_earlier := Crypto.plain_lawful.access_earlier
  refresh_earlier := Crypto.plain_lawful.refresh_earlier

theorem truncating_compare (salt text : String) :
    truncating.compare text (truncating.hash salt text) = true := by
  refine decide_eq_true ⟨salt.toList, ?_⟩
  simp [truncating]

/-- The old token is tried again after the refresh, and once more after the logout. -/
theorem accepts_current_resident :
    Trace.AllStates (step truncating) (AcceptsCurrent truncating) (World.start [resident])
      [.login (residentLogin "phone") "s0" "salt", .refresh phoneToken "s1" "salt",
        .refresh phoneToken "s2" "salt", .logout resident.id "phone",
        .login (residentLogin "tablet") "s3" "salt", .refresh phoneToken "s4" "salt", .pass 1000,
        .resetUserDevice resident.id none] :=
  accepts_current truncating_lawful truncating_compare [resident] (by decide) _ (by decide +kernel)

end Backend.CurrentToken
