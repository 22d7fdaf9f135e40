-- SUMMARY: Sequential runs of the backend: when a demoted administrator is kept out of the admin API.
import ParkingGate.Backend.ForcedLogout
import ParkingGate.Backend.StoreFrames
import ParkingGate.Backend.UserFrames

/-!
# Demotion

An access token carries the role its user had when it was issued, and the guards of the
admin API read the role from the token. `login` and `refresh` issue tokens with the role in
the database, so a demotion takes effect at once exactly if no unexpired access token of the
user carries the admin role when it happens.
-/

namespace Backend.Demotion

open AuthService AdminService Collection UsersService
open ForcedLogout (Op Request)

/-! ## The guards -/

/-- The chain of guards of `AdminController`. -/
def adminGuarded (crypto : Crypto) (accessToken : String) (now : Nat) : Db Bool := do
  let authUser ← JwtStrategy.authenticate crypto accessToken now
  let _ ← ApprovedGuard.canActivate authUser
  match AdminGuard.canActivate authUser with
  | .ok allowed => return allowed
  | .error e    => throw e

section Guards

variable {crypto : Crypto} {token : String} {payload : JwtPayload} {now : Nat}

/-- What `validate` puts on the request carries the role of the token. -/
theorem authenticate_role (hverify : crypto.verifyAccess now token = some payload) :
    Fallible.Triple (fun _ => True) (JwtStrategy.authenticate crypto token now)
      (fun authUser _ => authUser.role = payload.role) fun _ => True := by
  simp only [JwtStrategy.authenticate, hverify]
  refine .bind (Q := fun _ _ => True) (.atomically fun _ => id) fun found =>
    .guard (fun _ => id) fun _ => ?_
  refine .bind (Q := fun _ _ => True) (.atomically fun _ => id) fun session => ?_
  dsimp only
  split
  · cases session with
    | none => exact .throw fun _ _ => trivial
    | some session =>
      refine .guard (fun _ => id) fun _ => .guard (fun _ => id) fun _ => ?_
      exact .bind (Q := fun _ _ => True) (.atomically fun _ => id) fun _ => .pure fun _ _ => rfl
  · exact .pure fun _ _ => rfl

/-- A token without the admin role does not pass. -/
theorem adminGuarded_refuses (hverify : crypto.verifyAccess now token = some payload)
    (hrole : payload.role ≠ .admin) (s : Store) :
    ∃ e, ((adminGuarded crypto token now).prog.run s).1 = .error e := by
  have hnever : Fallible.Triple (fun _ => True) (adminGuarded crypto token now)
      (fun _ _ => False) fun _ => True := by
    refine .bind (authenticate_role hverify) fun authUser => ?_
    refine (Fallible.Triple.assume (P := fun _ => True) fun hsame => ?_).conseq
      (fun _ h => ⟨h, trivial⟩) (fun _ _ => id) fun _ => id
    have hguard : AdminGuard.canActivate authUser = .error (.forbidden "גישה מוגבלת לאדמין בלבד") :=
      if_pos (hsame ▸ hrole)
    refine .bind (Q := fun _ _ => True) (fun s _ => by split <;> trivial) fun _ => ?_
    rw [hguard]
    exact .throw fun _ _ => trivial
  have hrun := hnever s trivial
  revert hrun
  match (adminGuarded crypto token now).prog.run s with
  | (.ok _, _)    => exact False.elim
  | (.error e, _) => exact fun _ => ⟨e, rfl⟩

/-- A token with the admin role passes as long as its user exists. -/
theorem adminGuarded_passes (hverify : crypto.verifyAccess now token = some payload)
    (hrole : payload.role = .admin) {s : Store}
    (huser : (s.users.find? (·.id == payload.sub)).isSome = true) :
    ((adminGuarded crypto token now).prog.run s).1 = .ok true := by
  obtain ⟨user, hfind⟩ := Option.isSome_iff_exists.mp huser
  have hvalid : (JwtStrategy.authenticate crypto token now).prog.run s =
      (.ok ⟨payload.sub, .admin, payload.deviceId, payload.sid⟩, s) := by
    simp only [JwtStrategy.authenticate, hverify]
    exact JwtStrategy.validate_run_admin now hrole huser
  have hallow : (ApprovedGuard.canActivate
      ⟨payload.sub, .admin, payload.deviceId, payload.sid⟩).prog.run s = (.ok true, s) := by
    simp only [ApprovedGuard.canActivate, findById, Fallible.prog_atomically_bind, Prog.run_act,
      hfind, true_or, if_true]
    rfl
  rw [adminGuarded, Fallible.prog_bind, Prog.run_bind, hvalid]
  dsimp only
  rw [Fallible.prog_bind, Prog.run_bind, hallow]
  rfl

end Guards

/-! ## Runs -/

/-- The store and the clock, the access tokens issued so far, and the users who have been
    demoted and not made administrators again. -/
structure World where
  store : Store
  now : Nat
  accessTokens : List String
  demoted : List String

def World.start (users : List User) : World where
  store := { Store.empty with users }
  now := 0
  accessTokens := []
  demoted := []

section Semantics

variable (crypto : Crypto) (w : World)

/-- A call that returns an access token when it succeeds. -/
def afterIssue {α : Type} (accessToken : α → String) (p : Db α) : World :=
  let out := p.prog.run w.store
  match out.1 with
  | .ok response =>
    { w with store := out.2, accessTokens := accessToken response :: w.accessTokens }
  | .error _ => { w with store := out.2 }

def afterRole (userId : String) (role : UserRole) : World :=
  let out := (AdminService.updateUserRole userId role).prog.run w.store
  match out.1 with
  | .ok _ =>
    { w with
      store := out.2
      demoted :=
        if role = .user then userId :: w.demoted else w.demoted.filter (· ≠ userId) }
  | .error _ => { w with store := out.2 }

def step : Op → Option World
  | .login dto sid salt                    =>
    some (afterIssue w AuthUserResponse.accessToken (login crypto dto ⟨w.now, sid, salt⟩))
  | .refresh token sid salt                =>
    some (afterIssue w RefreshResponse.accessToken (refresh crypto token ⟨w.now, sid, salt⟩))
  | .updateUser userId dto transport       =>
    some { w with
      store := ((AdminService.updateUser userId dto w.now transport).prog.run w.store).2 }
  | .request (.updateUserRole userId role) => some (afterRole w userId role)
  | .request r                             =>
    some { w with store := ((r.program crypto w.now).prog.run w.store).2 }
  | .pass ms                               => some { w with now := w.now + ms }

/-! ## No admin access, and the steps that allow it -/

/-- No access token of a user who is demoted passes the guards of the admin API. -/
def NoAdminAccess : Prop :=
  ∀ u ∈ w.demoted, ∀ token ∈ w.accessTokens, ∀ payload,
    crypto.verifyAccess w.now token = some payload → payload.sub = u →
      ∃ e, ((adminGuarded crypto token w.now).prog.run w.store).1 = .error e

/-- No unexpired access token of the user carries the admin role. -/
def Unprivileged (u : String) : Prop :=
  ∀ token ∈ w.accessTokens, ∀ payload ∈ crypto.verifyAccess w.now token,
    payload.sub = u → payload.role ≠ .admin

instance (u : String) : Decidable (Unprivileged crypto w u) :=
  inferInstanceAs (Decidable (∀ token ∈ w.accessTokens, _))

/-- The condition on a step: a user who is demoted holds no token with the admin role. -/
def Timely : Op → Prop
  | .request (.updateUserRole userId role) =>
    role = .user → (w.store.users.find? (·.id == userId)).isSome = true →
      Unprivileged crypto w userId
  | _ => True

/-- The `_id` that a registration draws is not in use. -/
def Genuine : Op → Prop
  | .request (.register _ id _) => id ∉ w.store.users.map User.id
  | _                           => True

instance (op : Op) : Decidable (Timely crypto w op) := by
  unfold Timely
  split <;> infer_instance

instance (op : Op) : Decidable (Genuine w op) := by
  unfold Genuine
  split <;> infer_instance

end Semantics

/-! ## The roles in the database -/

/-- The listed users have the role of a regular user. -/
structure Regular (ids : List String) (s : Store) : Prop where
  keyed : Keyed User.id s.users
  users : ∀ user ∈ s.users, user.id ∈ ids → user.role = .user

/-- The role is the same. -/
def SameRole (user user' : User) : Prop := user'.role = user.role

theorem permits_sameRole : Permits SameRole :=
  ⟨fun _ => rfl, fun _ => rfl, fun _ => rfl, fun _ _ _ _ _ _ => rfl, fun _ _ => rfl⟩

section Roles

variable {ids : List String} {s s' : Store} {crypto : Crypto}

theorem Regular.same (h : Regular ids s) (hsame : Rewrites SameRole s s') : Regular ids s' where
  keyed := hsame.keyed h.keyed
  users user' huser' hid' := by
    obtain ⟨user, huser, hid, hrole⟩ := hsame.users user' huser'
    exact hrole.trans (h.users user huser (hid ▸ hid'))

/-- An operation that writes no role. -/
theorem Regular.run {α : Type} {p : Db α} (h : Regular ids s) (hp : RewritesOnly SameRole p) :
    Regular ids (p.prog.run s).2 :=
  (hp.triple fun hs hsame => Regular.same hs hsame).leaves h

theorem Regular.register (h : Regular ids s) (dto : RegisterDto) {id : String} (salt : String)
    (now : Nat) (hfresh : id ∉ s.users.map User.id) :
    Regular ids ((register crypto dto id salt now).prog.run s).2 := by
  apply (register_settles crypto dto id salt now s).leaves h
  rintro _ s' ⟨⟨params, -, -, rfl⟩, -, rfl⟩
  refine ⟨h.keyed.append hfresh, fun user huser hid => ?_⟩
  rcases List.mem_append.mp huser with huser | huser
  · exact h.users user huser hid
  · obtain rfl := List.mem_singleton.mp huser
    rfl

theorem Regular.deleteUser (h : Regular ids s) (userId actingAdminId : String) :
    Regular ids ((deleteUser userId actingAdminId).prog.run s).2 := by
  apply (deleteUser_settles userId actingAdminId s).leaves h
  rintro _ s' rfl
  exact ⟨h.keyed.sublist (List.eraseP_sublist.map _), fun user huser =>
    h.users user (List.mem_of_mem_eraseP huser)⟩

/-- The listed users may change when a role is written: the user it is written for is then
    listed only as a regular user. -/
theorem Regular.setRole {ids' : List String} (h : Regular ids s) (userId : String) (role : UserRole)
    (hids : ∀ id ∈ ids', id = userId ∧ role = .user ∨ id ∈ ids ∧ id ≠ userId) :
    Regular ids' (s.modifyUser userId fun user => { user with role }) where
  keyed := h.keyed.updateOne fun _ => rfl
  users user' huser' hid' := by
    rcases h.keyed.mem_updateOne.mp huser' with ⟨huser, hne⟩ | ⟨user, -, hid, rfl⟩
    · exact (hids _ hid').elim (fun heq => absurd heq.1 hne) fun hold => h.users user' huser hold.1
    · exact (hids _ hid').elim And.right fun hold => absurd hid hold.2

end Roles

/-! ## The invariant -/

/-- In the database the demoted users are regular users, and so they are in their tokens. -/
structure Inv (crypto : Crypto) (w : World) : Prop where
  regular : Regular w.demoted w.store
  tokens : ∀ u ∈ w.demoted, Unprivileged crypto w u

variable {crypto : Crypto} {w w' : World}

theorem noAdminAccess_of_inv (h : Inv crypto w) : NoAdminAccess crypto w :=
  fun u hu token htoken payload hverify hsub =>
    adminGuarded_refuses hverify (h.tokens u hu token htoken payload hverify hsub) w.store

/-- A step that issues nothing. -/
theorem Inv.quiet (h : Inv crypto w) {store : Store} (hstore : Regular w.demoted store) :
    Inv crypto { w with store } :=
  ⟨hstore, h.tokens⟩

/-- A step that issues a token for a user with the role in the database. -/
theorem Inv.issue (hcrypto : crypto.Lawful) (h : Inv crypto w) {α : Type} {accessToken : α → String}
    {p : Db α} (hp : RewritesOnly SameRole p)
    (hissues : ∀ response, (p.prog.run w.store).1 = .ok response →
      ∃ user : User, (user.id ∈ w.demoted → user.role = .user) ∧ ∃ deviceId sid,
        accessToken response = buildAccessToken crypto w.now user deviceId sid) :
    Inv crypto (afterIssue w accessToken p) := by
  have hregular := h.regular.run hp
  unfold afterIssue
  dsimp only
  split
  next response hresponse =>
    obtain ⟨user, hrole, deviceId, sid, htoken⟩ := hissues response hresponse
    refine ⟨hregular, fun u hu token hmem payload hverify hsub => ?_⟩
    rcases List.mem_cons.mp hmem with rfl | hold
    · rw [htoken] at hverify
      obtain rfl := hcrypto.access_payload hverify
      subst hsub
      rw [hrole hu]
      exact nofun
    · exact h.tokens u hu token hold payload hverify hsub
  next => exact h.quiet hregular

theorem Inv.login (hcrypto : crypto.Lawful) (h : Inv crypto w) (dto : LoginDto) (draw : Draw)
    (hnow : draw.now = w.now) :
    Inv crypto (afterIssue w AuthUserResponse.accessToken (login crypto dto draw)) := by
  refine h.issue hcrypto (.login permits_sameRole fun _ _ _ _ => rfl) fun response hresponse => ?_
  obtain ⟨user, hfind, -, rfl, -⟩ := (login_settles crypto dto draw w.store).of_ok hresponse
  exact ⟨user, h.regular.users user (List.mem_of_find?_eq_some hfind), dto.deviceId, draw.sid,
    hnow ▸ rfl⟩

/-- The user of the access token is read after the sessions are written. -/
theorem refresh_issues (crypto : Crypto) {ids : List String} (token : String) (draw : Draw) :
    Fallible.Triple (Regular ids) (refresh crypto token draw)
      (fun response _ => ∃ user : User, (user.id ∈ ids → user.role = .user) ∧ ∃ deviceId sid,
        response.accessToken = buildAccessToken crypto draw.now user deviceId sid) fun _ => True := by
  have hkeeps {α : Type} {p : Db α} (hp : RewritesOnly SameRole p) :
      Fallible.Triple (Regular ids) p (fun _ => Regular ids) fun _ => True :=
    (hp.triple fun hs hsame => Regular.same hs hsame).conseq (fun _ => id) (fun _ _ => id)
      fun _ _ => trivial
  have hquiet {α : Type} {f : Store → α × Store} (hf : ∀ s, (f s).2.users = s.users) :
      Fallible.Triple (Regular ids) (Fallible.atomically f : Db α) (fun _ => Regular ids)
        fun _ => True :=
    hkeeps (.quiet permits_sameRole.refl hf)
  unfold AuthService.refresh
  split
  next payload _ =>
    refine .bind (hquiet fun _ => rfl) fun found => ?_
    cases found with
    | none => exact .throw fun _ _ => trivial
    | some session =>
      refine .guard (fun _ _ => trivial) fun _ => .guard (fun _ _ => trivial) fun _ =>
        .guard (fun _ _ => trivial) fun _ => ?_
      refine .bind (hquiet fun _ => rfl) fun _ => ?_
      refine .bind (hkeeps (.setSession permits_sameRole.refl fun _ _ _ _ => rfl)) fun _ => ?_
      refine .bind (Q := fun found _ => ∀ user ∈ found, user.id ∈ ids → user.role = .user) ?_
        fun found => ?_
      · exact .atomically fun s hs user hfind => hs.users user (List.mem_of_find?_eq_some hfind)
      · cases found with
        | none => exact .throw fun _ _ => trivial
        | some user =>
          exact .pure fun _ hrole => ⟨user, hrole user rfl, payload.deviceId, draw.sid, rfl⟩
  next => exact .throw fun _ _ => trivial

theorem Inv.refresh (hcrypto : crypto.Lawful) (h : Inv crypto w) (token sid salt : String) :
    Inv crypto
      (afterIssue w RefreshResponse.accessToken (refresh crypto token ⟨w.now, sid, salt⟩)) := by
  refine h.issue hcrypto (.refresh permits_sameRole fun _ _ _ _ => rfl) fun response hresponse => ?_
  have hissues := refresh_issues crypto token ⟨w.now, sid, salt⟩ w.store h.regular
  revert hissues hresponse
  match (AuthService.refresh crypto token ⟨w.now, sid, salt⟩).prog.run w.store with
  | (.ok _, _)    => exact fun hresponse hissues => Except.ok.inj hresponse ▸ hissues
  | (.error _, _) => exact fun hresponse => nomatch hresponse

theorem Inv.updateUserRole (h : Inv crypto w) {userId : String} {role : UserRole}
    (htimely : role = .user → (w.store.users.find? (·.id == userId)).isSome = true →
      Unprivileged crypto w userId) : Inv crypto (afterRole w userId role) := by
  cases hfind : w.store.users.find? (·.id == userId) with
  | none =>
    simp only [afterRole, updateUserRole_run_none role hfind]
    exact h
  | some user =>
    simp only [afterRole, updateUserRole_run role hfind]
    refine ⟨h.regular.setRole userId role fun id hid => ?_, fun u hu => ?_⟩
    · split at hid
      next hrole =>
        by_cases heq : id = userId
        · exact .inl ⟨heq, hrole⟩
        · exact .inr ⟨(List.mem_cons.mp hid).resolve_left heq, heq⟩
      next => exact .inr (by simpa using hid)
    · split at hu
      next hrole =>
        rcases List.mem_cons.mp hu with rfl | hold
        · exact htimely hrole (by simp [hfind])
        · exact h.tokens u hold
      next => exact h.tokens u (List.mem_of_mem_filter hu)

/-- The other requests write no role. -/
theorem Inv.request (h : Inv crypto w) {r : Request} (hgenuine : Genuine w (.request r))
    (hother : ∀ userId role, r ≠ .updateUserRole userId role) :
    Inv crypto { w with store := ((r.program crypto w.now).prog.run w.store).2 } := by
  have hkept (hr : r.Writes SameRole) :
      Inv crypto { w with store := ((r.program crypto w.now).prog.run w.store).2 } :=
    h.quiet (h.regular.run (r.rewritesOnly permits_sameRole hr))
  cases r with
  | register dto id salt =>
    apply h.quiet
    rw [Request.program, Fallible.run_discard]
    exact h.regular.register dto salt w.now hgenuine
  | deleteUser userId actingAdminId =>
    apply h.quiet
    rw [Request.program, Fallible.run_discard]
    exact h.regular.deleteUser userId actingAdminId
  | updateUserRole userId role => exact absurd rfl (hother userId role)
  | requestPasswordReset => exact hkept fun _ _ _ => rfl
  | resetPassword | adminResetPassword | approveAllPendingUsers => exact hkept fun _ _ => rfl
  | logout | updateMe | authenticated | resetUserDevice | sendApprovalEmail => exact hkept trivial

/-! ## Runs of steps -/

theorem Inv.step (hcrypto : crypto.Lawful) (h : Inv crypto w) {op : Op} (hgenuine : Genuine w op)
    (htimely : Timely crypto w op) (hstep : step crypto w op = some w') : Inv crypto w' := by
  cases op with
  | login dto sid salt =>
    obtain rfl := Option.some.inj hstep
    exact h.login hcrypto dto ⟨w.now, sid, salt⟩ rfl
  | refresh token sid salt =>
    obtain rfl := Option.some.inj hstep
    exact h.refresh hcrypto token sid salt
  | updateUser userId dto transport =>
    obtain rfl := Option.some.inj hstep
    exact h.quiet (h.regular.run (.adminUpdateUser permits_sameRole
      (fun existing user => (updateData_fields dto existing w.now user).1)
      fun existing user => (updateData_fields dto existing w.now user).2.1))
  | request r =>
    by_cases hrole : ∃ userId role, r = .updateUserRole userId role
    · obtain ⟨userId, role, rfl⟩ := hrole
      obtain rfl := Option.some.inj hstep
      exact h.updateUserRole htimely
    · have hother : ∀ userId role, r ≠ .updateUserRole userId role := fun userId role heq =>
        hrole ⟨userId, role, heq⟩
      have hnext : Demotion.step crypto w (.request r) =
          some { w with store := ((r.program crypto w.now).prog.run w.store).2 } := by
        cases r with
        | updateUserRole userId role => exact absurd rfl (hother userId role)
        | _ => rfl
      obtain rfl := Option.some.inj (hnext.symm.trans hstep)
      exact h.request hgenuine hother
  | pass ms =>
    obtain rfl := Option.some.inj hstep
    exact ⟨h.regular, fun u hu token htoken payload hverify =>
      h.tokens u hu token htoken payload (hcrypto.access_earlier (Nat.le_add_right _ _) hverify)⟩

/-- A demoted user who holds a token with the admin role still passes. -/
theorem noAdminAccess_breaks {op : Op} (htimely : ¬ Timely crypto w op)
    (hstep : step crypto w op = some w') : ¬ NoAdminAccess crypto w' := by
  unfold Timely at htimely
  split at htimely
  next userId role =>
    push Not at htimely
    obtain ⟨rfl, hsome, hprivileged⟩ := htimely
    obtain ⟨user, hfind⟩ := Option.isSome_iff_exists.mp hsome
    unfold Unprivileged at hprivileged
    push Not at hprivileged
    obtain ⟨token, htoken, payload, hverify, rfl, hrole⟩ := hprivileged
    obtain rfl := Option.some.inj hstep
    simp only [afterRole, updateUserRole_run .user hfind, if_true]
    intro hall
    obtain ⟨e, he⟩ := hall payload.sub List.mem_cons_self token htoken payload hverify rfl
    have hstill := find?_modifyUser (f := fun user => { user with role := .user }) (fun _ => rfl) hfind
    rw [adminGuarded_passes hverify hrole (by simp only [hstill, Option.isSome_some])] at he
    cases he
  next => exact absurd trivial htimely

/-- In every run, demoted users are kept out of the admin API exactly if no user is demoted
    who holds a token with the admin role. -/
theorem demoted_locked_out (hcrypto : crypto.Lawful) (users : List User)
    (hids : Keyed User.id users) (ops : List Op)
    (hgenuine : Trace.AllSteps (step crypto) Genuine (World.start users) ops) :
    Trace.AllStates (step crypto) (NoAdminAccess crypto) (World.start users) ops ↔
      Trace.AllSteps (step crypto) (Timely crypto) (World.start users) ops :=
  Trace.allStates_iff_allSteps_of (J := Inv crypto) (fun _ => noAdminAccess_of_inv)
    (fun _ _ _ h hgenuine htimely hstep => h.step hcrypto hgenuine htimely hstep)
    (fun _ _ _ _ _ htimely hstep => noAdminAccess_breaks htimely hstep)
    ⟨⟨hids, by simp [World.start]⟩, by simp [World.start]⟩ hgenuine

/-! ## An administrator is demoted -/

def setRole (role : UserRole) : Op := .request (.updateUserRole resident.id role)

def adminPayload : JwtPayload := { phonePayload with role := .admin }

/-- The access token of the administrator is accepted after the demotion. -/
theorem demoted_still_admin :
    ¬ Trace.AllStates (step Crypto.plain) (NoAdminAccess Crypto.plain)
      (World.start [{ resident with role := .admin }])
      [.login (residentLogin "phone") "s0" "salt", setRole .user] := by
  intro hall
  have h : (Trace.exec (step Crypto.plain) (World.start [{ resident with role := .admin }])
      [.login (residentLogin "phone") "s0" "salt", setRole .user]).any (fun w =>
        adminPayload.sub ∈ w.demoted ∧
        Crypto.plain.signAccess 0 adminPayload ∈ w.accessTokens ∧
        Crypto.plain.verifyAccess w.now (Crypto.plain.signAccess 0 adminPayload) =
          some adminPayload ∧
        ((adminGuarded Crypto.plain (Crypto.plain.signAccess 0 adminPayload) w.now).prog.run
          w.store).1.isOk = true) = true := by decide +kernel
  obtain ⟨w, hw, hend⟩ := Option.any_eq_true _ _ |>.mp h
  simp only [decide_eq_true_eq] at hend
  obtain ⟨hdemoted, htoken, hverify, hok⟩ := hend
  obtain ⟨e, he⟩ := hall.last hw _ hdemoted _ htoken adminPayload hverify rfl
  rw [he] at hok
  cases hok

/-- The resident is made an administrator and demoted again without a new token in between. -/
theorem demoted_locked_out_sameToken :
    Trace.AllStates (step Crypto.plain) (NoAdminAccess Crypto.plain) (World.start [resident])
      [.login (residentLogin "phone") "s0" "salt", setRole .admin, .pass 1000, setRole .user,
        .refresh phoneToken "s1" "salt"] :=
  (demoted_locked_out Crypto.plain_lawful [resident] (by decide) _ (by decide +kernel)).mpr
    (by decide +kernel)

end Backend.Demotion
