-- SUMMARY: What the operations change in the user documents, up to a relation between a document before and after.
import ParkingGate.Backend.ForcedLogout
import ParkingGate.Backend.Guards
import ParkingGate.Backend.Outcomes

/-!
# Frames for user documents

Most operations rewrite documents in a few fields only. A relation `R` between a document
before and after says which fields matter; an operation whose writes are all within `R`
leaves every document related to the one it was.
-/

namespace Backend

open AuthService AdminService Collection UsersService

/-- Every document is one of before, rewritten within `R`. -/
structure Rewrites (R : User → User → Prop) (s s' : Store) : Prop where
  ids : s'.users.map User.id = s.users.map User.id
  users : ∀ user' ∈ s'.users, ∃ user ∈ s.users, user'.id = user.id ∧ R user user'

/-- The writes that nearly all relations allow: those of a logout, of the profile and of the
    time of the approval e-mail. -/
structure Permits (R : User → User → Prop) : Prop where
  refl : ∀ user, R user user
  clearFields : ∀ user, R user user.clearFields
  clearActiveDevice : ∀ user, R user { user with activeDeviceId := none }
  profile : ∀ user firstName lastName phone apartmentNumber floor,
    R user { user with firstName, lastName, phone, apartmentNumber, floor }
  emailSent : ∀ user time, R user { user with approvalEmailSentAt := some time }

namespace Rewrites

variable {R : User → User → Prop} {s s' s'' : Store}

theorem of_users (hrefl : ∀ user, R user user) (h : s'.users = s.users) : Rewrites R s s' := by
  refine ⟨by rw [h], fun user huser => ?_⟩
  rw [h] at huser
  exact ⟨user, huser, rfl, hrefl user⟩

theorem trans (hR : ∀ a b c, R a b → R b c → R a c) (h : Rewrites R s s') (h' : Rewrites R s' s'') :
    Rewrites R s s'' where
  ids := h'.ids.trans h.ids
  users user'' huser'' := by
    obtain ⟨user', huser', hid', hR'⟩ := h'.users user'' huser''
    obtain ⟨user, huser, hid, hRold⟩ := h.users user' huser'
    exact ⟨user, huser, hid'.trans hid, hR _ _ _ hRold hR'⟩

theorem modifyUser (hrefl : ∀ user, R user user) {f : User → User}
    (hid : ∀ user, (f user).id = user.id) (hf : ∀ user, R user (f user)) (userId : String)
    (s : Store) : Rewrites R s (s.modifyUser userId f) where
  ids := map_updateOne hid
  users user' huser' := by
    rcases of_mem_updateOne huser' with huser | ⟨user, huser, -, rfl⟩
    · exact ⟨user', huser, rfl, hrefl user'⟩
    · exact ⟨user, huser, hid user, hf user⟩

theorem keyed (h : Rewrites R s s') (hs : Keyed User.id s.users) : Keyed User.id s'.users := by
  rw [Keyed, h.ids]
  exact hs

/-- The document that a document has become. -/
theorem exists_new (h : Rewrites R s s') (hs : Keyed User.id s.users) {user : User}
    (huser : user ∈ s.users) : ∃ user' ∈ s'.users, user'.id = user.id ∧ R user user' := by
  have hid : user.id ∈ s'.users.map User.id := h.ids ▸ List.mem_map_of_mem huser
  obtain ⟨user', huser', hid'⟩ := List.mem_map.mp hid
  obtain ⟨old, hold, hsame, hR⟩ := h.users user' huser'
  obtain rfl := hs.eq_of_key hold huser (hsame.symm.trans hid')
  exact ⟨user', huser', hid', hR⟩

end Rewrites

/-- Every action of the program rewrites documents within `R`. -/
abbrev RewritesOnly {α : Type} (R : User → User → Prop) (p : Db α) : Prop :=
  p.prog.Always fun upd => ∀ s, Rewrites R s (upd s)

namespace RewritesOnly

variable {α β : Type} {R : User → User → Prop}

theorem bind {p : Db α} {k : α → Db β} (h : RewritesOnly R p) (hk : ∀ a, RewritesOnly R (k a)) :
    RewritesOnly R (p >>= k) :=
  Fallible.always_bind h hk

theorem run {p : Db α} (h : RewritesOnly R p) (hrefl : ∀ user, R user user)
    (htrans : ∀ a b c, R a b → R b c → R a c) (s : Store) : Rewrites R s (p.prog.run s).2 :=
  Prog.Always.run (fun _ => .of_users hrefl rfl) (fun _ _ _ => .trans htrans) h s

/-- What is kept by rewriting. -/
theorem triple {p : Db α} {I : Store → Prop} (h : RewritesOnly R p)
    (hI : ∀ {s s'}, I s → Rewrites R s s' → I s') : Fallible.Triple I p (fun _ => I) I :=
  .of_always (h.mono fun _ hupd s hs => hI hs (hupd s))

section Actions

variable (hrefl : ∀ user, R user user)

include hrefl

/-- An action that leaves the users alone. -/
theorem quiet {f : Store → α × Store} (h : ∀ s, (f s).2.users = s.users) :
    RewritesOnly R (Fallible.atomically f) :=
  ⟨fun s => .of_users hrefl (h s), fun _ => trivial⟩

theorem updateUser {userId : String} {f : User → User} (hid : ∀ user, (f user).id = user.id)
    (hf : ∀ user, R user (f user)) : RewritesOnly R (UsersService.updateUser userId f) :=
  ⟨.modifyUser hrefl hid hf userId, fun _ => trivial⟩

theorem setSession {userId deviceId sid refreshTokenHash : String} {now : Nat}
    (hset : ∀ user deviceId sid tokenHash, R user
      { user with
        activeDeviceId := some deviceId
        activeSessionId := some sid
        refreshTokenHash := some tokenHash }) :
    RewritesOnly R (setSession userId deviceId sid refreshTokenHash now) :=
  bind (updateUser hrefl (fun _ => rfl) fun user => hset user _ _ _) fun _ => quiet hrefl fun _ => rfl

theorem sendMail {mail : Mail} {transport : Transport} : RewritesOnly R (sendMail mail transport) := by
  cases transport with
  | notConfigured | fails => trivial
  | accepts => exact quiet hrefl fun _ => rfl

/-- An operation that looks its user up and updates the document. -/
theorem lookUpAndUpdate {userId : String} {e e' : HttpException} {f : User → User}
    {k : User → Db α} (hid : ∀ user, (f user).id = user.id) (hf : ∀ user, R user (f user))
    (hk : ∀ user, RewritesOnly R (k user)) :
    RewritesOnly R (do
      if (← findById userId).isNone then
        throw e
      let some updatedUser ← UsersService.updateUser userId f
        | throw e'
      k updatedUser) := by
  refine bind (quiet hrefl fun _ => rfl) fun found => Fallible.always_guard ?_
  refine bind (updateUser hrefl hid hf) fun updated => ?_
  cases updated with
  | none => trivial
  | some user => exact hk user

end Actions

variable (hR : Permits R)

include hR

theorem clearSession {userId : String} : RewritesOnly R (clearSession userId) :=
  bind (updateUser hR.refl (fun _ => rfl) hR.clearFields) fun _ => trivial

theorem clearActiveDevice {userId : String} : RewritesOnly R (clearActiveDevice userId) :=
  bind (updateUser hR.refl (fun _ => rfl) hR.clearActiveDevice) fun _ => trivial

/-- The approval e-mail, and the time it was sent at. -/
theorem notify {mail : Mail} {transport : Transport} {userId : String} {now : Nat}
    {k : Option User → Db α} (hk : ∀ updated, RewritesOnly R (k updated)) :
    RewritesOnly R (do
      Backend.sendMail mail transport
      let updated ← UsersService.updateUser userId fun user => { user with approvalEmailSentAt := some now }
      k updated) :=
  bind (sendMail hR.refl) fun _ =>
    bind (updateUser hR.refl (fun _ => rfl) fun user => hR.emailSent user now) hk

/-! ## AuthService -/

theorem login {crypto : Crypto} {dto : LoginDto} {draw : Draw}
    (hset : ∀ user deviceId sid tokenHash, R user
      { user with
        activeDeviceId := some deviceId
        activeSessionId := some sid
        refreshTokenHash := some tokenHash }) : RewritesOnly R (login crypto dto draw) :=
  login_always (fun _ => .of_users hR.refl rfl) (fun _ => quiet hR.refl fun _ => rfl)
    (fun _ _ => quiet hR.refl fun _ => rfl) fun _ _ => setSession hR.refl hset

theorem refresh {crypto : Crypto} {token : String} {draw : Draw}
    (hset : ∀ user deviceId sid tokenHash, R user
      { user with
        activeDeviceId := some deviceId
        activeSessionId := some sid
        refreshTokenHash := some tokenHash }) : RewritesOnly R (refresh crypto token draw) :=
  refresh_always (fun _ => .of_users hR.refl rfl) (fun _ _ _ => quiet hR.refl fun _ => rfl)
    fun _ _ _ => setSession hR.refl hset

theorem logout {userId deviceId : String} : RewritesOnly R (logout userId deviceId) :=
  logout_always (fun _ => .of_users hR.refl rfl) (quiet hR.refl fun _ => rfl) (clearSession hR)

theorem updateMe {userId : String} {dto : UpdateMeDto} : RewritesOnly R (updateMe userId dto) :=
  lookUpAndUpdate hR.refl (fun _ => rfl) (fun user => hR.profile user _ _ _ _ _) fun _ => trivial

theorem requestPasswordReset {crypto : Crypto} {email token salt homepageUrl : String}
    {expiryMinutes now : Nat} {transport : Transport}
    (hreset : ∀ user tokenHash expiresAt, R user
      { user with resetPasswordTokenHash := some tokenHash, resetPasswordExpiresAt := some expiresAt }) :
    RewritesOnly R
      (requestPasswordReset crypto email expiryMinutes now token salt homepageUrl transport) := by
  refine bind (quiet hR.refl fun _ => rfl) fun found => ?_
  cases found with
  | none => trivial
  | some user =>
    refine bind (updateUser hR.refl (fun _ => rfl) fun user => hreset user _ _) fun _ => ?_
    exact Fallible.always_tryCatch (sendMail hR.refl) fun _ => trivial

theorem resetPassword {crypto : Crypto} {token newPassword salt : String} {now : Nat}
    (hpassword : ∀ user passwordHash, R user
      { user with passwordHash, resetPasswordTokenHash := none, resetPasswordExpiresAt := none }) :
    RewritesOnly R (AuthService.resetPassword crypto token newPassword salt now) := by
  refine bind (quiet hR.refl fun _ => rfl) fun candidates => ?_
  cases matchedUser crypto token candidates with
  | none => trivial
  | some user =>
    exact bind (updateUser hR.refl (fun _ => rfl) fun user => hpassword user _) fun _ => trivial

theorem authenticate {crypto : Crypto} {accessToken : String} {now : Nat} :
    RewritesOnly R (JwtStrategy.authenticate crypto accessToken now) := by
  unfold JwtStrategy.authenticate
  split
  · exact JwtStrategy.validate_always (fun _ => .of_users hR.refl rfl) (quiet hR.refl fun _ => rfl)
  · trivial

theorem canActivate {authUser : AuthUser} : RewritesOnly R (ApprovedGuard.canActivate authUser) :=
  ApprovedGuard.canActivate_always fun _ => .of_users hR.refl rfl

/-! ## AdminService -/

theorem notifyApproval {userId : String} {user : User} {now : Nat} {transport : Transport} :
    RewritesOnly R (notifyApproval userId user now transport) :=
  Fallible.always_tryCatch
    (notify hR fun _ => bind (quiet hR.refl fun _ => rfl) fun _ => trivial) fun _ => trivial

theorem adminUpdateUser {userId : String} {dto : UpdateUserDto} {now : Nat} {transport : Transport}
    (hid : ∀ existing user, (dto.updateData existing now user).id = user.id)
    (hdata : ∀ existing user, R user (dto.updateData existing now user)) :
    RewritesOnly R (AdminService.updateUser userId dto now transport) :=
  updateUser_always (fun _ => .of_users hR.refl rfl) (fun _ => clearSession hR)
    (fun existing => updateUser hR.refl (hid existing) (hdata existing)) fun _ => notifyApproval hR

theorem updateUserRole {userId : String} {role : UserRole}
    (hrole : ∀ user, R user { user with role }) : RewritesOnly R (updateUserRole userId role) :=
  lookUpAndUpdate hR.refl (fun _ => rfl) hrole fun _ => trivial

theorem adminResetPassword {crypto : Crypto} {userId : String} {dto : ResetPasswordDto} {salt : String}
    (hpassword : ∀ user, R user { user with passwordHash := crypto.hash salt dto.newPassword }) :
    RewritesOnly R (AdminService.resetPassword crypto userId dto salt) := by
  unfold AdminService.resetPassword
  exact Fallible.always_guard (lookUpAndUpdate hR.refl (fun _ => rfl) hpassword fun _ =>
    bind (quiet hR.refl fun _ => rfl) fun _ => bind (clearSession hR) fun _ => trivial)

theorem resetUserDevice {userId : String} {deviceId : Option String} :
    RewritesOnly R (resetUserDevice userId deviceId) :=
  resetUserDevice_always (fun _ => .of_users hR.refl rfl) (quiet hR.refl fun _ => rfl)
    (quiet hR.refl fun _ => rfl) (clearSession hR) (clearActiveDevice hR)

theorem approveEach {now : Nat} {users : List User} {transports : List Transport} {count : Nat}
    (happrove : ∀ user, R user
      { user with status := .approved, approvedAt := some now, rejectedAt := none }) :
    RewritesOnly R (approveEach now users transports count) := by
  refine approveEach_always fun user _ transport => ?_
  refine bind (updateUser hR.refl (fun _ => rfl) happrove) fun _ => bind ?_ fun _ =>
    bind (clearSession hR) fun _ => clearActiveDevice hR
  exact Fallible.always_tryCatch (notify hR fun _ => trivial) fun _ => trivial

theorem approveAllPendingUsers {now : Nat} {transports : List Transport}
    (happrove : ∀ user, R user
      { user with status := .approved, approvedAt := some now, rejectedAt := none }) :
    RewritesOnly R (approveAllPendingUsers now transports) :=
  bind (quiet hR.refl fun _ => rfl) fun _ => approveEach hR happrove

theorem sendApprovalEmail {userId : String} {now : Nat} {transport : Transport} :
    RewritesOnly R (sendApprovalEmail userId now transport) := by
  refine bind (quiet hR.refl fun _ => rfl) fun found => ?_
  cases found with
  | none => trivial
  | some user => exact Fallible.always_guard (notify hR fun _ => trivial)

end RewritesOnly

/-! ## Requests -/

namespace ForcedLogout.Request

/-- What a relation has to allow for a request, besides the writes that nearly all allow. -/
def Writes (R : User → User → Prop) : Request → Prop
  | register .. | deleteUser ..  => False
  | requestPasswordReset ..      => ∀ user tokenHash expiresAt, R user
      { user with resetPasswordTokenHash := some tokenHash, resetPasswordExpiresAt := some expiresAt }
  | resetPassword ..             => ∀ user passwordHash, R user
      { user with passwordHash, resetPasswordTokenHash := none, resetPasswordExpiresAt := none }
  | adminResetPassword ..        => ∀ user passwordHash, R user { user with passwordHash }
  | updateUserRole _ role        => ∀ user, R user { user with role }
  | approveAllPendingUsers ..    => ∀ user now, R user
      { user with status := .approved, approvedAt := some now, rejectedAt := none }
  | _                            => True

theorem rewritesOnly {crypto : Crypto} {now : Nat} {R : User → User → Prop} (hR : Permits R)
    {r : Request} (h : r.Writes R) : RewritesOnly R (r.program crypto now) := by
  have discard {α : Type} {p : Db α} (hp : RewritesOnly R p) : RewritesOnly R (do let _ ← p) :=
    hp.bind fun _ => trivial
  cases r with
  | register | deleteUser => exact h.elim
  | logout => exact .logout hR
  | updateMe => exact discard (.updateMe hR)
  | requestPasswordReset => exact .requestPasswordReset hR h
  | resetPassword => exact .resetPassword hR h
  | authenticated => exact discard (.bind (.authenticate hR) fun _ => .canActivate hR)
  | updateUserRole => exact discard (.updateUserRole hR h)
  | adminResetPassword => exact discard (.adminResetPassword hR fun user => h user _)
  | resetUserDevice => exact discard (.resetUserDevice hR)
  | approveAllPendingUsers => exact discard (.approveAllPendingUsers hR fun user => h user now)
  | sendApprovalEmail => exact .sendApprovalEmail hR

end ForcedLogout.Request

end Backend
