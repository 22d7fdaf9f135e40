-- SUMMARY: One rule for each operation of AuthService and AdminService: what holds of the actions it is made of holds of all its actions.
import ParkingGate.Backend.AdminService
import ParkingGate.Backend.Guards
import ParkingGate.Backend.SessionWrites

/-!
# Actions of the services

A service only touches the store through `UsersService`. So what every action of an operation
does follows from what the actions of the calls it makes do, and the branches are gone through
once, whatever is to be shown of the actions.
-/

namespace Backend

open UsersService

theorem always_read_bind {E : (Store → Store) → Prop} {α β : Type} (hread : E id) {f : Store → α}
    {k : α → Db β} (hk : ∀ a, (k a).prog.Always E) :
    ((Fallible.atomically fun s => (f s, s) : Db α) >>= k).prog.Always E :=
  Fallible.always_bind ⟨hread, fun _ => trivial⟩ hk

/-! ## AuthService -/

namespace AuthService

variable {E : (Store → Store) → Prop} {crypto : Crypto}

theorem login_always {dto : LoginDto} {draw : Draw} (hread : E id)
    (hclear : ∀ userId, (clearAllSessions userId).prog.Always E)
    (hcreate : ∀ userId tokenHash,
      (createSession userId dto.deviceId draw.sid tokenHash draw.now).prog.Always E)
    (hset : ∀ userId tokenHash,
      (setSession userId dto.deviceId draw.sid tokenHash draw.now).prog.Always E) :
    (login crypto dto draw).prog.Always E := by
  refine always_read_bind hread fun found => ?_
  cases found with
  | none => trivial
  | some user =>
    iterate 6 apply Fallible.always_guard
    have hopen : (do
        createSession user.id dto.deviceId draw.sid
          (crypto.hash draw.salt
            (buildRefreshToken crypto draw.now user.id user.role dto.deviceId draw.sid)) draw.now
        setSession user.id dto.deviceId draw.sid
          (crypto.hash draw.salt
            (buildRefreshToken crypto draw.now user.id user.role dto.deviceId draw.sid)) draw.now
        return loginResponse crypto dto draw user : Db AuthUserResponse).prog.Always E :=
      Fallible.always_bind (hcreate _ _) fun _ => Fallible.always_bind (hset _ _) fun _ => trivial
    dsimp only
    split
    · exact Fallible.always_bind (hclear user.id) fun _ => hopen
    · exact hopen

theorem refresh_always {token : String} {draw : Draw} (hread : E id)
    (hcreate : ∀ userId deviceId tokenHash,
      (createSession userId deviceId draw.sid tokenHash draw.now).prog.Always E)
    (hset : ∀ userId deviceId tokenHash,
      (setSession userId deviceId draw.sid tokenHash draw.now).prog.Always E) :
    (refresh crypto token draw).prog.Always E := by
  unfold refresh
  split
  · refine always_read_bind hread fun found => ?_
    cases found with
    | none => trivial
    | some session =>
      iterate 3 apply Fallible.always_guard
      refine Fallible.always_bind (hcreate _ _ _) fun _ => Fallible.always_bind (hset _ _ _) fun _ => ?_
      refine always_read_bind hread fun user => ?_
      cases user <;> trivial
  · trivial

theorem logout_always {userId deviceId : String} (hread : E id)
    (hdelete : (deleteSession userId (some deviceId)).prog.Always E)
    (hclear : (clearSession userId).prog.Always E) :
    (logout userId deviceId).prog.Always E := by
  refine always_read_bind hread fun found => ?_
  cases found with
  | none => trivial
  | some user =>
    have hend : (do
        deleteSession userId (some deviceId)
        let remainingSessions ← getAllSessions userId
        if remainingSessions.length = 0 ∨ user.role ≠ .admin then
          clearSession userId : Db Unit).prog.Always E := by
      refine Fallible.always_bind hdelete fun _ => always_read_bind hread fun remaining => ?_
      split
      · exact hclear
      · trivial
    dsimp only
    split
    · refine always_read_bind hread fun data => ?_
      cases data with
      | none => trivial
      | some data => exact Fallible.always_guard (Fallible.always_guard hend)
    · exact hend

end AuthService

/-! ## Guards -/

theorem JwtStrategy.validate_always {E : (Store → Store) → Prop} {payload : JwtPayload} {now : Nat}
    (hread : E id) (htouch : (updateSessionLastActive payload.sid now).prog.Always E) :
    (validate payload now).prog.Always E := by
  refine always_read_bind hread fun found => Fallible.always_guard ?_
  refine always_read_bind hread fun session => ?_
  dsimp only
  split
  · cases session with
    | none => trivial
    | some session =>
      exact Fallible.always_guard (Fallible.always_guard (Fallible.always_bind htouch fun _ => trivial))
  · trivial

theorem ApprovedGuard.canActivate_always {E : (Store → Store) → Prop} {authUser : AuthUser}
    (hread : E id) : (canActivate authUser).prog.Always E := by
  refine always_read_bind hread fun found => ?_
  cases found with
  | none => trivial
  | some user =>
    dsimp only
    split
    · trivial
    split
    · cases user.status <;> trivial
    · exact Fallible.always_guard (Fallible.always_guard trivial)

/-! ## AdminService -/

namespace AdminService

variable {E : (Store → Store) → Prop} {userId : String} {now : Nat} {transport : Transport}

theorem updateUser_always {dto : UpdateUserDto} (hread : E id)
    (hclear : dto.status.any forcesLogout = true → (clearSession userId).prog.Always E)
    (hwrite : ∀ existing, (UsersService.updateUser userId (dto.updateData existing now)).prog.Always E)
    (hnotify : ∀ user, (notifyApproval userId user now transport).prog.Always E) :
    (updateUser userId dto now transport).prog.Always E := by
  refine always_read_bind hread fun found => ?_
  cases found with
  | none => trivial
  | some existing =>
    refine Fallible.always_when hclear ?_
    refine Fallible.always_guard (Fallible.always_bind (hwrite existing) fun updated => ?_)
    cases updated with
    | none => trivial
    | some user =>
      dsimp only
      split
      · exact hnotify user
      · trivial

/-- How an operation ends that answers with the user as it is afterwards. -/
def readBack (userId : String) : Db User := do
  let some updatedUser ← findById userId
    | throw (.notFound "משתמש לא נמצא")
  return updatedUser

theorem readBack_always (hread : E id) : (readBack userId).prog.Always E := by
  refine always_read_bind hread fun updated => ?_
  cases updated <;> trivial

theorem resetUserDevice_always {deviceId : Option String} (hread : E id)
    (hdelete : (deleteSession userId deviceId).prog.Always E)
    (hdeleteAll : (clearAllSessions userId).prog.Always E)
    (hclear : (clearSession userId).prog.Always E)
    (hdevice : (clearActiveDevice userId).prog.Always E) :
    (resetUserDevice userId deviceId).prog.Always E := by
  have hlast : (do
      let remainingSessions ← getAllSessions userId
      if remainingSessions.length = 0 then
        clearSession userId
        clearActiveDevice userId
      readBack userId : Db User).prog.Always E := by
    refine always_read_bind hread fun remaining => ?_
    dsimp only
    split
    · exact Fallible.always_bind hclear fun _ => Fallible.always_bind hdevice fun _ =>
        readBack_always hread
    · exact readBack_always hread
  refine always_read_bind hread fun found => Fallible.always_guard ?_
  dsimp only
  split
  · exact Fallible.always_bind hdelete fun _ => hlast
  · exact Fallible.always_bind hdeleteAll fun _ => Fallible.always_bind hclear fun _ =>
      Fallible.always_bind hdevice fun _ => hlast

theorem approveEach_always {users : List User} {transports : List Transport} {count : Nat}
    (heach : ∀ user ∈ users, ∀ transport, (approvePendingUser now user transport).prog.Always E) :
    (approveEach now users transports count).prog.Always E := by
  induction users generalizing transports count with
  | nil => trivial
  | cons user users ih =>
    refine Fallible.always_bind (heach user List.mem_cons_self _) fun _ => ih fun user huser => ?_
    exact heach user (List.mem_cons_of_mem _ huser)

end AdminService

end Backend
