-- SUMMARY: What a call of updateUser that is refused has done to the store.
import ParkingGate.Backend.BulkApproval

/-!
# Refused updates

`updateUser` clears the session of the user before it looks for the reason of a rejection. A
call that is refused for lack of a reason has then logged the user out. In all other calls that
are refused nothing has been written.

A field that the model leaves out, `updatedAt`, is set by every write to the document. A call
that only reads has left it alone.
-/

namespace Backend.RefusedUpdate

open AdminService AuthService Collection UsersService
open BulkApproval (UpdateCall)

/-- `BadRequestException` and `NotFoundException` -/
def isRefusal : HttpException → Bool
  | .badRequest _ | .notFound _ => true
  | _                           => false

/-- A field of the last session is set. -/
def hasSessionFields (user : User) : Bool :=
  user.activeDeviceId.isSome || user.activeSessionId.isSome || user.refreshTokenHash.isSome

theorem clearFields_eq_self {user : User} :
    user.clearFields = user ↔ hasSessionFields user = false := by
  constructor
  · intro h
    have hdevice : user.activeDeviceId = none := congrArg User.activeDeviceId h.symm
    have hsession : user.activeSessionId = none := congrArg User.activeSessionId h.symm
    have htoken : user.refreshTokenHash = none := congrArg User.refreshTokenHash h.symm
    simp [hasSessionFields, hdevice, hsession, htoken]
  · intro h
    simp only [hasSessionFields, Bool.or_eq_false_iff, Option.isSome_eq_false_iff,
      Option.isNone_iff_eq_none] at h
    obtain ⟨⟨hdevice, hsession⟩, htoken⟩ := h
    cases user
    simp_all [User.clearFields]

/-! ## Calls -/

section Calls

variable (call : UpdateCall) (s : Store)

def prog : Prog Store (Except HttpException User) :=
  (AdminService.updateUser call.userId call.dto call.now call.transport).prog

/-- If the call is refused, the documents are as before. -/
def KeepsDocuments : Prop :=
  ∀ e, ((prog call).run s).1 = .error e → isRefusal e = true →
    ((prog call).run s).2.users = s.users ∧ ((prog call).run s).2.sessions = s.sessions

/-- If the call is refused, it has not written to the database. -/
def OnlyReads : Prop :=
  ∀ e, ((prog call).run s).1 = .error e → isRefusal e = true → ∀ upd ∈ (prog call).updates s, upd = id

/-- The user is to be rejected, and there is no reason. -/
def RejectsWithoutReason : Prop :=
  call.dto.status = some .rejected ∧ missingReason call.dto.rejectionReason = true

/-- The document the call is about satisfies `P`. -/
def Finds (P : User → Prop) : Prop :=
  ∃ user, s.users.find? (·.id == call.userId) = some user ∧ P user

end Calls

section Outcomes

variable {call : UpdateCall} {s : Store} {existing : User}

/-- A call that is not about any user. -/
theorem run_unknown (h : s.users.find? (·.id == call.userId) = none) :
    (prog call).run s = (.error (.notFound "משתמש לא נמצא"), s) ∧ (prog call).updates s = [id] := by
  rw [prog, call.updateUser_eq, findById, Fallible.prog_atomically_bind, Prog.run_act, Prog.updates, h]
  exact ⟨rfl, rfl⟩

theorem run_known (h : s.users.find? (·.id == call.userId) = some existing) :
    (prog call).run s = (call.afterRead existing).prog.run s ∧
      (prog call).updates s = id :: (call.afterRead existing).prog.updates s := by
  rw [prog, call.updateUser_eq, findById, Fallible.prog_atomically_bind, Prog.run_act, Prog.updates, h]
  exact ⟨rfl, rfl⟩

variable (s existing) in
/-- The session is cleared before the call is refused. -/
theorem afterRead_rejectsWithoutReason (h : RejectsWithoutReason call) :
    (call.afterRead existing).prog.run s =
        (.error (.badRequest "סיבת דחייה נדרשת כאשר הסטטוס הוא \"נדחה\""),
          s.modifyUser call.userId User.clearFields) ∧
      (call.afterRead existing).prog.updates s = [Store.modifyUser call.userId User.clearFields] := by
  have hafter : call.afterRead existing = (do
      clearSession call.userId
      throw (.badRequest "סיבת דחייה נדרשת כאשר הסטטוס הוא \"נדחה\"")) := by
    simp [UpdateCall.afterRead, UpdateCall.check, UpdateUserDto.reasonRequired, h.1, h.2, forcesLogout]
  rw [hafter]
  exact ⟨rfl, rfl⟩

/-- Otherwise a call that is refused has not written, -/
theorem afterRead_refused (hreject : ¬ RejectsWithoutReason call)
    (h : (call.dto.reasonRequired existing && missingReason call.dto.rejectionReason) = true) :
    (call.afterRead existing).prog =
      .ret (.error (.badRequest "סיבת דחייה נדרשת כאשר הסטטוס הוא \"נדחה\"")) := by
  rw [Bool.and_eq_true] at h
  have hstatus : call.dto.status = none := by
    cases hstatus : call.dto.status with
    | none => rfl
    | some status =>
      have hrequired := h.1
      simp only [UpdateUserDto.reasonRequired, hstatus, decide_eq_true_eq] at hrequired
      exact absurd ⟨hstatus.trans (congrArg some hrequired), h.2⟩ hreject
  simp [UpdateCall.afterRead, UpdateCall.check, hstatus, h.1, h.2]

/-- and one that passes the check succeeds. -/
theorem afterRead_accepted (hfind : s.users.find? (·.id == call.userId) = some existing)
    (h : (call.dto.reasonRequired existing && missingReason call.dto.rejectionReason) = false) :
    ∃ user, ((call.afterRead existing).prog.run s).1 = .ok user := by
  have hwrite : ∀ {s : Store} {user : User}, s.users.find? (·.id == call.userId) = some user →
      ∃ user, ((call.write existing).prog.run s).1 = .ok user := by
    intro s user hfind
    rw [UpdateCall.write, UsersService.updateUser, run_findByIdAndUpdate,
      find?_modifyUser (fun _ => (updateData_fields ..).1) hfind]
    dsimp only
    split
    · cases call.transport <;> exact ⟨_, rfl⟩
    · exact ⟨_, rfl⟩
  have hcheck : call.check existing = call.write existing := by
    simp [UpdateCall.check, h]
  unfold UpdateCall.afterRead
  split
  · rw [run_clearSession, hcheck]
    exact hwrite (find?_modifyUser (fun _ => rfl) hfind)
  · rw [hcheck]
    exact hwrite hfind

end Outcomes

/-- A call that has only read has left the documents alone. -/
theorem keeps_of_reads {call : UpdateCall} {s : Store} {r : Except HttpException User}
    (hrun : (prog call).run s = (r, s)) (hupdates : (prog call).updates s = [id]) :
    KeepsDocuments call s ∧ OnlyReads call s := by
  constructor
  · intro e _ _
    rw [hrun]
    exact ⟨rfl, rfl⟩
  · intro e _ _ upd hupd
    rw [hupdates] at hupd
    exact List.mem_singleton.mp hupd

/-- The update that clears the session is a write. -/
theorem clearFields_ne_id (userId : String) : Store.modifyUser userId User.clearFields ≠ id := by
  intro h
  have hstore := congrArg Store.users (congrFun h
    { Store.empty with users := [{ resident with id := userId, activeSessionId := some "s0" }] })
  simp [Store.modifyUser, updateOne, User.clearFields] at hstore

/-- A refused call has left the documents alone, unless it was to reject a user without a reason
    who has a field of a session set, and it has only read, unless it was to reject a user of the
    database without a reason. -/
theorem refused_keeps_iff (call : UpdateCall) (s : Store) :
    (KeepsDocuments call s ↔
      ¬ (RejectsWithoutReason call ∧ Finds call s fun user => hasSessionFields user = true)) ∧
    (OnlyReads call s ↔ ¬ (RejectsWithoutReason call ∧ Finds call s fun _ => True)) := by
  cases hfind : s.users.find? (·.id == call.userId) with
  | none =>
    obtain ⟨hrun, hupdates⟩ := run_unknown hfind
    have hnone : ∀ P, ¬ (RejectsWithoutReason call ∧ Finds call s P) := by
      rintro P ⟨-, user, huser, -⟩
      cases hfind.symm.trans huser
    obtain ⟨hkeeps, hreads⟩ := keeps_of_reads hrun hupdates
    exact ⟨iff_of_true hkeeps (hnone _), iff_of_true hreads (hnone _)⟩
  | some existing =>
    obtain ⟨hrun, hupdates⟩ := run_known hfind
    have hfinds : ∀ P, Finds call s P ↔ P existing := by
      simp [Finds, hfind]
    simp only [hfinds, and_true]
    by_cases hreject : RejectsWithoutReason call
    · obtain ⟨hafter, hwrites⟩ := afterRead_rejectsWithoutReason s existing hreject
      rw [hafter] at hrun
      rw [hwrites] at hupdates
      simp only [hreject, true_and, not_true_eq_false, iff_false]
      constructor
      · have hkeeps : KeepsDocuments call s ↔ (s.modifyUser call.userId User.clearFields).users = s.users := by
          unfold KeepsDocuments
          rw [hrun]
          exact ⟨fun h => (h _ rfl rfl).1, fun h _ _ _ => ⟨h, rfl⟩⟩
        rw [hkeeps, Store.modifyUser, updateOne_eq_self_iff, Bool.not_eq_true, ← clearFields_eq_self]
        simp [hfind]
      · intro h
        rw [OnlyReads, hrun, hupdates] at h
        exact clearFields_ne_id call.userId (h _ rfl rfl _ (by simp))
    · simp only [hreject, false_and, not_false_eq_true, iff_true]
      cases hcheck : call.dto.reasonRequired existing && missingReason call.dto.rejectionReason with
      | true =>
        have hafter := afterRead_refused hreject hcheck
        rw [hafter] at hrun hupdates
        exact keeps_of_reads hrun hupdates
      | false =>
        obtain ⟨user, hok⟩ := afterRead_accepted hfind hcheck
        rw [← hrun] at hok
        have hnever : ∀ e, ((prog call).run s).1 ≠ .error e := by
          intro e he
          rw [hok] at he
          cases he
        exact ⟨fun e he => absurd he (hnever e), fun e he => absurd he (hnever e)⟩

/-- A user who is logged in is to be rejected, and the request has no reason. -/
theorem refused_logs_out :
    ¬ KeepsDocuments ⟨"u1", { UpdateUserDto.empty with status := some .rejected }, 10, .accepts⟩
      loggedIn := by
  intro h
  have hkept := (h (.badRequest "סיבת דחייה נדרשת כאשר הסטטוס הוא \"נדחה\"") rfl rfl).1
  revert hkept
  decide +kernel

end Backend.RefusedUpdate
