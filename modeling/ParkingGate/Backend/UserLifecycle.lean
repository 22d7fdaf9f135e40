-- SUMMARY: Sequential runs of the operations on an account: status, rejection reason and timestamps fit together in every state.
import ParkingGate.Backend.StoreFrames
import ParkingGate.Backend.UserFrames

/-!
# The life of an account

An account is registered as pending, and an administrator approves, rejects and archives it.
The reason of a rejection and the two timestamps follow the status, although `updateUser`
takes them from the status it has read, and `approveAllPendingUsers` writes the status
without looking at the reason.
-/

namespace Backend.UserLifecycle

open AuthService AdminService Collection UsersService

/-! ## Accounts -/

/-- A reason that is not blank. -/
def Reason (reason : Option String) : Prop :=
  ∃ text, reason = some text ∧ ∃ c ∈ text.toList, isWhiteSpace c = false

theorem reason_iff {reason : Option String} : Reason reason ↔ missingReason reason = false := by
  cases reason with
  | none => simp [Reason, missingReason]
  | some text => simp [Reason, missingReason]

/-- What goes with the status of a user. -/
structure Lifecycle (user : User) : Prop where
  reason : user.status = .rejected → Reason user.rejectionReason
  noReason : user.status ≠ .rejected → user.rejectionReason = none
  approved : user.status = .approved → user.approvedAt.isSome = true ∧ user.rejectedAt = none
  rejected : user.status = .rejected → user.rejectedAt.isSome = true ∧ user.approvedAt = none

/-- The fields `Lifecycle` speaks about. -/
def account (user : User) : UserStatus × Option String × Option Nat × Option Nat :=
  (user.status, user.rejectionReason, user.approvedAt, user.rejectedAt)

namespace Lifecycle

variable {user user' : User}

theorem congr (h : Lifecycle user) (haccount : account user' = account user) : Lifecycle user' := by
  obtain ⟨hstatus, hreason, happroved, hrejected⟩ : user'.status = user.status ∧
      user'.rejectionReason = user.rejectionReason ∧ user'.approvedAt = user.approvedAt ∧
      user'.rejectedAt = user.rejectedAt := by
    simpa [account] using haccount
  constructor
  · rw [hstatus, hreason]
    exact h.reason
  · rw [hstatus, hreason]
    exact h.noReason
  · rw [hstatus, happroved, hrejected]
    exact h.approved
  · rw [hstatus, happroved, hrejected]
    exact h.rejected

theorem of_pending (hstatus : user.status = .pending) (hreason : user.rejectionReason = none) :
    Lifecycle user := by
  constructor
  · exact fun h => nomatch hstatus.symm.trans h
  · exact fun _ => hreason
  · exact fun h => nomatch hstatus.symm.trans h
  · exact fun h => nomatch hstatus.symm.trans h

theorem document {params : CreateUserParams} (hstatus : params.status = some .pending)
    (hreason : params.rejectionReason = none) (id : String) (now : Nat) :
    Lifecycle (params.document id now) :=
  of_pending (by simp [CreateUserParams.document, hstatus]) hreason

/-- The update of `approveAllPendingUsers`. -/
theorem approve (h : Lifecycle user) (hstatus : user.status ≠ .rejected) (now : Nat) :
    Lifecycle { user with status := .approved, approvedAt := some now, rejectedAt := none } where
  reason := nofun
  noReason _ := h.noReason hstatus
  approved _ := ⟨rfl, rfl⟩
  rejected := nofun

/-- A new status, with its timestamps and its reason. -/
theorem transition (h : Lifecycle user) (status : UserStatus) {reason : Option String} (now : Nat)
    (hreason : status = .rejected → Reason reason) :
    Lifecycle { statusTimestamps status user.status now { user with status } with
      rejectionReason := if status = .rejected then reason else none } := by
  unfold statusTimestamps
  by_cases happrove : status = .approved ∧ user.status ≠ .approved
  · obtain ⟨rfl, hold⟩ := happrove
    rw [if_pos ⟨rfl, hold⟩]
    exact ⟨nofun, fun _ => rfl, fun _ => ⟨rfl, rfl⟩, nofun⟩
  rw [if_neg happrove]
  by_cases hreject : status = .rejected ∧ user.status ≠ .rejected
  · obtain ⟨rfl, hold⟩ := hreject
    rw [if_pos ⟨rfl, hold⟩]
    exact ⟨fun _ => hreason rfl, fun hne => absurd rfl hne, nofun, fun _ => ⟨rfl, rfl⟩⟩
  rw [if_neg hreject]
  -- The timestamps stay, and they were those of the status already.
  constructor
  · rintro rfl
    exact hreason rfl
  · exact fun hne => if_neg hne
  · rintro rfl
    exact h.approved (by_contra fun hne => happrove ⟨rfl, hne⟩)
  · rintro rfl
    exact h.rejected (by_contra fun hne => hreject ⟨rfl, hne⟩)

/-- The update of `updateUser`, from the user as it was read. -/
theorem updateData (h : Lifecycle user) {dto : UpdateUserDto} (now : Nat)
    (hreason : (dto.reasonRequired user && missingReason dto.rejectionReason) = false)
    (haccount : account user' = account user) : Lifecycle (dto.updateData user now user') := by
  have h' := h.congr haccount
  have hstatus : user'.status = user.status := congrArg Prod.fst haccount
  unfold UpdateUserDto.reasonRequired at hreason
  unfold UpdateUserDto.updateData
  cases hdto : dto.status with
  | some status =>
    simp only [hdto] at hreason
    have htransition : Lifecycle
        { statusTimestamps status user.status now { dto.profile user' with status } with
          rejectionReason := if status = .rejected then dto.rejectionReason else none } := by
      have hprofile : Lifecycle (dto.profile user') := h'.congr rfl
      have hold : (dto.profile user').status = user.status := hstatus
      rw [← hold]
      refine hprofile.transition status now fun hrejected => reason_iff.mpr ?_
      simpa [hrejected] using hreason
    apply htransition.congr
    simp only
    split <;> rfl
  | none =>
    simp only [hdto] at hreason
    simp only
    split
    next hsome =>
      rw [hsome, Bool.true_and] at hreason
      by_cases hrejected : user.status = .rejected
      · rw [if_pos hrejected]
        have hnew : Reason dto.rejectionReason := reason_iff.mpr (by simpa [hrejected] using hreason)
        exact ⟨fun _ => hnew, fun hne => absurd (hstatus.trans hrejected) hne, h'.approved, h'.rejected⟩
      · rw [if_neg hrejected]
        exact ⟨fun hrej => absurd (hstatus.symm.trans hrej) hrejected, fun _ => rfl, h'.approved,
          h'.rejected⟩
    next => exact h'.congr rfl

end Lifecycle

/-- The account is the same. -/
def SameAccount (user user' : User) : Prop := account user' = account user

abbrev SameAccounts : Store → Store → Prop := Rewrites SameAccount

theorem permits_sameAccount : Permits SameAccount :=
  ⟨fun _ => rfl, fun _ => rfl, fun _ => rfl, fun _ _ _ _ _ _ => rfl, fun _ _ => rfl⟩

/-! ## The invariant -/

structure Inv (s : Store) : Prop where
  keyed : Keyed User.id s.users
  users : ∀ user ∈ s.users, Lifecycle user

/-- The account is as it was read. -/
def Sees (userId : String) (existing : User) (s : Store) : Prop :=
  ∀ user ∈ s.users, user.id = userId → account user = account existing

/-- None of the listed users is rejected. -/
def NoneRejected (ids : List String) (s : Store) : Prop :=
  ∀ user ∈ s.users, user.id ∈ ids → user.status ≠ .rejected

variable {s s' : Store}

theorem Inv.same (h : Inv s) (hsame : SameAccounts s s') : Inv s' where
  keyed := hsame.keyed h.keyed
  users user' huser' := by
    obtain ⟨user, huser, -, haccount⟩ := hsame.users user' huser'
    exact (h.users user huser).congr haccount

theorem Sees.same {userId : String} {existing : User} (h : Sees userId existing s)
    (hsame : SameAccounts s s') : Sees userId existing s' := by
  intro user' huser' hid'
  obtain ⟨user, huser, hid, haccount⟩ := hsame.users user' huser'
  exact haccount.trans (h user huser (hid.symm.trans hid'))

theorem NoneRejected.same {ids : List String} (h : NoneRejected ids s) (hsame : SameAccounts s s') :
    NoneRejected ids s' := by
  intro user' huser' hid'
  obtain ⟨user, huser, hid, haccount⟩ := hsame.users user' huser'
  rw [show user'.status = user.status from congrArg Prod.fst haccount]
  exact h user huser (hid ▸ hid')

/-- One document is written. -/
theorem Inv.modifyUser (h : Inv s) {userId : String} {f : User → User}
    (hid : ∀ user, (f user).id = user.id)
    (hf : ∀ user ∈ s.users, user.id = userId → Lifecycle (f user)) :
    Inv (s.modifyUser userId f) where
  keyed := h.keyed.updateOne hid
  users user' huser' := by
    rcases h.keyed.mem_updateOne.mp huser' with ⟨huser, -⟩ | ⟨user, huser, huserId, rfl⟩
    · exact h.users user' huser
    · exact hf user huser huserId

/-! ## The operations that write accounts -/

theorem register_inv (h : Inv s) (crypto : Crypto) (dto : RegisterDto) {id : String} (salt : String)
    (now : Nat) (hfresh : id ∉ s.users.map User.id) :
    Inv ((register crypto dto id salt now).prog.run s).2 := by
  apply (register_settles crypto dto id salt now s).leaves h
  rintro _ s' ⟨⟨params, hstatus, hreason, rfl⟩, -, rfl⟩
  refine ⟨h.keyed.append hfresh, fun user huser => ?_⟩
  rcases List.mem_append.mp huser with huser | huser
  · exact h.users user huser
  · obtain rfl := List.mem_singleton.mp huser
    exact .document hstatus hreason id now

theorem findById_sees (userId : String) :
    Fallible.Triple Inv (findById userId)
      (fun found s => Inv s ∧ ∀ existing ∈ found, Lifecycle existing ∧ Sees userId existing s) Inv := by
  refine .atomically fun s h => ⟨h, fun existing hfound => ?_⟩
  obtain rfl : existing.id = userId := by simpa using List.find?_some hfound
  have hmem := List.mem_of_find?_eq_some hfound
  refine ⟨h.users existing hmem, fun user huser hid => ?_⟩
  rw [h.keyed.eq_of_key huser hmem hid]

/-- The rest of `updateUser` after the sessions are cleared. -/
theorem decide_inv (userId : String) {existing : User} (hexisting : Lifecycle existing)
    (dto : UpdateUserDto) (now : Nat) (transport : Transport) :
    Fallible.Triple (fun s => Inv s ∧ Sees userId existing s)
      (do
        if dto.reasonRequired existing && missingReason dto.rejectionReason then
          throw (.badRequest "סיבת דחייה נדרשת כאשר הסטטוס הוא \"נדחה\"")
        let some updatedUser ← UsersService.updateUser userId (dto.updateData existing now)
          | throw (.notFound "משתמש לא נמצא")
        if dto.status = some .approved ∧ existing.status ≠ .approved ∧
            updatedUser.approvalEmailSentAt.isNone then
          notifyApproval userId updatedUser now transport
        else
          return updatedUser)
      (fun _ => Inv) Inv := by
  refine .guard (fun _ => And.left) fun hreason => .bind (Q := fun _ => Inv) ?_ fun updated => ?_
  · refine .atomically fun s ⟨h, hsees⟩ => ?_
    refine h.modifyUser (fun user => (updateData_fields dto existing now user).1) ?_
    intro user huser hid
    exact hexisting.updateData now (by simpa using hreason) (hsees user huser hid)
  · cases updated with
    | none => exact .throw fun _ => id
    | some user =>
      dsimp only
      split
      · exact (RewritesOnly.notifyApproval permits_sameAccount).triple Inv.same
      · exact .pure fun _ => id

theorem updateUser_inv (userId : String) (dto : UpdateUserDto) (now : Nat) (transport : Transport) :
    Fallible.Triple Inv (AdminService.updateUser userId dto now transport) (fun _ => Inv) Inv := by
  refine .bind (findById_sees userId) fun found => ?_
  cases found with
  | none => exact .throw fun _ => And.left
  | some existing =>
    have hclear : Fallible.Triple (fun s => Inv s ∧ Sees userId existing s) (clearSession userId)
        (fun _ s => Inv s ∧ Sees userId existing s) (fun s => Inv s ∧ Sees userId existing s) :=
      (RewritesOnly.clearSession permits_sameAccount).triple fun hs hsame => ⟨hs.1.same hsame, hs.2.same hsame⟩
    refine (Fallible.Triple.assume (P := fun s => Inv s ∧ Sees userId existing s)
      (c := Lifecycle existing) fun hexisting => ?_).conseq
      (fun s hs => ⟨(hs.2 existing rfl).1, hs.1, (hs.2 existing rfl).2⟩) (fun _ _ => id) fun _ => id
    have hdecide := decide_inv userId hexisting dto now transport
    dsimp only
    split
    · exact .bind (hclear.conseq (fun _ => id) (fun _ _ => id) fun _ => And.left) fun _ => hdecide
    · exact hdecide

/-- The loop of `approveAllPendingUsers`: as long as no listed user is rejected, no user has
    a reason that the new status does not go with. -/
theorem approveEach_keeps {ids : List String} (now : Nat) {users : List User}
    (transports : List Transport) (count : Nat) (h : ∀ user ∈ users, user.id ∈ ids) :
    (approveEach now users transports count).prog.Always
      fun upd => ∀ s, Inv s ∧ NoneRejected ids s → Inv (upd s) ∧ NoneRejected ids (upd s) := by
  have hquiet {α : Type} {p : Db α} (hp : RewritesOnly SameAccount p) : p.prog.Always
      fun upd => ∀ s, Inv s ∧ NoneRejected ids s → Inv (upd s) ∧ NoneRejected ids (upd s) :=
    hp.mono fun _ hupd s hs => ⟨hs.1.same (hupd s), hs.2.same (hupd s)⟩
  induction users generalizing transports count with
  | nil => trivial
  | cons user users ih =>
    have hlisted := h user List.mem_cons_self
    refine Fallible.always_bind ?_ fun _ => ih _ _ fun u hu => h u (List.mem_cons_of_mem _ hu)
    refine Fallible.always_bind (p := findByIdAndUpdate _ _) ⟨fun s hs => ?_, fun _ => trivial⟩
      fun _ => hquiet ?_
    · refine ⟨hs.1.modifyUser (fun _ => rfl) fun u hu hid => ?_, fun u hu hid => ?_⟩
      · exact (hs.1.users u hu).approve (hs.2 u hu (hid ▸ hlisted)) now
      · rcases hs.1.keyed.mem_updateOne.mp hu with ⟨hu, -⟩ | ⟨_, -, -, rfl⟩
        · exact hs.2 u hu hid
        · exact nofun
    · exact .bind
        (Fallible.always_tryCatch (RewritesOnly.notify permits_sameAccount fun _ => trivial)
          fun _ => trivial)
        fun _ => .bind (RewritesOnly.clearSession permits_sameAccount)
          fun _ => RewritesOnly.clearActiveDevice permits_sameAccount

theorem approveAllPendingUsers_inv (now : Nat) (transports : List Transport) :
    Fallible.Triple Inv (approveAllPendingUsers now transports) (fun _ => Inv) Inv := by
  refine .bind (Q := fun pendingUsers s => Inv s ∧ NoneRejected (pendingUsers.map User.id) s) ?_ ?_
  · refine .atomically fun s h => ⟨h, fun user huser hid hrejected => ?_⟩
    obtain ⟨listed, hlisted, hid⟩ := List.mem_map.mp hid
    have hpending := List.mem_mergeSort.mp (List.mem_of_mem_take hlisted)
    rw [List.mem_filter] at hpending
    obtain rfl := h.keyed.eq_of_key hpending.1 huser hid
    simp [hrejected] at hpending
  · intro pendingUsers
    exact (Fallible.Triple.of_always (approveEach_keeps now transports 0 fun user huser =>
      List.mem_map_of_mem huser)).conseq (fun _ => id) (fun _ _ => And.left) fun _ => And.left

/-! ## Runs -/

inductive Op where
  | register (dto : RegisterDto) (id salt : String)
  | updateMe (userId : String) (dto : UpdateMeDto)
  | updateUser (userId : String) (dto : UpdateUserDto) (transport : Transport)
  | updateUserRole (userId : String) (role : UserRole)
  | resetPassword (userId : String) (dto : ResetPasswordDto) (salt : String)
  | approveAllPendingUsers (transports : List Transport)
  | sendApprovalEmail (userId : String) (transport : Transport)

/-- One operation, from its first step to its last. -/
def Op.run (crypto : Crypto) (now : Nat) (s : Store) : Op → Store
  | register dto id salt               => ((AuthService.register crypto dto id salt now).prog.run s).2
  | updateMe userId dto                => ((AuthService.updateMe userId dto).prog.run s).2
  | updateUser userId dto transport    =>
    ((AdminService.updateUser userId dto now transport).prog.run s).2
  | updateUserRole userId role         => ((AdminService.updateUserRole userId role).prog.run s).2
  | resetPassword userId dto salt      =>
    ((AdminService.resetPassword crypto userId dto salt).prog.run s).2
  | approveAllPendingUsers transports  =>
    ((AdminService.approveAllPendingUsers now transports).prog.run s).2
  | sendApprovalEmail userId transport =>
    ((AdminService.sendApprovalEmail userId now transport).prog.run s).2

/-- The `_id` that a registration draws is not in use. -/
def Op.Fresh (s : Store) : Op → Prop
  | register _ id _ => id ∉ s.users.map User.id
  | _               => True

instance (s : Store) : ∀ op : Op, Decidable (op.Fresh s) := by
  intro op
  cases op <;> unfold Op.Fresh <;> infer_instance

/-- An operation with the time it starts at. -/
def step (crypto : Crypto) (s : Store) (call : Nat × Op) : Option Store :=
  if call.2.Fresh s then some (call.2.run crypto call.1 s) else none

theorem Inv.run {crypto : Crypto} (h : Inv s) (now : Nat) {op : Op} (hfresh : op.Fresh s) :
    Inv (op.run crypto now s) := by
  cases op with
  | register dto id salt => exact register_inv h crypto dto salt now hfresh
  | updateMe userId dto => exact ((RewritesOnly.updateMe permits_sameAccount).triple Inv.same).leaves h
  | updateUser userId dto transport => exact (updateUser_inv userId dto now transport).leaves h
  | updateUserRole userId role => exact ((RewritesOnly.updateUserRole permits_sameAccount fun _ => rfl).triple Inv.same).leaves h
  | resetPassword userId dto salt => exact ((RewritesOnly.adminResetPassword permits_sameAccount fun _ => rfl).triple Inv.same).leaves h
  | approveAllPendingUsers transports => exact (approveAllPendingUsers_inv now transports).leaves h
  | sendApprovalEmail userId transport => exact ((RewritesOnly.sendApprovalEmail permits_sameAccount).triple Inv.same).leaves h

theorem Inv.step {crypto : Crypto} (h : Inv s) {call : Nat × Op}
    (hstep : step crypto s call = some s') : Inv s' := by
  obtain ⟨hfresh, heq⟩ := Option.ite_none_right_eq_some.mp hstep
  obtain rfl := Option.some.inj heq
  exact h.run call.1 hfresh

/-- In every run from the empty store, what goes with the status of a user is there in every
    state. -/
theorem accounts_fit (crypto : Crypto) (ops : List (Nat × Op)) :
    Trace.AllStates (step crypto) (fun s => ∀ user ∈ s.users, Lifecycle user) Store.empty ops := by
  have hinv : Trace.AllStates (step crypto) Inv Store.empty ops :=
    Trace.allStates_of_allSteps (C := fun _ _ => True) (fun _ _ _ h _ hstep => h.step hstep)
      ⟨List.nodup_nil, by simp [Store.empty]⟩ Trace.allSteps_true
  exact hinv.mono fun _ h => h.users

end Backend.UserLifecycle
