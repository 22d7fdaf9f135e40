-- SUMMARY: One bulk approval among overlapping updates of users: no decision is overridden as long as none is taken about a user who is still on the list.
import ParkingGate.Backend.UserLifecycle

/-!
# Bulk approval

`approveAllPendingUsers` reads the list of pending users once and then writes the status of
one user after the other, without looking at the user again. A user who is rejected or
archived while still on the list is approved all the same, and keeps the reason of the
rejection. The reason also survives when `updateUser` edits it alone, after it has read the
user as rejected and another call has approved the user, or made it pending in time for the
list.
-/

namespace Backend.BulkApproval

open AdminService Collection UsersService UserLifecycle

/-! ## Calls -/

/-- A call of `updateUser`. -/
structure UpdateCall where
  userId : String
  dto : UpdateUserDto
  now : Nat
  transport : Transport

namespace UpdateCall

variable (call : UpdateCall) (existing : User)

/-- The call edits the reason and leaves the status. -/
def EditsReason : Prop := call.dto.status = none ∧ call.dto.rejectionReason.isSome = true

/-- `updateUser` from the write on. -/
def write : Db User := do
  let some updatedUser ←
      UsersService.updateUser call.userId (call.dto.updateData existing call.now)
    | throw (.notFound "משתמש לא נמצא")
  if call.dto.status = some .approved ∧ existing.status ≠ .approved ∧
      updatedUser.approvalEmailSentAt.isNone then
    notifyApproval call.userId updatedUser call.now call.transport
  else
    return updatedUser

/-- `updateUser` from the check of the reason on. -/
def check : Db User := do
  if call.dto.reasonRequired existing && missingReason call.dto.rejectionReason then
    throw (.badRequest "סיבת דחייה נדרשת כאשר הסטטוס הוא \"נדחה\"")
  call.write existing

def afterRead : Db User :=
  if call.dto.status.any forcesLogout then do
    clearSession call.userId
    call.check existing
  else call.check existing

theorem updateUser_eq :
    AdminService.updateUser call.userId call.dto call.now call.transport = (do
      match ← findById call.userId with
      | some existing => call.afterRead existing
      | none          => throw (.notFound "משתמש לא נמצא")) := by
  unfold AdminService.updateUser
  congr 1
  funext found
  cases found with
  | none => rfl
  | some existing =>
    unfold afterRead
    dsimp only
    split <;> rfl

end UpdateCall

def approve (now : Nat) (user : User) : User :=
  { user with status := .approved, approvedAt := some now, rejectedAt := none }

/-- The rest of the loop of `approveAllPendingUsers`, before it writes the status of the next
    of the users. -/
inductive Approving (now : Nat) : List User → Prog Store (Except HttpException Nat) → Prop
  | next (users transports count) : Approving now users (approveEach now users transports count).prog
  | quiet {users upd next} (hupd : ∀ s, SameAccounts s (upd s))
      (hnext : ∀ s, Approving now users (next s)) : Approving now users (.act upd next)

theorem approveEach_cons (now : Nat) (user : User) (users : List User) (transports : List Transport)
    (count : Nat) :
    ∃ next, (approveEach now (user :: users) transports count).prog =
        .act (Store.modifyUser user.id (approve now)) next ∧ ∀ s, Approving now users (next s) := by
  have hfields {f : User → User} (hid : ∀ user, (f user).id = user.id)
      (haccount : ∀ user, account (f user) = account user) (s : Store) :
      SameAccounts s (s.modifyUser user.id f) :=
    .modifyUser permits_sameAccount.refl hid haccount user.id s
  have hend : ∀ s : Store, Approving now users (Fallible.prog (do
      clearSession user.id
      clearActiveDevice user.id
      approveEach now users transports.tail (count + 1))) := fun _ =>
    .quiet (hfields (fun _ => rfl) fun _ => rfl) fun _ =>
      .quiet (hfields (fun _ => rfl) fun _ => rfl) fun _ => .next users transports.tail (count + 1)
  refine ⟨_, rfl, fun s => ?_⟩
  cases transports.headD .notConfigured with
  | notConfigured =>
    exact .quiet (hfields (fun _ => rfl) fun _ => rfl) hend
  | accepts =>
    exact .quiet (fun _ => .of_users permits_sameAccount.refl rfl) fun _ =>
      .quiet (hfields (fun _ => rfl) fun _ => rfl) hend
  | fails => exact hend s

theorem approveAllPendingUsers_eq (now : Nat) (transports : List Transport) :
    (approveAllPendingUsers now transports).prog = .act id fun s =>
      (approveEach now
        (((s.users.filter (·.status == .pending)).mergeSort
          fun u v => v.createdAt ≤ u.createdAt).take 10000) transports 0).prog := rfl

/-! ## The pool -/

/-- The bulk approval is `none`, the updates are the others. -/
abbrev Result {ι : Type} : Option ι → Type
  | none   => Except HttpException Nat
  | some _ => Except HttpException User

abbrev Calls (ι : Type) := Pool Store (Result (ι := ι))

variable {ι : Type} (call : ι → UpdateCall) (now : Nat) (transports : List Transport)

def calls : Calls ι
  | none   => (approveAllPendingUsers now transports).prog
  | some i =>
    (AdminService.updateUser (call i).userId (call i).dto (call i).now (call i).transport).prog

/-- The user is on the list, and has not been approved yet. -/
def Awaits (P : Calls ι) (userId : String) : Prop :=
  ∃ users, Approving now users (P none) ∧ userId ∈ users.map User.id

/-- The call has read the user as rejected, and is about to write the reason alone. -/
def Holds (P : Calls ι) (i : ι) (userId : String) : Prop :=
  (call i).userId = userId ∧ (call i).EditsReason ∧
    ∃ existing, existing.status = .rejected ∧ P (some i) = ((call i).write existing).prog

/-- The update is about to set the status of its user. -/
def SetsStatus (P : Calls ι) (i : ι) (status : UserStatus) : Prop :=
  (call i).dto.status = some status ∧ ∃ existing, P (some i) = ((call i).write existing).prog

def decided (status : UserStatus) : Bool := status = .rejected ∨ status = .archived

/-- No user on the list is rejected or archived, and no user whose reason is about to be
    written alone is approved, or made pending before the list is read. -/
def Undisturbed (c : Calls ι × Store) (j : Option ι) : Prop :=
  ∀ i status, j = some i → SetsStatus call c.1 i status →
    (decided status = true → ¬ Awaits now c.1 (call i).userId) ∧
      (status = .approved ∨
          status = .pending ∧ c.1 none = (approveAllPendingUsers now transports).prog →
        ∀ k, ¬ Holds call c.1 k (call i).userId)

/-- The bulk approval leaves the status of rejected and archived users as it is. -/
def LeavesDecided [DecidableEq ι] (c : Calls ι × Store) (j : Option ι) : Prop :=
  j = none → ∀ c', Pool.step c j = some c' → ∀ user ∈ c.2.users, decided user.status = true →
    ∃ user' ∈ c'.2.users, user'.id = user.id ∧ user'.status = user.status

def NoApprovedReason (c : Calls ι × Store) : Prop :=
  ∀ user ∈ c.2.users, user.status = .approved → user.rejectionReason = none

/-! ## What a write does to the status -/

section Writes

variable {dto : UpdateUserDto} {existing user : User} {time : Nat}

theorem updateData_status :
    (dto.updateData existing time user).status = dto.status.getD user.status := by
  unfold UpdateUserDto.updateData
  cases dto.status with
  | none =>
    simp only
    split <;> rfl
  | some status =>
    obtain ⟨approvedAt, rejectedAt, htimes⟩ :=
      statusTimestamps_fields status existing.status time { dto.profile user with status }
    simp only [htimes]
    split <;> rfl

theorem updateData_reason :
    (dto.updateData existing time user).rejectionReason =
      match dto.status with
      | some status => if status = .rejected then dto.rejectionReason else none
      | none        =>
        if dto.rejectionReason.isSome then
          if existing.status = .rejected then dto.rejectionReason else none
        else user.rejectionReason := by
  unfold UpdateUserDto.updateData
  cases dto.status with
  | none =>
    simp only
    split <;> rfl
  | some status => rfl

end Writes

/-! ## Users who are to have no reason -/

/-- The user is approved or will be, as far as can be told: before the list is read every
    pending user may be on it, and then it is known. -/
def Due (list : Option (List User)) (user : User) : Prop :=
  user.status = .approved ∨
    match list with
    | none       => user.status = .pending
    | some users => user.id ∈ users.map User.id

/-- No document of the user is due. -/
def NotDue (list : Option (List User)) (userId : String) (s : Store) : Prop :=
  ∀ user ∈ s.users, user.id = userId → ¬ Due list user

/-- No listed user is rejected or archived, and no user who is due has a reason. -/
structure Fits (list : Option (List User)) (s : Store) : Prop where
  keyed : Keyed User.id s.users
  undecided : ∀ users ∈ list, ∀ user ∈ s.users, user.id ∈ users.map User.id → decided user.status = false
  noReason : ∀ user ∈ s.users, Due list user → user.rejectionReason = none

section Frames

variable {list : Option (List User)} {s s' : Store} {userId : String} {user user' : User}

theorem Due.congr (h : Due list user') (hid : user'.id = user.id)
    (hstatus : user'.status = user.status) : Due list user := by
  unfold Due at h ⊢
  rwa [hid, hstatus] at h

theorem due_updateData {dto : UpdateUserDto} {existing : User} {time : Nat} :
    Due list (dto.updateData existing time user) ↔ dto.status.getD user.status = .approved ∨
      match list with
      | none       => dto.status.getD user.status = .pending
      | some users => user.id ∈ users.map User.id := by
  simp only [Due, updateData_status, (updateData_fields dto existing time user).1]

theorem NotDue.same (h : NotDue list userId s) (hsame : SameAccounts s s') :
    NotDue list userId s' := by
  intro user' huser' hid' hdue
  obtain ⟨user, huser, hid, haccount⟩ := hsame.users user' huser'
  exact h user huser (hid ▸ hid') (hdue.congr hid (congrArg Prod.fst haccount))

theorem Fits.same (h : Fits list s) (hsame : SameAccounts s s') : Fits list s' where
  keyed := hsame.keyed h.keyed
  undecided users hlist user' huser' hid' := by
    obtain ⟨user, huser, hid, haccount⟩ := hsame.users user' huser'
    rw [show user'.status = user.status from congrArg Prod.fst haccount]
    exact h.undecided users hlist user huser (hid ▸ hid')
  noReason user' huser' hdue := by
    obtain ⟨user, huser, hid, haccount⟩ := hsame.users user' huser'
    rw [show user'.rejectionReason = user.rejectionReason from congrArg (fun a => a.2.1) haccount]
    exact h.noReason user huser (hdue.congr hid (congrArg Prod.fst haccount))

/-- The list is read: the users on it were pending. -/
theorem Fits.readList (h : Fits none s) (users : List User)
    (husers : ∀ user ∈ users, user ∈ s.users ∧ user.status = .pending) :
    Fits (some users) s ∧ ∀ userId, NotDue none userId s → NotDue (some users) userId s := by
  have hpending : ∀ user ∈ s.users, user.id ∈ users.map User.id → user.status = .pending := by
    intro user huser hid
    obtain ⟨listed, hlisted, hid⟩ := List.mem_map.mp hid
    obtain ⟨hmem, hstatus⟩ := husers listed hlisted
    obtain rfl := h.keyed.eq_of_key hmem huser hid
    exact hstatus
  have hdue : ∀ user ∈ s.users, Due (some users) user → Due none user := fun user huser =>
    Or.imp_right (hpending user huser)
  refine ⟨⟨h.keyed, ?_, fun user huser hnew => ?_⟩, fun userId hold user huser hid hnew => ?_⟩
  · rintro _ ⟨⟩ user huser hid
    rw [hpending user huser hid]
    rfl
  · exact h.noReason user huser (hdue user huser hnew)
  · exact hold user huser hid (hdue user huser hnew)

/-- The next user on the list is approved. -/
theorem Fits.approveNext {users : List User} (h : Fits (some (user :: users)) s) (now : Nat) :
    Fits (some users) (s.modifyUser user.id (approve now)) ∧
      ∀ userId, NotDue (some (user :: users)) userId s →
        NotDue (some users) userId (s.modifyUser user.id (approve now)) := by
  have hdue : ∀ u, Due (some users) u → Due (some (user :: users)) u := fun _ =>
    Or.imp_right (List.mem_cons_of_mem _)
  have hlisted : ∀ u : User, u.id = user.id → Due (some (user :: users)) u := fun u hid =>
    .inr (by simp [hid])
  refine ⟨⟨h.keyed.updateOne fun _ => rfl, ?_, ?_⟩, ?_⟩
  · rintro _ ⟨⟩ u hu hid
    rcases of_mem_updateOne hu with hu | ⟨old, -, -, rfl⟩
    · exact h.undecided _ rfl u hu (List.mem_cons_of_mem _ hid)
    · rfl
  · intro u hu hnew
    rcases of_mem_updateOne hu with hu | ⟨old, hold, hmatch, rfl⟩
    · exact h.noReason u hu (hdue u hnew)
    · exact h.noReason old hold (hlisted old (beq_iff_eq.mp hmatch))
  · intro userId hnot u hu hid hnew
    rcases of_mem_updateOne hu with hu | ⟨old, hold, hmatch, rfl⟩
    · exact hnot u hu hid (hdue u hnew)
    · exact hnot old hold hid (hlisted old (beq_iff_eq.mp hmatch))

section Update

variable {dto : UpdateUserDto} {existing : User} {time : Nat}

/-- An update without a status makes nobody due. -/
theorem Due.of_updateData (hdue : Due list (dto.updateData existing time user))
    (hstatus : dto.status = none) : Due list user := by
  apply hdue.congr (updateData_fields dto existing time user).1
  rw [updateData_status, hstatus]
  rfl

/-- An update makes a user due by the status it sets alone, as the list stays. -/
theorem Due.of_updateData_some (hdue : Due list (dto.updateData existing time user))
    {status : UserStatus} (hstatus : dto.status = some status) :
    (status = .approved ∨ status = .pending ∧ list = none) ∨
      ∃ users, list = some users ∧ user.id ∈ users.map User.id := by
  rcases due_updateData.mp hdue with happroved | hlisted
  · exact .inl (.inl (by simpa [hstatus] using happroved))
  · cases list with
    | none => exact .inl (.inr ⟨by simpa [hstatus] using hlisted, rfl⟩)
    | some users => exact .inr ⟨users, rfl, hlisted⟩

/-- The write of an update, if it does not decide about a listed user, and does not write a
    reason alone for a user who is due. -/
theorem Fits.update (h : Fits list s)
    (hopen : ∀ users, list = some users → userId ∈ users.map User.id →
      ∀ status, dto.status = some status → decided status = false)
    (hheld : dto.status = none → dto.rejectionReason.isSome = true →
      existing.status = .rejected → NotDue list userId s) :
    Fits list (s.modifyUser userId (dto.updateData existing time)) where
  keyed := h.keyed.updateOne fun user => (updateData_fields dto existing time user).1
  undecided users hlist user' huser' hmem := by
    rcases of_mem_updateOne huser' with huser | ⟨user, huser, hmatch, rfl⟩
    · exact h.undecided users hlist user' huser hmem
    · rw [(updateData_fields dto existing time user).1] at hmem
      rw [updateData_status]
      cases hstatus : dto.status with
      | none => exact h.undecided users hlist user huser hmem
      | some status => exact hopen users hlist (beq_iff_eq.mp hmatch ▸ hmem) status hstatus
  noReason user' huser' hdue := by
    rcases of_mem_updateOne huser' with huser | ⟨user, huser, hmatch, rfl⟩
    · exact h.noReason user' huser hdue
    · rw [updateData_reason]
      cases hstatus : dto.status with
      | some status =>
        apply if_neg
        rintro rfl
        rcases hdue.of_updateData_some hstatus with hsets | ⟨users, hlist, hmem⟩
        · simp at hsets
        · have hfalse := hopen users hlist (beq_iff_eq.mp hmatch ▸ hmem) .rejected hstatus
          simp [decided] at hfalse
      | none =>
        have hold := hdue.of_updateData hstatus
        simp only
        split
        next hsome =>
          exact if_neg fun hrejected =>
            hheld hstatus hsome hrejected user huser (beq_iff_eq.mp hmatch) hold
        next => exact h.noReason user huser hold

/-- A user becomes due only by an update of this user that sets such a status. -/
theorem NotDue.update {other : String} (hnot : NotDue list other s)
    (hfree : ∀ status, dto.status = some status →
      status = .approved ∨ status = .pending ∧ list = none → userId ≠ other) :
    NotDue list other (s.modifyUser userId (dto.updateData existing time)) := by
  intro user' huser' hid hdue
  rcases of_mem_updateOne huser' with huser | ⟨user, huser, hmatch, rfl⟩
  · exact hnot user' huser hid hdue
  · rw [(updateData_fields dto existing time user).1] at hid
    cases hstatus : dto.status with
    | none => exact hnot user huser hid (hdue.of_updateData hstatus)
    | some status =>
      rcases hdue.of_updateData_some hstatus with hsets | ⟨users, rfl, hlisted⟩
      · exact hfree status hstatus hsets ((beq_iff_eq.mp hmatch).symm.trans hid)
      · exact hnot user huser hid (.inr hlisted)

end Update

end Frames

/-! ## The invariant -/

/-- Where the bulk approval stands, with the users on its list. -/
inductive Listing (now : Nat) (transports : List Transport) :
    Option (List User) → Prog Store (Except HttpException Nat) → Prop
  | before : Listing now transports none (approveAllPendingUsers now transports).prog
  | after {users p} (h : Approving now users p) : Listing now transports (some users) p

/-- A step of the bulk approval reads the list, approves the next user on it, or leaves the
    accounts alone. -/
theorem Listing.act_cases {now : Nat} {transports : List Transport} {list : Option (List User)}
    {upd : Store → Store} {next : Store → Prog Store (Except HttpException Nat)}
    (h : Listing now transports list (.act upd next)) :
    (list = none ∧ upd = id ∧ ∀ s, ∃ users : List User,
        (∀ user ∈ users, user ∈ s.users ∧ user.status = .pending) ∧
        Listing now transports (some users) (next s)) ∨
      (∃ users, list = some users ∧
        ∀ s, SameAccounts s (upd s) ∧ Listing now transports (some users) (next s)) ∨
      ∃ user users, list = some (user :: users) ∧ upd = Store.modifyUser user.id (approve now) ∧
        ∀ s, Listing now transports (some users) (next s) := by
  generalize hp : Prog.act upd next = p at h
  cases h with
  | before =>
    obtain ⟨rfl, rfl⟩ := Prog.act.inj (hp.trans (approveAllPendingUsers_eq now transports))
    refine .inl ⟨rfl, rfl, fun s => ⟨_, fun user huser => ?_, .after (.next _ transports 0)⟩⟩
    simpa using List.mem_mergeSort.mp (List.mem_of_mem_take huser)
  | @after users _ happroving =>
    cases happroving with
    | quiet hupd hnext =>
      obtain ⟨rfl, rfl⟩ := Prog.act.inj hp
      exact .inr (.inl ⟨users, rfl, fun s => ⟨hupd s, .after (hnext s)⟩⟩)
    | next transports' count =>
      cases users with
      | nil => cases hp
      | cons user users =>
        obtain ⟨next', hprog, hnext⟩ := approveEach_cons now user users transports' count
        obtain ⟨rfl, rfl⟩ := Prog.act.inj (hp.trans hprog)
        exact .inr (.inr ⟨user, users, rfl, rfl, fun s => .after (hnext s)⟩)

/-- Where a call of `updateUser` stands. A reason that is about to be written alone is that of
    a user who is not due. -/
inductive Stage (call : UpdateCall) (list : Option (List User)) (s : Store) :
    Prog Store (Except HttpException User) → Prop
  | start : Stage call list s
      (AdminService.updateUser call.userId call.dto call.now call.transport).prog
  | clearing (existing) (hforced : call.dto.status.any forcesLogout = true) :
      Stage call list s (Fallible.prog (do clearSession call.userId; call.check existing))
  | writing (existing)
      (hheld : call.EditsReason → existing.status = .rejected → NotDue list call.userId s) :
      Stage call list s (call.write existing).prog
  | quiet {p} (hp : p.Always fun upd => ∀ s, SameAccounts s (upd s)) : Stage call list s p

/-- What holds as long as no step disturbs. -/
structure Inv (list : Option (List User)) (c : Calls ι × Store) : Prop where
  bulk : Listing now transports list (c.1 none)
  fits : Fits list c.2
  stage : ∀ i, Stage (call i) list c.2 (c.1 (some i))

theorem UpdateCall.write_prog (call : UpdateCall) (existing : User) :
    ∃ next, (call.write existing).prog =
        .act (Store.modifyUser call.userId (call.dto.updateData existing call.now)) next ∧
      ∀ s, (next s).Always fun upd => ∀ s, SameAccounts s (upd s) := by
  refine ⟨_, rfl, fun s => ?_⟩
  have hrest : ∀ updated : Option User, RewritesOnly SameAccount (do
      let some updatedUser := updated
        | throw (.notFound "משתמש לא נמצא")
      if call.dto.status = some .approved ∧ existing.status ≠ .approved ∧
          updatedUser.approvalEmailSentAt.isNone then
        notifyApproval call.userId updatedUser call.now call.transport
      else
        return updatedUser : Db User) := by
    intro updated
    cases updated with
    | none => trivial
    | some user =>
      dsimp only
      split
      · exact .notifyApproval permits_sameAccount
      · trivial
  exact hrest _

namespace Stage

variable {call : UpdateCall} {list list' : Option (List User)} {s s' : Store}
  {p : Prog Store (Except HttpException User)}

/-- Only a call that holds its user depends on the store. -/
theorem mono (h : Stage call list s p)
    (hheld : call.EditsReason → (∃ existing, existing.status = .rejected ∧
      p = (call.write existing).prog) → NotDue list call.userId s → NotDue list' call.userId s') :
    Stage call list' s' p := by
  cases h with
  | start => exact .start
  | clearing existing hforced => exact .clearing existing hforced
  | writing existing hold =>
    exact .writing existing fun hedits hrejected =>
      hheld hedits ⟨existing, hrejected, rfl⟩ (hold hedits hrejected)
  | quiet hp => exact .quiet hp

theorem check {existing : User}
    (h : call.EditsReason → existing.status = .rejected → NotDue list call.userId s) :
    Stage call list s (call.check existing).prog := by
  unfold UpdateCall.check
  split
  · exact .quiet trivial
  · exact .writing existing h

variable (call list) in
/-- The lookup is followed by the clearing of the session or the check of the reason. -/
theorem start_prog : ∃ next, (AdminService.updateUser call.userId call.dto call.now call.transport).prog =
      .act id next ∧ ∀ s, Fits list s → Stage call list s (next s) := by
  rw [call.updateUser_eq, findById, Fallible.prog_atomically_bind]
  refine ⟨_, rfl, fun s hfits => ?_⟩
  dsimp only
  cases hfind : s.users.find? (·.id == call.userId) with
  | none => exact .quiet trivial
  | some existing =>
    dsimp only
    unfold UpdateCall.afterRead
    split
    next hforced => exact .clearing existing hforced
    next =>
      refine .check fun _ hrejected user huser hid hdue => ?_
      have hfound : existing.id = call.userId := by simpa using List.find?_some hfind
      obtain rfl : user = existing := hfits.keyed.eq_of_key huser
        (List.mem_of_find?_eq_some hfind) (hid.trans hfound.symm)
      -- A rejected user is due only if listed, and listed users are not rejected.
      rcases hdue with happroved | hlisted
      · cases hrejected.symm.trans happroved
      · cases list with
        | none => cases hrejected.symm.trans hlisted
        | some users =>
          have hopen := hfits.undecided users rfl user huser hlisted
          simp [decided, hrejected] at hopen

variable (list) in
theorem clearing_prog (existing : User) (hforced : call.dto.status.any forcesLogout = true) :
    ∃ upd next, Fallible.prog (do clearSession call.userId; call.check existing) = .act upd next ∧
      (∀ s, SameAccounts s (upd s)) ∧ ∀ s t, Stage call list t (next s) := by
  have hclear : ∀ s, SameAccounts s (s.modifyUser call.userId User.clearFields) :=
    .modifyUser (f := User.clearFields) permits_sameAccount.refl (fun _ => rfl)
      permits_sameAccount.clearFields call.userId
  refine ⟨_, _, rfl, hclear, fun s t => ?_⟩
  refine check fun hedits => ?_
  rw [hedits.1] at hforced
  cases hforced

end Stage

namespace Inv

variable {call now transports} {list list' : Option (List User)} {c c' : Calls ι × Store}

theorem init {s : Store} (h : UserLifecycle.Inv s) :
    Inv call now transports none (calls call now transports, s) where
  bulk := .before
  fits :=
    { keyed := h.keyed
      undecided := fun _ hnone => nomatch hnone
      noReason := fun user huser hdue => (h.users user huser).noReason fun hrejected => by
        simp [Due, hrejected] at hdue }
  stage _ := .start

theorem noApprovedReason (h : Inv call now transports list c) : NoApprovedReason c :=
  fun user huser happroved => h.fits.noReason user huser (.inl happroved)

variable [DecidableEq ι]

private theorem moveBulk (h : Inv call now transports list c)
    {p : Prog Store (Except HttpException Nat)} {s' : Store} (hp : Listing now transports list' p)
    (hfits : Fits list' s')
    (hheld : ∀ userId, NotDue list userId c.2 → NotDue list' userId s') :
    Inv call now transports list' (Function.update c.1 none p, s') where
  bulk := by simpa using hp
  fits := hfits
  stage i := by
    simp only [ne_eq, reduceCtorEq, not_false_eq_true, Function.update_of_ne]
    exact (h.stage i).mono fun _ _ => hheld (call i).userId

private theorem moveCall (h : Inv call now transports list c) {i : ι}
    {p : Prog Store (Except HttpException User)} {s' : Store} (hp : Stage (call i) list s' p)
    (hfits : Fits list s')
    (hheld : ∀ k, Holds call c.1 k (call k).userId → NotDue list (call k).userId c.2 →
      NotDue list (call k).userId s') :
    Inv call now transports list (Function.update c.1 (some i) p, s') where
  bulk := by
    simp only [ne_eq, reduceCtorEq, not_false_eq_true, Function.update_of_ne]
    exact h.bulk
  fits := hfits
  stage k := by
    by_cases hki : k = i
    · subst hki
      simpa using hp
    · simp only [ne_eq, Option.some.injEq, hki, not_false_eq_true, Function.update_of_ne]
      exact (h.stage k).mono fun hedits hwrite => hheld k ⟨rfl, hedits, hwrite⟩

private theorem stepBulk (h : Inv call now transports list c) (hstep : Pool.step c none = some c') :
    ∃ list', Inv call now transports list' c' := by
  obtain ⟨upd, next, hj, rfl⟩ := Pool.step_eq_some hstep
  have hbulk := h.bulk
  rw [hj] at hbulk
  rcases hbulk.act_cases with ⟨rfl, rfl, hread⟩ | ⟨users, rfl, hquiet⟩ | ⟨user, users, rfl, rfl, hnext⟩
  · obtain ⟨users, husers, hlisting⟩ := hread c.2
    obtain ⟨hfits, hheld⟩ := h.fits.readList users husers
    exact ⟨_, h.moveBulk hlisting hfits hheld⟩
  · obtain ⟨hsame, hlisting⟩ := hquiet c.2
    exact ⟨_, h.moveBulk hlisting (h.fits.same hsame) fun _ hold => hold.same hsame⟩
  · obtain ⟨hfits, hheld⟩ := h.fits.approveNext now
    exact ⟨_, h.moveBulk (hnext c.2) hfits hheld⟩

/-- An update writes the user it has read. -/
private theorem write (h : Inv call now transports list c) {i : ι} {existing : User}
    {p : Prog Store (Except HttpException User)}
    (hcond : Undisturbed call now transports c (some i))
    (hi : c.1 (some i) = ((call i).write existing).prog)
    (hheld : (call i).EditsReason → existing.status = .rejected → NotDue list (call i).userId c.2)
    (hp : p.Always fun upd => ∀ s, SameAccounts s (upd s)) :
    Inv call now transports list (Function.update c.1 (some i) p,
      c.2.modifyUser (call i).userId ((call i).dto.updateData existing (call i).now)) := by
  have hcond : ∀ status, (call i).dto.status = some status → _ := fun status hstatus =>
    hcond i status rfl ⟨hstatus, existing, hi⟩
  have hbulk := h.bulk
  generalize hnone : c.1 none = q at hbulk
  refine h.moveCall (.quiet hp) (h.fits.update ?_ fun hnone hsome => hheld ⟨hnone, hsome⟩)
    fun k hholds hold => hold.update fun status hstatus hsets hsame => ?_
  · rintro users rfl hmem status hstatus
    obtain ⟨-⟩ | ⟨happroving⟩ := hbulk
    exact Bool.eq_false_iff.mpr fun hdecided =>
      (hcond status hstatus).1 hdecided ⟨users, hnone ▸ happroving, hmem⟩
  · refine (hcond status hstatus).2 (hsets.imp_right fun ⟨hpending, hlist⟩ => ⟨hpending, ?_⟩) k
      (hsame ▸ hholds)
    subst hlist
    obtain ⟨-⟩ := hbulk
    exact hnone

private theorem stepCall (h : Inv call now transports list c) {i : ι}
    (hcond : Undisturbed call now transports c (some i)) (hstep : Pool.step c (some i) = some c') :
    Inv call now transports list c' := by
  obtain ⟨upd, next, hj, rfl⟩ := Pool.step_eq_some hstep
  have hstage := h.stage i
  generalize hp : c.1 (some i) = p at hstage
  cases hstage with
  | start =>
    obtain ⟨next', hprog, hnext⟩ := Stage.start_prog (call i) list
    obtain ⟨rfl, rfl⟩ := Prog.act.inj (hj.symm.trans (hp.trans hprog))
    exact h.moveCall (hnext c.2 h.fits) h.fits fun _ _ => id
  | clearing existing hforced =>
    obtain ⟨upd', next', hprog, hsame, hnext⟩ := Stage.clearing_prog list existing hforced
    obtain ⟨rfl, rfl⟩ := Prog.act.inj (hj.symm.trans (hp.trans hprog))
    exact h.moveCall (hnext c.2 _) (h.fits.same (hsame c.2)) fun _ _ hold => hold.same (hsame c.2)
  | writing existing hheld =>
    obtain ⟨next', hprog, hnext⟩ := (call i).write_prog existing
    obtain ⟨rfl, rfl⟩ := Prog.act.inj (hj.symm.trans (hp.trans hprog))
    exact h.write hcond hp hheld (hnext c.2)
  | quiet hquiet =>
    rw [hp.symm.trans hj] at hquiet
    exact h.moveCall (.quiet (hquiet.2 c.2)) (h.fits.same (hquiet.1 c.2)) fun _ _ hold =>
      hold.same (hquiet.1 c.2)

theorem step {j : Option ι} (h : Inv call now transports list c)
    (hcond : Undisturbed call now transports c j) (hstep : Pool.step c j = some c') :
    ∃ list', Inv call now transports list' c' := by
  cases j with
  | none => exact h.stepBulk hstep
  | some i => exact ⟨list, h.stepCall hcond hstep⟩

/-- No status is written but that of the next user on the list. -/
theorem leavesDecided (h : Inv call now transports list c) (j : Option ι) : LeavesDecided c j := by
  rintro rfl c' hstep user huser hdecided
  obtain ⟨upd, next, hj, rfl⟩ := Pool.step_eq_some hstep
  have hkept : SameAccounts c.2 (upd c.2) → ∃ user' ∈ (upd c.2).users, user'.id = user.id ∧
      user'.status = user.status := by
    intro hsame
    obtain ⟨user', huser', hid, haccount⟩ := hsame.exists_new h.fits.keyed huser
    exact ⟨user', huser', hid, congrArg Prod.fst haccount⟩
  have hbulk := h.bulk
  rw [hj] at hbulk
  rcases hbulk.act_cases with ⟨-, rfl, -⟩ | ⟨users, -, hquiet⟩ | ⟨listed, users, rfl, rfl, -⟩
  · exact hkept (.of_users permits_sameAccount.refl rfl)
  · exact hkept (hquiet c.2).1
  · refine ⟨user, h.fits.keyed.mem_updateOne.mpr (.inl ⟨huser, fun hid => ?_⟩), rfl, rfl⟩
    have hopen := h.fits.undecided _ rfl user huser (by simp [hid])
    simp [hdecided] at hopen

end Inv

/-- In every interleaving without a disturbing step the bulk approval leaves the decisions of
    other administrators as they are, and no approved user has a reason for a rejection. -/
theorem decisions_kept [DecidableEq ι] (call : ι → UpdateCall) (now : Nat)
    (transports : List Transport) {s : Store} (hs : UserLifecycle.Inv s) (sched : List (Option ι))
    (h : Trace.AllSteps Pool.step (Undisturbed call now transports) (calls call now transports, s)
      sched) :
    Trace.AllSteps Pool.step LeavesDecided (calls call now transports, s) sched ∧
      Trace.AllStates Pool.step NoApprovedReason (calls call now transports, s) sched := by
  let J (c : Calls ι × Store) : Prop := ∃ list, Inv call now transports list c
  have hstart : J (calls call now transports, s) := ⟨none, .init hs⟩
  have hstep : ∀ c j c', J c → Undisturbed call now transports c j → Pool.step c j = some c' →
      J c' := fun _ _ _ ⟨_, hinv⟩ => hinv.step
  refine ⟨h.imp (fun _ j _ ⟨_, hinv⟩ _ _ => hinv.leavesDecided j) hstep hstart, ?_⟩
  exact (Trace.allStates_of_allSteps hstep hstart h).mono fun _ ⟨_, hinv⟩ => hinv.noApprovedReason

/-! ## A rejection during a bulk approval -/

theorem approving_ret {users : List User} {r : Except HttpException Nat}
    (h : Approving now users (.ret r)) : users = [] := by
  generalize hp : Prog.ret r = p at h
  cases h with
  | quiet => cases hp
  | next transports' count =>
    cases users with
    | nil => rfl
    | cons user users => cases hp

/-- Nobody is on the list before it is read. -/
theorem not_awaits_start {P : Calls ι} {userId : String}
    (h : P none = (approveAllPendingUsers now transports).prog) : ¬ Awaits now P userId := by
  rintro ⟨users, happroving, hmem⟩
  rw [h, approveAllPendingUsers_eq] at happroving
  generalize hp : Prog.act id _ = p at happroving
  cases happroving with
  | quiet hupd hnext =>
    obtain ⟨rfl, rfl⟩ := Prog.act.inj hp
    have hnil := hnext Store.empty
    simp only [Store.empty, List.filter_nil, List.mergeSort_nil, List.take_nil] at hnil
    obtain rfl := approving_ret now hnil
    cases hmem
  | next transports' count =>
    cases users with
    | nil => cases hp
    | cons user users =>
      have hwrite := congrArg (·.users) (congrFun (Prog.act.inj hp).1
        { Store.empty with users := [{ user with approvedAt := none }] })
      simp [updateOne] at hwrite

/-- One user waits for approval, and another one has been approved. -/
def applicants : Store :=
  let applicant : User := { AuthService.resident with status := .pending, approvedAt := none }
  { Store.empty with
    users := [applicant, { AuthService.resident with id := "u2", email := "u2@example.com" }] }

theorem inv_applicants : UserLifecycle.Inv applicants where
  keyed := by decide
  users user huser := by
    rcases List.mem_cons.mp huser with rfl | huser
    · exact .of_pending rfl rfl
    · obtain rfl := List.mem_singleton.mp huser
      exact ⟨nofun, fun _ => rfl, fun _ => ⟨rfl, rfl⟩, nofun⟩

def rejection (userId : String) : Unit → UpdateCall := fun _ =>
  { userId
    dto := { UpdateUserDto.empty with status := some .rejected, rejectionReason := some "unknown" }
    now := 10
    transport := .notConfigured }

/-- The user who is rejected is not on the list yet. -/
private theorem undisturbed_start {userId : String} {c : Calls Unit × Store} (j : Option Unit)
    (h : c.1 none = (approveAllPendingUsers 20 []).prog) :
    Undisturbed (rejection userId) 20 [] c j := by
  rintro i status - ⟨hstatus, -⟩
  obtain rfl := Option.some.inj hstatus
  refine ⟨fun _ => not_awaits_start 20 [] h, fun hset => ?_⟩
  simp at hset

/-- The second user is rejected before the list is read. -/
theorem decisions_kept_rejectedFirst :
    Trace.AllSteps Pool.step (Undisturbed (rejection "u2") 20 [])
        (calls (rejection "u2") 20 [], applicants)
        [some (), some (), some (), none, none, none, none] ∧
      Trace.AllSteps Pool.step LeavesDecided (calls (rejection "u2") 20 [], applicants)
        [some (), some (), some (), none, none, none, none] ∧
      Trace.AllStates Pool.step NoApprovedReason (calls (rejection "u2") 20 [], applicants)
        [some (), some (), some (), none, none, none, none] := by
  have hbulk : ∀ (c : Calls Unit × Store) n,
      Trace.AllSteps Pool.step (Undisturbed (rejection "u2") 20 []) c (List.replicate n none) := by
    intro c n
    induction n generalizing c with
    | zero => trivial
    | succ n ih => exact fun c' _ => ⟨fun _ _ hj => (nomatch hj), ih c'⟩
  have hsteps : Trace.AllSteps Pool.step (Undisturbed (rejection "u2") 20 [])
      (calls (rejection "u2") 20 [], applicants)
      [some (), some (), some (), none, none, none, none] := by
    intro c₁ h₁
    obtain rfl := Option.some.inj h₁
    refine ⟨undisturbed_start _ rfl, fun c₂ h₂ => ?_⟩
    obtain rfl := Option.some.inj h₂
    refine ⟨undisturbed_start _ rfl, fun c₃ h₃ => ?_⟩
    obtain rfl := Option.some.inj h₃
    exact ⟨undisturbed_start _ rfl, hbulk _ 4⟩
  exact ⟨hsteps, decisions_kept (rejection "u2") 20 [] inv_applicants _ hsteps⟩

def accounts (c : Calls Unit × Store) : List (String × UserStatus × Option String) :=
  c.2.users.map fun user => (user.id, user.status, user.rejectionReason)

/-- The first user is rejected while on the list. -/
theorem rejected_then_approved :
    ¬ Trace.AllSteps Pool.step LeavesDecided (calls (rejection "u1") 20 [], applicants)
        [none, some (), some (), some (), none] ∧
      ¬ Trace.AllStates Pool.step NoApprovedReason (calls (rejection "u1") 20 [], applicants)
        [none, some (), some (), some (), none] := by
  have hrejected : (Trace.exec Pool.step (calls (rejection "u1") 20 [], applicants)
      [none, some (), some (), some ()]).map accounts =
      some [("u1", .rejected, some "unknown"), ("u2", .approved, none)] := by decide +kernel
  have happroved : (Trace.exec Pool.step (calls (rejection "u1") 20 [], applicants)
      [none, some (), some (), some (), none]).map accounts =
      some [("u1", .approved, some "unknown"), ("u2", .approved, none)] := by decide +kernel
  obtain ⟨c', hc', haccounts'⟩ := Option.map_eq_some_iff.mp happroved
  have hsplit : [none, some (), some (), some (), none] =
      [none, some (), some (), some ()] ++ [none] := rfl
  rw [hsplit] at hc' ⊢
  obtain ⟨c, hc, hlast⟩ := Trace.exec_append_some hc'
  have hstep : Pool.step c none = some c' := by simpa using hlast
  rw [hc, Option.map_some, Option.some.injEq] at hrejected
  constructor
  · intro h
    obtain ⟨user, huser, heq⟩ : ∃ user ∈ c.2.users,
        (user.id, user.status, user.rejectionReason) = ("u1", .rejected, some "unknown") :=
      List.mem_map.mp (show _ ∈ accounts c by simp [hrejected])
    obtain ⟨hid, hstatus, -⟩ : user.id = "u1" ∧ user.status = .rejected ∧ _ := by
      simpa using heq
    have hleaves := h.last hc hstep
    obtain ⟨user', huser', hid', hstatus'⟩ := hleaves rfl c' hstep user huser (by simp [decided, hstatus])
    have hmem : (user'.id, user'.status, user'.rejectionReason) ∈ accounts c' :=
      List.mem_map_of_mem huser'
    simp [haccounts', hid', hid, hstatus', hstatus] at hmem
  · intro h
    obtain ⟨user, huser, heq⟩ : ∃ user ∈ c'.2.users,
        (user.id, user.status, user.rejectionReason) = ("u1", .approved, some "unknown") :=
      List.mem_map.mp (show _ ∈ accounts c' by simp [haccounts'])
    obtain ⟨-, hstatus, hreason⟩ : user.id = "u1" ∧ user.status = .approved ∧
        user.rejectionReason = some "unknown" := by
      simpa using heq
    have hnone := h.last hc' user huser hstatus
    simp [hreason] at hnone

end Backend.BulkApproval
