-- SUMMARY: The approval e-mails of updateUser and the bulk approval: when a user gets one at most, and when the stamp approvalEmailSentAt is truthful.
import ParkingGate.Backend.BulkApproval

/-!
# The approval e-mail

Two operations send it and set the stamp `approvalEmailSentAt`. A ledger keeps what matters for
that: the accounts, with whether they are stamped, and the addresses the transport has accepted
an e-mail for. An operation is a list of deliveries to the ledger.

`sendApprovalEmail` of the e-mail service returns alike when it has sent and when it has skipped
the e-mail for lack of a transporter, so that the stamp is set in both cases. `updateUser` looks
at the stamp before it sends, the bulk approval does not.
-/

namespace Backend.ApprovalMail

open AdminService Collection UsersService

/-! ## The ledger -/

structure Account where
  id : String
  email : String
  stamped : Bool

structure Ledger where
  accounts : List Account
  sent : List String

/-- An e-mail to the user `id`, and what the transport does with it. -/
structure Delivery where
  id : String
  email : String
  transport : Transport

namespace Ledger

def stamp (l : Ledger) (id : String) : Ledger :=
  { l with accounts := l.accounts.map fun a => if a.id = id then { a with stamped := true } else a }

def deliver (l : Ledger) (d : Delivery) : Ledger :=
  match d.transport with
  | .notConfigured => l.stamp d.id
  | .accepts       => stamp { l with sent := l.sent ++ [d.email] } d.id
  | .fails         => l

/-- At most one e-mail to each account, and one to each that is stamped. -/
def Truthful (l : Ledger) : Prop :=
  ∀ a ∈ l.accounts, l.sent.count a.email ≤ 1 ∧ (a.stamped = true → 1 ≤ l.sent.count a.email)

/-- The accounts that have got an e-mail are those that are stamped. -/
structure Balanced (l : Ledger) : Prop where
  ids : Keyed Account.id l.accounts
  emails : Keyed Account.email l.accounts
  count : ∀ a ∈ l.accounts, l.sent.count a.email = if a.stamped then 1 else 0

/-- Deliveries to accounts, one to each at most. -/
structure Fits (l : Ledger) (ds : List Delivery) : Prop where
  ids : Keyed Delivery.id ds
  account : ∀ d ∈ ds, ∃ a ∈ l.accounts, a.id = d.id ∧ a.email = d.email

/-- No e-mail is accepted for an account that is stamped, and none is skipped for one that is
    not. -/
def Sound (l : Ledger) (ds : List Delivery) : Prop :=
  ∀ d ∈ ds, ∀ a ∈ l.accounts, a.id = d.id →
    d.transport ≠ if a.stamped then .accepts else .notConfigured

instance (l : Ledger) (ds : List Delivery) : Decidable (Sound l ds) :=
  inferInstanceAs (Decidable (∀ d ∈ ds, ∀ a ∈ l.accounts, _ → _))

/-- Some delivery to the account is accepted. -/
def accepted (ds : List Delivery) (id : String) : Bool :=
  ds.any fun d => d.id = id ∧ d.transport = .accepts

/-- Some delivery to the account sets the stamp. -/
def stamped (ds : List Delivery) (id : String) : Bool :=
  ds.any fun d => d.id = id ∧ d.transport ≠ .fails

variable {l : Ledger} {ds : List Delivery}

theorem sent_foldl : (ds.foldl deliver l).sent =
    l.sent ++ (ds.filter (·.transport = .accepts)).map Delivery.email := by
  induction ds generalizing l with
  | nil => simp
  | cons d ds ih =>
    rw [List.foldl_cons, ih]
    cases htransport : d.transport <;> simp [deliver, htransport, stamp]

theorem accounts_foldl : (ds.foldl deliver l).accounts =
    l.accounts.map fun a => { a with stamped := a.stamped || stamped ds a.id } := by
  induction ds generalizing l with
  | nil => simp [stamped]
  | cons d ds ih =>
    rw [List.foldl_cons, ih]
    cases htransport : d.transport with
    | fails => simp [deliver, htransport, stamped]
    | notConfigured | accepts =>
      simp only [deliver, htransport, stamp, List.map_map]
      refine List.map_congr_left fun a _ => ?_
      by_cases hid : a.id = d.id
      · simp [hid, stamped, htransport]
      · simp [hid, stamped, Ne.symm hid]

variable (hl : Balanced l) (hds : Fits l ds)

include hl hds

theorem count_foldl {a : Account} (ha : a ∈ l.accounts) :
    (ds.foldl deliver l).sent.count a.email =
      (if a.stamped then 1 else 0) + if accepted ds a.id then 1 else 0 := by
  have hemail : ∀ d ∈ ds, (d.email = a.email ↔ d.id = a.id) := by
    intro d hd
    obtain ⟨a', ha', hid, hemail⟩ := hds.account d hd
    rw [← hid, ← hemail]
    exact ⟨fun h => congrArg Account.id (hl.emails.eq_of_key ha' ha h),
      fun h => congrArg Account.email (hl.ids.eq_of_key ha' ha h)⟩
  have hcount : ((ds.filter (·.transport = .accepts)).map Delivery.email).count a.email =
      ds.countP fun d => d.id = a.id ∧ d.transport = .accepts := by
    rw [List.count, List.countP_map, List.countP_filter]
    refine List.countP_congr fun d hd => ?_
    simp [hemail d hd]
  rw [sent_foldl, List.count_append, hl.count a ha, hcount]
  simpa [accepted] using hds.ids.countP_eq a.id fun d => d.transport = .accepts

/-- Sound deliveries keep the ledger balanced. -/
theorem Balanced.foldl (hsound : Sound l ds) : Balanced (ds.foldl deliver l) := by
  refine ⟨?_, ?_, ?_⟩
  · rw [accounts_foldl, Keyed, List.map_map]
    exact hl.ids
  · rw [accounts_foldl, Keyed, List.map_map]
    exact hl.emails
  · intro a' ha'
    rw [accounts_foldl] at ha'
    obtain ⟨a, ha, rfl⟩ := List.mem_map.mp ha'
    have htransport : ∀ d ∈ ds, d.id = a.id →
        d.transport ≠ if a.stamped then .accepts else .notConfigured :=
      fun d hd hid => hsound d hd a ha hid.symm
    rw [count_foldl hl hds ha]
    cases hstamped : a.stamped with
    | true =>
      have hnone : accepted ds a.id = false := by
        refine List.any_eq_false.mpr fun d hd hmatch => ?_
        simp only [decide_eq_true_eq] at hmatch
        simpa [hstamped, hmatch.2] using htransport d hd hmatch.1
      simp [hnone]
    | false =>
      -- A delivery to the account is accepted or fails.
      have hsame : accepted ds a.id = stamped ds a.id := by
        rw [Bool.eq_iff_iff, accepted, stamped, List.any_eq_true, List.any_eq_true]
        refine exists_congr fun d => and_congr_right fun hd => ?_
        simp only [decide_eq_true_eq]
        refine and_congr_right fun hid => ?_
        have hne := htransport d hd hid
        cases h : d.transport <;> simp_all
      simp [hsame]

/-- Deliveries that are not sound leave an account with two e-mails, or with a stamp and
    without one. -/
theorem Balanced.not_truthful (hunsound : ¬ Sound l ds) : ¬ Truthful (ds.foldl deliver l) := by
  intro htruthful
  refine hunsound fun d hd a ha hid heq => ?_
  have hmem := List.mem_map_of_mem (f := fun a : Account =>
    { a with stamped := a.stamped || stamped ds a.id }) ha
  rw [← accounts_foldl] at hmem
  have hcounts := htruthful _ hmem
  rw [count_foldl hl hds ha] at hcounts
  cases hstamped : a.stamped with
  | true =>
    have haccepted : accepted ds a.id = true :=
      List.any_eq_true.mpr ⟨d, hd, by simp [hid, heq, hstamped]⟩
    simp [hstamped, haccepted] at hcounts
  | false =>
    simp only [hstamped, Bool.false_eq_true, if_false] at heq
    have hstamps : stamped ds a.id = true :=
      List.any_eq_true.mpr ⟨d, hd, by simp [hid, heq]⟩
    have hnone : accepted ds a.id = false := by
      refine List.any_eq_false.mpr fun d' hd' hmatch => ?_
      simp only [decide_eq_true_eq] at hmatch
      obtain rfl := hds.ids.eq_of_key hd' hd (hmatch.1.trans hid)
      simp [heq] at hmatch
    simp [hstamped, hstamps, hnone] at hcounts

omit hds

theorem Balanced.truthful : Truthful l := by
  intro a ha
  rw [hl.count a ha]
  cases a.stamped <;> simp

end Ledger

/-! ## The ledger of the store -/

/-- The address of an approval e-mail. -/
def approvalAddress : Mail → Option String
  | .approval email _ _ => some email
  | .passwordReset ..   => none

def Account.of (user : User) : Account := ⟨user.id, user.email, user.approvalEmailSentAt.isSome⟩

def ledger (s : Store) : Ledger := ⟨s.users.map .of, s.outbox.filterMap approvalAddress⟩

/-- At most one approval e-mail to each user, and one to each who has the stamp. -/
def Truthful (s : Store) : Prop :=
  ∀ user ∈ s.users, (s.outbox.filterMap approvalAddress).count user.email ≤ 1 ∧
    (user.approvalEmailSentAt.isSome = true →
      1 ≤ (s.outbox.filterMap approvalAddress).count user.email)

instance (s : Store) : Decidable (Truthful s) :=
  inferInstanceAs (Decidable (∀ user ∈ s.users, _ ∧ _))

theorem truthful_ledger {s : Store} : (ledger s).Truthful ↔ Truthful s := by
  simp [Ledger.Truthful, Truthful, ledger, Account.of]

inductive Op where
  | updateUser (userId : String) (dto : UpdateUserDto) (transport : Transport)
  | approveAllPendingUsers (transports : List Transport)

namespace Op

/-- One operation, from its first step to its last. -/
def run (now : Nat) (s : Store) : Op → Store
  | updateUser userId dto transport   =>
    ((AdminService.updateUser userId dto now transport).prog.run s).2
  | approveAllPendingUsers transports =>
    ((AdminService.approveAllPendingUsers now transports).prog.run s).2

/-- The list that `approveAllPendingUsers` reads. -/
def pendingUsers (s : Store) : List User :=
  ((s.users.filter (·.status == .pending)).mergeSort fun u v => v.createdAt ≤ u.createdAt).take 10000

def bulkDeliveries : List User → List Transport → List Delivery
  | [], _                    => []
  | user :: users, transports =>
    ⟨user.id, user.email, transports.headD .notConfigured⟩ :: bulkDeliveries users transports.tail

/-- The e-mails the operation is to send. -/
def deliveries (s : Store) : Op → List Delivery
  | updateUser userId dto transport   =>
    match s.users.find? (·.id == userId) with
    | some user =>
      if dto.status = some .approved ∧ user.status ≠ .approved ∧ user.approvalEmailSentAt.isNone then
        [⟨userId, user.email, transport⟩]
      else []
    | none => []
  | approveAllPendingUsers transports => bulkDeliveries (pendingUsers s) transports

/-- No e-mail is accepted for a user who has the stamp, and none is skipped for lack of a
    transporter for one who has not. -/
def Sound (s : Store) (op : Op) : Prop := (ledger s).Sound (op.deliveries s)

instance (s : Store) (op : Op) : Decidable (op.Sound s) :=
  inferInstanceAs (Decidable (Ledger.Sound _ _))

end Op

/-- An operation with the time it starts at. -/
def step (s : Store) (call : Nat × Op) : Option Store := some (call.2.run call.1 s)

/-! ## What the operations do to the ledger -/

section Writes

variable {s : Store} {userId : String} {f : User → User}

theorem ledger_modifyUser (hf : ∀ user, Account.of (f user) = Account.of user) :
    ledger (s.modifyUser userId f) = ledger s :=
  congrArg (Ledger.mk · _) (map_updateOne hf)

theorem ledger_stamp (h : Keyed Account.id (ledger s).accounts) (now : Nat) :
    ledger (s.modifyUser userId fun user => { user with approvalEmailSentAt := some now }) =
      (ledger s).stamp userId := by
  have hids : Keyed User.id s.users := by
    rw [Keyed, ledger, List.map_map] at h
    exact h
  apply congrArg (Ledger.mk · _)
  rw [Store.modifyUser, hids.updateOne_eq_map, List.map_map, ledger, List.map_map]
  refine List.map_congr_left fun user _ => ?_
  by_cases hid : user.id = userId <;> simp [hid, Account.of]

theorem keyed_deliver {l : Ledger} (h : Keyed Account.id l.accounts) (d : Delivery) :
    Keyed Account.id (l.deliver d).accounts := by
  have hstamp : Keyed Account.id (l.stamp d.id).accounts := by
    rw [Keyed, Ledger.stamp, List.map_map]
    refine (congrArg List.Nodup (List.map_congr_left fun a _ => ?_)).mpr h
    by_cases hid : a.id = d.id <;> simp [hid]
  cases htransport : d.transport <;> simp only [Ledger.deliver, htransport]
  · exact hstamp
  · exact hstamp
  · exact h

theorem account_updateData {dto : UpdateUserDto} {existing user : User} {now : Nat} :
    Account.of (dto.updateData existing now user) = Account.of user := by
  unfold UpdateUserDto.updateData
  cases dto.status with
  | none =>
    dsimp only
    split <;> rfl
  | some status =>
    obtain ⟨approvedAt, rejectedAt, htimes⟩ :=
      statusTimestamps_fields status existing.status now { dto.profile user with status }
    simp only [htimes]
    split <;> rfl

/-- A change of the store that the ledger does not show. -/
def Silent (upd : Store → Store) : Prop := ∀ s, ledger (upd s) = ledger s

theorem notifyApproval_ledger (h : Keyed Account.id (ledger s).accounts) (user : User) (now : Nat)
    (transport : Transport) :
    ledger ((notifyApproval userId user now transport).prog.run s).2 =
      (ledger s).deliver ⟨userId, user.email, transport⟩ := by
  cases transport with
  | notConfigured => exact ledger_stamp h now
  | accepts       =>
    apply (ledger_stamp (s := { s with outbox := s.outbox ++ [_] }) h now).trans
    simp [ledger, Ledger.deliver, approvalAddress]
  | fails         => rfl

theorem approvePendingUser_ledger (h : Keyed Account.id (ledger s).accounts) (user : User)
    (now : Nat) (transport : Transport) :
    ledger ((approvePendingUser now user transport).prog.run s).2 =
      (ledger s).deliver ⟨user.id, user.email, transport⟩ := by
  have happrove : ledger (s.modifyUser user.id (BulkApproval.approve now)) = ledger s :=
    ledger_modifyUser fun _ => rfl
  have hlogout : ∀ t : Store, ledger ((t.modifyUser user.id User.clearFields).modifyUser user.id
      fun user => { user with activeDeviceId := none }) = ledger t := fun t =>
    (ledger_modifyUser (s := t.modifyUser user.id User.clearFields)
      (f := fun user => { user with activeDeviceId := none }) fun _ => rfl).trans
      (ledger_modifyUser (f := User.clearFields) fun _ => rfl)
  have hids := happrove ▸ h
  cases transport with
  | notConfigured =>
    refine (hlogout _).trans ((ledger_stamp hids now).trans ?_)
    rw [happrove]
    rfl
  | accepts       =>
    refine (hlogout _).trans ((ledger_stamp
      (s := { s.modifyUser user.id (BulkApproval.approve now) with
        outbox := s.outbox ++ [_] }) hids now).trans ?_)
    simp only [ledger, List.filterMap_append, List.filterMap_cons, approvalAddress]
    exact congrArg (fun l : Ledger => Ledger.stamp ⟨l.accounts, _⟩ user.id) happrove
  | fails         => exact (hlogout _).trans happrove

theorem approveEach_ledger (users : List User) (transports : List Transport) (now count : Nat)
    (h : Keyed Account.id (ledger s).accounts) :
    ledger ((approveEach now users transports count).prog.run s).2 =
      (Op.bulkDeliveries users transports).foldl Ledger.deliver (ledger s) := by
  induction users generalizing transports count s with
  | nil => rfl
  | cons user users ih =>
    have hone := approvePendingUser_ledger h user now (transports.headD .notConfigured)
    have hok : ∃ s', (approvePendingUser now user (transports.headD .notConfigured)).prog.run s =
        (.ok (), s') := by
      cases transports.headD .notConfigured <;> exact ⟨_, rfl⟩
    obtain ⟨s', hrun⟩ := hok
    rw [approveEach, Fallible.prog_bind, Prog.run_bind, hrun]
    rw [hrun] at hone
    apply (ih transports.tail (count + 1) (hone ▸ keyed_deliver h _)).trans
    rw [hone]
    rfl

/-- The call that does not approve its user leaves the ledger alone. -/
theorem afterRead_silent (call : BulkApproval.UpdateCall) {existing : User}
    (h : call.dto.status ≠ some .approved) : (call.afterRead existing).prog.Always Silent := by
  have hupdate : ∀ {userId : String} {f : User → User},
      (∀ user, Account.of (f user) = Account.of user) →
      (findByIdAndUpdate userId f).prog.Always Silent := fun hf =>
    ⟨fun _ => ledger_modifyUser hf, fun _ => trivial⟩
  have hwrite : (call.write existing).prog.Always Silent := by
    refine Fallible.always_bind (hupdate fun _ => account_updateData) fun updated => ?_
    cases updated with
    | none => trivial
    | some updatedUser =>
      dsimp only
      rw [if_neg fun hand => h hand.1]
      trivial
  have hcheck : (call.check existing).prog.Always Silent :=
    Fallible.always_guard (k := fun _ => call.write existing) hwrite
  unfold BulkApproval.UpdateCall.afterRead
  split
  · exact Fallible.always_bind (Fallible.always_bind (hupdate fun _ => rfl) fun _ => trivial)
      fun _ => hcheck
  · exact hcheck


/-- The call that approves its user sends the e-mail if the user does not have the stamp. -/
theorem afterRead_ledger (call : BulkApproval.UpdateCall) {existing : User}
    (h : Keyed Account.id (ledger s).accounts) (hstatus : call.dto.status = some .approved)
    (hfind : s.users.find? (·.id == call.userId) = some existing) :
    ledger ((call.afterRead existing).prog.run s).2 =
      (if existing.status ≠ .approved ∧ existing.approvalEmailSentAt.isNone then
        [⟨call.userId, existing.email, call.transport⟩]
      else []).foldl Ledger.deliver (ledger s) := by
  have hafter : call.afterRead existing = call.write existing := by
    simp [BulkApproval.UpdateCall.afterRead, BulkApproval.UpdateCall.check,
      UpdateUserDto.reasonRequired, hstatus, forcesLogout]
  have hid : ∀ user, (call.dto.updateData existing call.now user).id = user.id := fun _ =>
    (updateData_fields ..).1
  have haccount : Account.of (call.dto.updateData existing call.now existing) = Account.of existing :=
    account_updateData
  have hsilent : ledger (s.modifyUser call.userId (call.dto.updateData existing call.now)) =
      ledger s := ledger_modifyUser fun _ => account_updateData
  simp only [Account.of, Account.mk.injEq] at haccount
  rw [hafter, BulkApproval.UpdateCall.write, UsersService.updateUser, AuthService.run_findByIdAndUpdate,
    find?_modifyUser hid hfind]
  dsimp only
  simp only [hstatus, true_and, ← Option.not_isSome, haccount.2.2]
  split
  · rw [notifyApproval_ledger (hsilent ▸ h), hsilent, haccount.2.1]
    rfl
  · exact hsilent

/-- What an operation does to the ledger. -/
theorem run_ledger (h : Keyed Account.id (ledger s).accounts) (now : Nat) (op : Op) :
    ledger (op.run now s) = (op.deliveries s).foldl Ledger.deliver (ledger s) := by
  cases op with
  | updateUser userId dto transport =>
    let call : BulkApproval.UpdateCall := ⟨userId, dto, now, transport⟩
    simp only [Op.run, Op.deliveries]
    rw [show AdminService.updateUser userId dto now transport = _ from call.updateUser_eq, findById,
      Fallible.prog_atomically_bind, Prog.run_act]
    cases hfind : s.users.find? (·.id == userId) with
    | none => rfl
    | some existing =>
      dsimp only
      by_cases hstatus : dto.status = some .approved
      · rw [afterRead_ledger call h hstatus hfind]
        simp [hstatus, call]
      · rw [if_neg fun hand => hstatus hand.1]
        exact (afterRead_silent call hstatus).run (R := fun s s' => ledger s' = ledger s)
          (fun _ => rfl) (fun _ _ _ h h' => h'.trans h) s
  | approveAllPendingUsers transports =>
    exact approveEach_ledger (Op.pendingUsers s) transports now 0 h

end Writes

/-! ## The e-mails of an operation -/

theorem map_id_bulkDeliveries (users : List User) (transports : List Transport) :
    (Op.bulkDeliveries users transports).map Delivery.id = users.map User.id := by
  induction users generalizing transports with
  | nil => rfl
  | cons user users ih => simp [Op.bulkDeliveries, ih]

theorem of_mem_bulkDeliveries {users : List User} {transports : List Transport} {d : Delivery}
    (hd : d ∈ Op.bulkDeliveries users transports) :
    ∃ user ∈ users, user.id = d.id ∧ user.email = d.email := by
  induction users generalizing transports with
  | nil => cases hd
  | cons user users ih =>
    rcases List.mem_cons.mp hd with rfl | hd
    · exact ⟨user, List.mem_cons_self, rfl, rfl⟩
    · obtain ⟨user', huser', heq⟩ := ih hd
      exact ⟨user', List.mem_cons_of_mem user huser', heq⟩

theorem mem_pendingUsers {s : Store} {user : User} (h : user ∈ Op.pendingUsers s) : user ∈ s.users :=
  List.mem_of_mem_filter (List.mem_mergeSort.mp (List.mem_of_mem_take h))

/-- An operation sends to users of the store, and once to each at most. -/
theorem deliveries_fit {s : Store} (h : Keyed Account.id (ledger s).accounts) (op : Op) :
    Ledger.Fits (ledger s) (op.deliveries s) := by
  have haccount : ∀ user ∈ s.users, ∃ a ∈ (ledger s).accounts, a.id = user.id ∧ a.email = user.email :=
    fun user huser => ⟨.of user, List.mem_map_of_mem huser, rfl, rfl⟩
  cases op with
  | updateUser userId dto transport =>
    have hnone : Ledger.Fits (ledger s) [] := ⟨List.nodup_nil, by simp⟩
    simp only [Op.deliveries]
    cases hfind : s.users.find? (·.id == userId) with
    | none => exact hnone
    | some user =>
      dsimp only
      split
      · refine ⟨List.nodup_singleton _, fun d hd => ?_⟩
        obtain rfl := List.mem_singleton.mp hd
        have hid := List.find?_some hfind
        obtain rfl := beq_iff_eq.mp hid
        exact haccount user (List.mem_of_find?_eq_some hfind)
      · exact hnone
  | approveAllPendingUsers transports =>
    constructor
    · have hids : (s.users.map User.id).Nodup := by
        rw [Keyed, ledger, List.map_map] at h
        exact h
      rw [Keyed, Op.deliveries, map_id_bulkDeliveries]
      have hpending : ((s.users.filter (·.status == .pending)).map User.id).Nodup :=
        (List.filter_sublist.map User.id).nodup hids
      have hsorted : (((s.users.filter (·.status == .pending)).mergeSort
          fun u v => v.createdAt ≤ u.createdAt).map User.id).Nodup :=
        ((List.mergeSort_perm ..).map User.id).nodup_iff.mpr hpending
      exact ((List.take_sublist 10000 _).map User.id).nodup hsorted
    · intro d hd
      obtain ⟨user, huser, hid, hemail⟩ := of_mem_bulkDeliveries hd
      obtain ⟨a, ha, haid, haemail⟩ := haccount user (mem_pendingUsers huser)
      exact ⟨a, ha, haid.trans hid, haemail.trans hemail⟩

/-! ## Runs -/

theorem step_ledger {s s' : Store} {call : Nat × Op} (h : (ledger s).Balanced)
    (hstep : step s call = some s') :
    ledger s' = (call.2.deliveries s).foldl Ledger.deliver (ledger s) := by
  obtain rfl := Option.some.inj hstep
  exact run_ledger h.ids call.1 call.2

/-- In every run of the two operations the e-mails and the stamps are as they should be, exactly
    if no operation is to send to a user who has the stamp and succeeds, or skips the e-mail of
    one who has not. -/
theorem truthful_iff_sound {s : Store} (h : (ledger s).Balanced) (calls : List (Nat × Op)) :
    Trace.AllStates step Truthful s calls ↔
      Trace.AllSteps step (fun s call => call.2.Sound s) s calls := by
  refine Trace.allStates_iff_allSteps (J := fun s => (ledger s).Balanced) ?_ ?_ ?_ h
  · exact fun s h => truthful_ledger.mp h.truthful
  · intro s call s' h hsound hstep
    rw [step_ledger h hstep]
    exact h.foldl (deliveries_fit h.ids call.2) hsound
  · intro s call s' h hunsound hstep htruthful
    apply h.not_truthful (deliveries_fit h.ids call.2) hunsound
    rw [← step_ledger h hstep]
    exact truthful_ledger.mpr htruthful

open BulkApproval (applicants)

theorem balanced_applicants : (ledger applicants).Balanced := ⟨by decide, by decide, by decide⟩

def setStatus (userId : String) (status : UserStatus) (transport : Transport) : Op :=
  .updateUser userId { UpdateUserDto.empty with status := some status } transport

/-- The first user is approved, made pending and approved again. -/
theorem truthful_iff_sound_approvedTwice :
    Trace.AllStates step Truthful applicants
      [(10, setStatus "u1" .approved .fails), (20, setStatus "u1" .pending .accepts),
        (30, .approveAllPendingUsers [.accepts]), (40, setStatus "u1" .pending .accepts),
        (50, setStatus "u1" .approved .accepts)] :=
  (truthful_iff_sound balanced_applicants _).mpr (by decide +kernel)

/-- Without a transporter the stamp is set and nobody gets an e-mail; and the bulk approval
    sends a second one. -/
theorem applicants_not_truthful :
    ¬ Trace.AllStates step Truthful applicants [(10, setStatus "u1" .approved .notConfigured)] ∧
    ¬ Trace.AllStates step Truthful applicants
      [(10, setStatus "u1" .approved .accepts), (20, setStatus "u1" .pending .accepts),
        (30, .approveAllPendingUsers [.accepts])] := by
  constructor
  · intro h
    have hlast : Truthful ((setStatus "u1" .approved .notConfigured).run 10 applicants) := h.last rfl
    revert hlast
    decide +kernel
  · intro h
    have hlast := h.last rfl
    revert hlast
    decide +kernel

end Backend.ApprovalMail
