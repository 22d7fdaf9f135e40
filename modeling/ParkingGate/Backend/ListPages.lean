-- SUMMARY: The paginated lists of users and of gate logs: when the pages show every document once.
import ParkingGate.Base.Paging
import ParkingGate.Backend.GateService
import ParkingGate.Backend.SessionWrites

/-!
# Paginated lists

`getUsers` and `getLogsPaginated` count the matching documents and fetch one page of them. The
database sorts by the fields of the sort specification alone, and none of the specifications
ends with the `_id`. Documents with equal fields come in any order, which may be another one for
the next page.

The matching of a regular expression is a parameter; so is the order that a query uses, and so is
the time `updatedAt` of a user document, which the database sets on every write to it.
-/

namespace Backend.ListPages

open Collection Paging

/-! ## Sort specifications -/

/-- `1` and `-1` -/
inductive SortDirection where
  | asc | desc
  deriving DecidableEq, Repr

/-- Fields with their directions, the most significant first. -/
abbrev SortSpec (φ : Type) := List (φ × SortDirection)

namespace SortSpec

variable {φ α : Type} (field : φ → α → α → Ordering)

def cmp : SortSpec φ → α → α → Ordering
  | []                 => fun _ _ => .eq
  | (f, .asc) :: spec  => compareLex (field f) (cmp spec)
  | (f, .desc) :: spec => compareLex (fun a b => field f b a) (cmp spec)

instance [∀ f, Std.TransCmp (field f)] (spec : SortSpec φ) : Std.TransCmp (SortSpec.cmp field spec) := by
  induction spec with
  | nil => exact { eq_swap := rfl, isLE_trans := fun _ _ => rfl }
  | cons entry spec ih =>
    obtain ⟨f, _ | _⟩ := entry
    · exact inferInstanceAs (Std.TransCmp (compareLex (field f) (SortSpec.cmp field spec)))
    · exact inferInstanceAs
        (Std.TransCmp (compareLex (fun a b => field f b a) (SortSpec.cmp field spec)))

end SortSpec

/-! ## Users -/

inductive UserStatusFilter where
  | only (status : UserStatus)
  | all
  deriving DecidableEq, Repr

inductive UserSortField where
  | name | apartmentNumber | createdAt | approvalDate
  deriving DecidableEq, Repr

structure GetUsersQueryDto where
  status : Option UserStatusFilter
  q : Option String
  page : Option Nat
  limit : Option Nat
  sortField : Option UserSortField
  sortOrder : Option SortDirection
  deriving DecidableEq, Repr

/-- A field that the specifications of `getUsers` sort by. -/
inductive UserField where
  | lastName | firstName | apartmentNumber | createdAt | approvedAt | rejectedAt
  deriving DecidableEq, Repr

/-- Strings compare by their characters, and a field that is not set comes before all others. -/
def UserField.compare : UserField → User → User → Ordering
  | lastName        => compareOn User.lastName
  | firstName       => compareOn User.firstName
  | apartmentNumber => compareOn User.apartmentNumber
  | createdAt       => compareOn User.createdAt
  | approvedAt      => compareOn User.approvedAt
  | rejectedAt      => compareOn User.rejectedAt

instance : ∀ f : UserField, Std.TransCmp f.compare
  | .lastName        => inferInstanceAs (Std.TransCmp (compareOn User.lastName))
  | .firstName       => inferInstanceAs (Std.TransCmp (compareOn User.firstName))
  | .apartmentNumber => inferInstanceAs (Std.TransCmp (compareOn User.apartmentNumber))
  | .createdAt       => inferInstanceAs (Std.TransCmp (compareOn User.createdAt))
  | .approvedAt      => inferInstanceAs (Std.TransCmp (compareOn User.approvedAt))
  | .rejectedAt      => inferInstanceAs (Std.TransCmp (compareOn User.rejectedAt))

structure ActiveDevice where
  deviceId : String
  sessionId : String
  lastActiveAt : Nat
  deriving DecidableEq, Repr

structure UserItem where
  id : String
  email : String
  role : UserRole
  status : UserStatus
  rejectionReason : Option String
  firstName : String
  lastName : String
  phone : String
  apartmentNumber : Int
  floor : Int
  activeDeviceId : Option String
  activeDevices : List ActiveDevice
  approvedAt : Option Nat
  rejectedAt : Option Nat
  approvalEmailSentAt : Option Nat
  createdAt : Nat
  updatedAt : Nat
  deriving DecidableEq, Repr

structure Page (ι : Type) where
  items : List ι
  page : Nat
  limit : Nat
  total : Nat
  totalPages : Nat

namespace GetUsersQueryDto

variable (regex : String → String → Bool) (query : GetUsersQueryDto)

/-- What the validators of the class let through. -/
def Valid : Prop :=
  (∀ page ∈ query.page, 1 ≤ page) ∧ ∀ limit ∈ query.limit, 1 ≤ limit ∧ limit ≤ 100

instance : Decidable query.Valid := inferInstanceAs (Decidable (_ ∧ _))

/-- `regex q text`: the text matches `{ $regex: q, $options: 'i' }`. -/
def filter (user : User) : Bool :=
  (match query.status.getD (.only .pending) with
    | .only status => user.status = status
    | .all         => true) &&
  (!truthy query.q || query.q.any fun q =>
    regex q user.email || regex q user.phone || regex q user.firstName || regex q user.lastName)

def sort : SortSpec UserField :=
  let sortDirection := query.sortOrder.getD .desc
  match query.sortField.getD .createdAt with
  | .name            => [(.lastName, sortDirection), (.firstName, sortDirection)]
  | .apartmentNumber => [(.apartmentNumber, sortDirection)]
  | .createdAt       => [(.createdAt, sortDirection)]
  | .approvalDate    =>
    match sortDirection with
    | .asc  => [(.approvedAt, .asc), (.rejectedAt, .asc)]
    | .desc => [(.approvedAt, .desc), (.rejectedAt, .desc)]

end GetUsersQueryDto

/-- A string of the response, or `null`. -/
def orNull (text : Option String) : Option String := if truthy text then text else none

/-- The user as `getUsers` shows it; `updatedAt id` is the time of the last write to a document. -/
def UserItem.of (updatedAt : String → Nat) (s : Store) (user : User) : UserItem where
  id := user.id
  email := user.email
  role := user.role
  status := user.status
  rejectionReason := orNull user.rejectionReason
  firstName := user.firstName
  lastName := user.lastName
  phone := user.phone
  apartmentNumber := user.apartmentNumber
  floor := user.floor
  activeDeviceId := orNull user.activeDeviceId
  activeDevices :=
    let activeDevices := (s.sessionsOf user.id).map fun session =>
      ⟨session.deviceId, session.sessionId, session.lastActiveAt⟩
    -- Users who logged in before there was a collection of sessions.
    match orNull user.activeDeviceId, activeDevices with
    | some deviceId, [] =>
      [⟨deviceId, (orNull user.activeSessionId).getD "legacy", updatedAt user.id⟩]
    | _, activeDevices  => activeDevices
  approvedAt := user.approvedAt
  rejectedAt := user.rejectedAt
  approvalEmailSentAt := user.approvalEmailSentAt
  createdAt := user.createdAt
  updatedAt := updatedAt user.id

/-- `find(filter).sort(sort).skip(skip).limit(limit)` when the query uses this order. -/
def findPaginated {α : Type} (order : List α) (skip limit : Nat) : List α :=
  (order.drop skip).take limit

def getUsers (regex : String → String → Bool) (updatedAt : String → Nat) (s : Store)
    (order : List User) (query : GetUsersQueryDto) : Page UserItem :=
  let page := query.page.getD 1
  let limit := query.limit.getD 20
  let skip := (page - 1) * limit
  let total := s.users.countP (query.filter regex)
  let totalPages := totalPages total limit
  let users := findPaginated order skip limit
  { items := users.map (UserItem.of updatedAt s), page, limit, total, totalPages }

/-! ## Gate logs -/

deriving instance DecidableEq for GateOpenedBy

inductive OpenedByFilter where
  | only (openedBy : GateOpenedBy)
  | all

structure GetLogsQueryDto where
  email : Option String
  openedBy : Option OpenedByFilter
  page : Option Nat
  limit : Option Nat

/-- A document of the collection of logs. -/
structure StoredLog where
  id : String
  log : GateLog
  createdAt : Nat

structure LogItem where
  id : String
  openedBy : GateOpenedBy
  email : Option String
  deviceId : Option String
  ip : Option String
  userAgent : Option String
  createdAt : Nat

def LogItem.of (doc : StoredLog) : LogItem where
  id := doc.id
  openedBy := doc.log.openedBy
  email := doc.log.email
  deviceId := doc.log.deviceId
  ip := doc.log.ip
  userAgent := doc.log.userAgent
  createdAt := doc.createdAt

namespace GetLogsQueryDto

variable (regex : String → String → Bool) (query : GetLogsQueryDto)

def Valid : Prop :=
  (∀ page ∈ query.page, 1 ≤ page) ∧ ∀ limit ∈ query.limit, 1 ≤ limit ∧ limit ≤ 200

instance : Decidable query.Valid := inferInstanceAs (Decidable (_ ∧ _))

/-- A log without an address does not match any expression. -/
def filter (doc : StoredLog) : Bool :=
  (!truthy query.email || query.email.any fun email => doc.log.email.any (regex email)) &&
  match query.openedBy.getD .all with
  | .only openedBy => doc.log.openedBy = openedBy
  | .all           => true

end GetLogsQueryDto

/-- `{ createdAt: -1 }` -/
def newestFirst : SortSpec Unit := [((), .desc)]

/-- The one field that logs are sorted by. -/
def compareLogs (_ : Unit) : StoredLog → StoredLog → Ordering := compareOn StoredLog.createdAt

instance (field : Unit) : Std.TransCmp (compareLogs field) :=
  inferInstanceAs (Std.TransCmp (compareOn StoredLog.createdAt))

def getLogsPaginated (regex : String → String → Bool) (logs order : List StoredLog)
    (query : GetLogsQueryDto) : Page LogItem :=
  let page := query.page.getD 1
  let limit := query.limit.getD 50
  let skip := (page - 1) * limit
  let total := logs.countP (query.filter regex)
  let totalPages := totalPages total limit
  let found := findPaginated order skip limit
  { items := found.map LogItem.of, page, limit, total, totalPages }

/-! ## Every document once -/

section Statements

variable (regex : String → String → Bool)

def matchingUsers (s : Store) (query : GetUsersQueryDto) : List User :=
  s.users.filter (query.filter regex)

def matchingLogs (logs : List StoredLog) (query : GetLogsQueryDto) : List StoredLog :=
  logs.filter (query.filter regex)

/-- Whatever orders the queries use, the pages up to `totalPages` show every matching user once,
    and the pages after them show nobody. -/
def ShowsEachUser (updatedAt : String → Nat) (s : Store) (query : GetUsersQueryDto) : Prop :=
  ∀ orders : Nat → List User,
    (∀ page, IsOrder (SortSpec.cmp UserField.compare query.sort) (matchingUsers regex s query)
      (orders page)) →
    ((List.range (getUsers regex updatedAt s (orders 1) query).totalPages).flatMap fun k =>
        (getUsers regex updatedAt s (orders (k + 1)) { query with page := some (k + 1) }).items).Perm
      ((matchingUsers regex s query).map (UserItem.of updatedAt s)) ∧
    ∀ page, (getUsers regex updatedAt s (orders 1) query).totalPages < page →
      (getUsers regex updatedAt s (orders page) { query with page := some page }).items = []

def ShowsEachLog (logs : List StoredLog) (query : GetLogsQueryDto) : Prop :=
  ∀ orders : Nat → List StoredLog,
    (∀ page, IsOrder (SortSpec.cmp compareLogs newestFirst) (matchingLogs regex logs query)
      (orders page)) →
    ((List.range (getLogsPaginated regex logs (orders 1) query).totalPages).flatMap fun k =>
        (getLogsPaginated regex logs (orders (k + 1)) { query with page := some (k + 1) }).items).Perm
      ((matchingLogs regex logs query).map LogItem.of) ∧
    ∀ page, (getLogsPaginated regex logs (orders 1) query).totalPages < page →
      (getLogsPaginated regex logs (orders page) { query with page := some page }).items = []

end Statements

/-- A list that is fetched page by page, with an item of the response for every document. -/
theorem shows_each_iff {α ι : Type} {cmp : α → α → Ordering} [Std.TransCmp cmp] {docs : List α}
    {item : α → ι} {limit : Nat} (items : List α → Nat → List ι)
    (hnodup : (docs.map item).Nodup) (hlimit : 0 < limit)
    (hitems : ∀ order page,
      items order page = (findPaginated order ((page - 1) * limit) limit).map item) :
    (∀ orders : Nat → List α, (∀ page, IsOrder cmp docs (orders page)) →
      ((List.range (totalPages docs.length limit)).flatMap fun k =>
        items (orders (k + 1)) (k + 1)).Perm (docs.map item) ∧
      ∀ page, totalPages docs.length limit < page → items (orders page) page = []) ↔
      ∀ x ∈ docs, OnOnePage cmp docs limit x := by
  have hslice : ∀ order k, items order (k + 1) = (slice order limit k).map item := fun order k =>
    hitems order (k + 1)
  rw [← shown_perm_iff hnodup hlimit]
  constructor
  · intro h orders horders
    have hpages := (h (fun page => orders (page - 1)) fun page => horders (page - 1)).1
    simpa only [hslice, Nat.add_sub_cancel] using hpages
  · intro h orders horders
    refine ⟨?_, fun page hpage => ?_⟩
    · simpa only [hslice] using h (fun k => orders (k + 1)) fun k => horders (k + 1)
    · obtain ⟨k, rfl⟩ : ∃ k, page = k + 1 := ⟨page - 1, by omega⟩
      have hlength := (horders (k + 1)).perm.length_eq
      rw [hslice, slice_eq_nil hlimit (by rw [hlength]; omega), List.map_nil]

theorem showsEachUser_iff (regex : String → String → Bool) (updatedAt : String → Nat) {s : Store}
    (hids : Keyed User.id s.users)
    {query : GetUsersQueryDto} (hvalid : query.Valid) :
    ShowsEachUser regex updatedAt s query ↔ ∀ user ∈ matchingUsers regex s query,
      OnOnePage (SortSpec.cmp UserField.compare query.sort) (matchingUsers regex s query)
        (query.limit.getD 20) user := by
  have hnodup : ((matchingUsers regex s query).map (UserItem.of updatedAt s)).Nodup := by
    apply List.Nodup.of_map UserItem.id
    rw [List.map_map]
    exact (List.filter_sublist.map User.id).nodup hids
  have hlimit : 0 < query.limit.getD 20 := by
    cases hquery : query.limit with
    | none => decide
    | some limit => exact (hvalid.2 limit hquery).1
  rw [← shows_each_iff (fun order page =>
    (getUsers regex updatedAt s order { query with page := some page }).items) hnodup hlimit fun _ _ => rfl]
  rw [matchingUsers, ← List.countP_eq_length_filter]
  exact Iff.rfl

theorem showsEachLog_iff (regex : String → String → Bool) {logs : List StoredLog}
    (hids : Keyed StoredLog.id logs) {query : GetLogsQueryDto} (hvalid : query.Valid) :
    ShowsEachLog regex logs query ↔ ∀ doc ∈ matchingLogs regex logs query,
      OnOnePage (SortSpec.cmp compareLogs newestFirst) (matchingLogs regex logs query)
        (query.limit.getD 50) doc := by
  have hnodup : ((matchingLogs regex logs query).map LogItem.of).Nodup := by
    apply List.Nodup.of_map LogItem.id
    rw [List.map_map]
    exact (List.filter_sublist.map StoredLog.id).nodup hids
  have hlimit : 0 < query.limit.getD 50 := by
    cases hquery : query.limit with
    | none => decide
    | some limit => exact (hvalid.2 limit hquery).1
  rw [← shows_each_iff (fun order page =>
    (getLogsPaginated regex logs order { query with page := some page }).items) hnodup hlimit
    fun _ _ => rfl]
  rw [matchingLogs, ← List.countP_eq_length_filter]
  exact Iff.rfl

/-- The pages of both lists show every matching document once, whatever orders the queries use,
    exactly if no group of matching documents with equal sort fields extends over two pages. -/
theorem lists_show_each_once_iff (regex : String → String → Bool) (updatedAt : String → Nat)
    {s : Store} (husers : Keyed User.id s.users) {users : GetUsersQueryDto} (hvalid : users.Valid)
    {docs : List StoredLog} (hlogs : Keyed StoredLog.id docs) {logs : GetLogsQueryDto}
    (hvalid' : logs.Valid) :
    (ShowsEachUser regex updatedAt s users ↔ ∀ user ∈ matchingUsers regex s users,
      OnOnePage (SortSpec.cmp UserField.compare users.sort) (matchingUsers regex s users)
        (users.limit.getD 20) user) ∧
    (ShowsEachLog regex docs logs ↔ ∀ doc ∈ matchingLogs regex docs logs,
      OnOnePage (SortSpec.cmp compareLogs newestFirst) (matchingLogs regex docs logs)
        (logs.limit.getD 50) doc) :=
  ⟨showsEachUser_iff regex updatedAt husers hvalid, showsEachLog_iff regex hlogs hvalid'⟩

/-- Two users of one apartment. -/
def neighbours : Store :=
  { Store.empty with
    users := [AuthService.resident, { AuthService.resident with id := "u2", email := "u2@example.com" }] }

def byApartment (limit : Nat) : GetUsersQueryDto where
  status := some .all
  q := none
  page := none
  limit := some limit
  sortField := some .apartmentNumber
  sortOrder := some .asc

/-- A log that was written at this time. -/
def logged (id : String) (createdAt : Nat) : StoredLog where
  id := id
  log :=
    { requestId := id, userId := some "u1", email := some "dana@example.com", deviceId := some "phone",
      sessionId := none, ip := none, userAgent := none, openedBy := .user, status := .success,
      failureReason := none, durationMs := 40, mcu := ⟨true, false, 0⟩ }
  createdAt := createdAt

/-- Two logs of one time and two logs of another one. -/
def twins : List StoredLog := [logged "l1" 5, logged "l2" 5, logged "l3" 7, logged "l4" 7]

def allLogs (limit : Nat) : GetLogsQueryDto where
  email := none
  openedBy := none
  page := none
  limit := some limit

/-- Both neighbours fit on one page, and two logs of the same time fit on each page. -/
theorem lists_show_each_once_neighbours :
    ShowsEachUser (fun _ _ => false) (fun _ => 9) neighbours (byApartment 2) ∧
      ShowsEachLog (fun _ _ => false) twins (allLogs 2) := by
  obtain ⟨husers, hlogs⟩ := @lists_show_each_once_iff (fun _ _ => false) (fun _ => 9) neighbours
    (by decide) (byApartment 2) (by decide) twins (by decide) (allLogs 2) (by decide)
  refine ⟨husers.mpr (by decide +kernel), hlogs.mpr ?_⟩
  decide +kernel

/-- With one user on a page, the two queries can show the same neighbour. -/
theorem one_neighbour_twice :
    ¬ ShowsEachUser (fun _ _ => false) (fun _ => 9) neighbours (byApartment 1) := by
  intro h
  let orders page := if page = 1 then neighbours.users else neighbours.users.reverse
  have horders : ∀ page, IsOrder (SortSpec.cmp UserField.compare (byApartment 1).sort)
      (matchingUsers (fun _ _ => false) neighbours (byApartment 1)) (orders page) := by
    intro page
    by_cases hpage : page = 1
    · simp only [orders, if_pos hpage]
      exact ⟨by decide +kernel, by decide +kernel⟩
    · simp only [orders, if_neg hpage]
      exact ⟨by decide +kernel, by decide +kernel⟩
  have hids := ((h orders horders).1.map UserItem.id)
  revert hids
  decide +kernel

end Backend.ListPages
