-- SUMMARY: The search of the lists of users and of gate logs: for which texts it finds the documents that contain the text.
import ParkingGate.Base.RegexEngine
import ParkingGate.Backend.ListPages

/-!
# Searching the lists

`getUsers` and `getLogsPaginated` put the text that was searched for into the filter as it is, as
the operand of `$regex`. The database compiles every expression of a filter before it looks at a
document, and fails the query if one of them is ill-formed.

The engine of the database is a parameter, and so is the case folding of `$options: 'i'`.
-/

namespace Backend.SearchFilters

open ListPages Regex

variable {δ φ : Type}

/-! ## Conditions -/

/-- `{ field: { $regex: regex, $options: 'i' } }` -/
structure RegexCondition (φ : Type) where
  field : φ
  regex : String

/-- A key of a filter that may be left out. -/
def optional {κ : Type} (compile : κ → Option (δ → Bool)) : Option κ → Option (δ → Bool)
  | none     => some fun _ => true
  | some key => compile key

/-- A document without the field does not match. -/
def RegexCondition.compile (engine : Engine) (get : φ → δ → Option String) (condition : RegexCondition φ) :
    Option (δ → Bool) := do
  let test ← engine condition.regex
  return fun doc => (get condition.field doc).any test

/-- `$or` -/
def compileOr (engine : Engine) (get : φ → δ → Option String) (conditions : List (RegexCondition φ)) :
    Option (δ → Bool) := do
  let tests ← conditions.mapM (·.compile engine get)
  return fun doc => tests.any (· doc)

/-- `find(filter)`, in the order of the collection. -/
def find (test : Option (δ → Bool)) (docs : List δ) : Option (List δ) := test.map docs.filter

/-! ## Users -/

/-- A field of the users that is searched. -/
inductive UserTextField where
  | email | phone | firstName | lastName
  deriving DecidableEq, Repr

def UserTextField.get : UserTextField → User → Option String
  | email, user     => some user.email
  | phone, user     => some user.phone
  | firstName, user => some user.firstName
  | lastName, user  => some user.lastName

structure UsersFilter where
  /-- `$or` -/
  or : Option (List (RegexCondition UserTextField))
  /-- `$and: [{ status }, { $or }]` -/
  and : Option (UserStatus × List (RegexCondition UserTextField))
  status : Option UserStatus

namespace UsersFilter

def empty : UsersFilter := ⟨none, none, none⟩

def conditions (q : String) : List (RegexCondition UserTextField) :=
  [⟨.email, q⟩, ⟨.phone, q⟩, ⟨.firstName, q⟩, ⟨.lastName, q⟩]

def compile (engine : Engine) (filter : UsersFilter) : Option (User → Bool) := do
  let or ← optional (compileOr engine UserTextField.get) filter.or
  let and ← optional (fun (status, or) => do
    let or ← compileOr engine UserTextField.get or
    return fun user => user.status = status && or user) filter.and
  let status ← optional (fun status => some fun user => user.status = status) filter.status
  return fun user => or user && and user && status user

/-- The filter that `getUsers` builds. -/
def build (query : GetUsersQueryDto) : UsersFilter :=
  let status := query.status.getD (.only .pending)
  let filter := empty
  let filter :=
    match query.q with
    | some q => if q ≠ "" then { filter with or := some (conditions q) } else filter
    | none   => filter
  match status with
  | .all => filter
  | .only status =>
    match filter.or with
    | some or => { filter with and := some (status, or), or := none }
    | none    => { filter with status := some status }

end UsersFilter

/-! ## Gate logs -/

structure LogsFilter where
  /-- The expression for the `email`. -/
  email : Option String
  openedBy : Option GateOpenedBy

namespace LogsFilter

def compile (engine : Engine) (filter : LogsFilter) : Option (StoredLog → Bool) := do
  let email ← optional (fun regex => RegexCondition.compile engine
    (fun () doc => doc.log.email) ⟨(), regex⟩) filter.email
  let openedBy ← optional (fun openedBy => some fun doc => doc.log.openedBy = openedBy) filter.openedBy
  return fun doc => email doc && openedBy doc

/-- The filter that `getLogsPaginated` builds. -/
def build (query : GetLogsQueryDto) : LogsFilter :=
  let openedBy := query.openedBy.getD .all
  let filter : LogsFilter := ⟨none, none⟩
  let filter :=
    match query.email with
    | some email => if email ≠ "" then { filter with email := some email } else filter
    | none       => filter
  match openedBy with
  | .all           => filter
  | .only openedBy => { filter with openedBy := some openedBy }

end LogsFilter

/-! ## What the searches are for -/

/-- The filter lets users with this status through. -/
def allowsStatus : UserStatusFilter → UserStatus → Bool
  | .only status, status' => status' = status
  | .all, _               => true

def allowsOpenedBy : OpenedByFilter → GateOpenedBy → Bool
  | .only openedBy, openedBy' => openedBy' = openedBy
  | .all, _                   => true

section Statements

variable (cf : CaseFolding) (engine : Engine)

/-- The text is part of the address, the phone number or one of the names. -/
def IsWanted (query : GetUsersQueryDto) (user : User) : Prop :=
  let contains (text : String) := Contains cf (query.q.getD "").toList text.toList
  allowsStatus (query.status.getD (.only .pending)) user.status ∧
    (contains user.email ∨ contains user.phone ∨ contains user.firstName ∨ contains user.lastName)

instance (query : GetUsersQueryDto) : DecidablePred (IsWanted cf query) := fun _ =>
  inferInstanceAs (Decidable (_ ∧ _))

/-- A log without an address counts as one with an empty address. -/
def IsWantedLog (query : GetLogsQueryDto) (doc : StoredLog) : Prop :=
  Contains cf (query.email.getD "").toList (doc.log.email.getD "").toList ∧
    allowsOpenedBy (query.openedBy.getD .all) doc.log.openedBy

instance (query : GetLogsQueryDto) : DecidablePred (IsWantedLog cf query) := fun _ =>
  inferInstanceAs (Decidable (_ ∧ _))

/-- In every collection the filter selects the users that are wanted. -/
def SelectsUsers (query : GetUsersQueryDto) : Prop :=
  ∀ users : List User, find ((UsersFilter.build query).compile engine) users =
    some (users.filter fun user => IsWanted cf query user)

def SelectsLogs (query : GetLogsQueryDto) : Prop :=
  ∀ docs : List StoredLog, find ((LogsFilter.build query).compile engine) docs =
    some (docs.filter fun doc => IsWantedLog cf query doc)

end Statements

/-! ## What the filters select -/

/-- Whether the text matches, for an expression that the engine takes. -/
def matchesRegex (engine : Engine) (regex text : String) : Bool := (engine regex).any (· text)

variable {engine : Engine} {q : String} {test : String → Bool}

theorem matchesRegex_eq (h : engine q = some test) : matchesRegex engine q = test := by
  funext text
  rw [matchesRegex, h, Option.any_some]

namespace UsersFilter

variable {query : GetUsersQueryDto} {regex : String → String → Bool}

theorem filter_of_not_truthy (h : truthy query.q = false) : query.filter regex = fun user =>
    allowsStatus (query.status.getD (.only .pending)) user.status := by
  funext user
  cases hstatus : query.status.getD (.only .pending) <;>
    simp [GetUsersQueryDto.filter, h, hstatus, allowsStatus]

theorem filter_of_searched (hq : query.q = some q) (hne : q ≠ "") : query.filter regex = fun user =>
    allowsStatus (query.status.getD (.only .pending)) user.status &&
      (regex q user.email || regex q user.phone || regex q user.firstName || regex q user.lastName) := by
  funext user
  cases hstatus : query.status.getD (.only .pending) <;>
    simp [GetUsersQueryDto.filter, hq, truthy, hne, hstatus, allowsStatus]

theorem compileOr_conditions (engine : Engine) (q : String) :
    compileOr engine UserTextField.get (conditions q) = (engine q).map fun test user =>
      test user.email || test user.phone || test user.firstName || test user.lastName := by
  cases h : engine q with
  | none => simp [compileOr, conditions, RegexCondition.compile, h]
  | some test =>
    simp [compileOr, conditions, RegexCondition.compile, h, UserTextField.get, Bool.or_assoc]

/-- Without a text there is at most the key `status`. -/
theorem build_of_not_truthy (h : truthy query.q = false) : build query =
    match query.status.getD (.only .pending) with
    | .all         => empty
    | .only status => { empty with status := some status } := by
  cases hq : query.q with
  | none =>
    simp only [build, hq]
    rfl
  | some q =>
    have hempty : ¬ q ≠ "" := by simpa [hq, truthy] using h
    simp only [build, hq, if_neg hempty]
    rfl

/-- With a text there is one key, `$or` or `$and`. -/
theorem build_of_searched (hq : query.q = some q) (hne : q ≠ "") : build query =
    match query.status.getD (.only .pending) with
    | .all         => { empty with or := some (conditions q) }
    | .only status => { empty with and := some (status, conditions q) } := by
  simp only [build, hq, if_pos hne]
  rfl

theorem compile_build_of_not_truthy (h : truthy query.q = false) :
    (build query).compile engine = some (query.filter (matchesRegex engine)) := by
  rw [build_of_not_truthy h, filter_of_not_truthy h]
  cases query.status.getD (.only .pending) <;>
    simp [compile, optional, empty, allowsStatus]

theorem compile_build_of_searched (hq : query.q = some q) (hne : q ≠ "") :
    (build query).compile engine = (engine q).map fun _ => query.filter (matchesRegex engine) := by
  rw [build_of_searched hq hne, filter_of_searched hq hne]
  cases hengine : engine q with
  | none =>
    cases query.status.getD (.only .pending) <;>
      simp [compile, optional, empty, compileOr_conditions, hengine]
  | some test =>
    cases query.status.getD (.only .pending) <;>
      simp [compile, optional, empty, compileOr_conditions, hengine, matchesRegex_eq hengine,
        allowsStatus]

end UsersFilter

namespace LogsFilter

variable {query : GetLogsQueryDto} {regex : String → String → Bool}

theorem filter_of_not_truthy (h : truthy query.email = false) : query.filter regex = fun doc =>
    allowsOpenedBy (query.openedBy.getD .all) doc.log.openedBy := by
  funext doc
  cases hopenedBy : query.openedBy.getD .all <;>
    simp [GetLogsQueryDto.filter, h, hopenedBy, allowsOpenedBy]

theorem filter_of_searched (hq : query.email = some q) (hne : q ≠ "") : query.filter regex = fun doc =>
    doc.log.email.any (regex q) &&
      allowsOpenedBy (query.openedBy.getD .all) doc.log.openedBy := by
  funext doc
  cases hopenedBy : query.openedBy.getD .all <;>
    simp [GetLogsQueryDto.filter, hq, truthy, hne, hopenedBy, allowsOpenedBy]

theorem compile_build_of_not_truthy (h : truthy query.email = false) :
    (build query).compile engine = some (query.filter (matchesRegex engine)) := by
  rw [filter_of_not_truthy h]
  have hemail : ∀ email ∈ query.email, ¬ email ≠ "" := by
    intro email hmem
    simpa [Option.mem_def.mp hmem, truthy] using h
  cases hopenedBy : query.openedBy.getD .all <;> cases hq : query.email <;>
    simp_all [build, compile, optional, allowsOpenedBy]

theorem compile_build_of_searched (hq : query.email = some q) (hne : q ≠ "") :
    (build query).compile engine = (engine q).map fun _ => query.filter (matchesRegex engine) := by
  rw [filter_of_searched hq hne]
  cases hengine : engine q with
  | none =>
    cases hopenedBy : query.openedBy.getD .all <;>
      simp [build, hq, hne, hopenedBy, compile, optional, RegexCondition.compile, hengine]
  | some test =>
    cases hopenedBy : query.openedBy.getD .all <;>
      simp [build, hq, hne, hopenedBy, compile, optional, RegexCondition.compile, hengine,
        matchesRegex_eq hengine, allowsOpenedBy]

end LogsFilter

/-! ## Which searches are for a substring -/

section Searches

variable {cf : CaseFolding}

theorem contains_nil (text : List Char) : Contains cf [] text := List.nil_infix

theorem find_eq_iff {compiled : Option (δ → Bool)} {wanted : δ → Prop} [DecidablePred wanted] :
    (∀ docs, find compiled docs = some (docs.filter fun doc => wanted doc)) ↔
      ∃ test, compiled = some test ∧ ∀ doc, test doc ↔ wanted doc := by
  constructor
  · intro h
    obtain ⟨test, hcompiled, -⟩ := Option.map_eq_some_iff.mp (h [])
    refine ⟨test, hcompiled, fun doc => ?_⟩
    have hdoc := h [doc]
    simp only [find, hcompiled, Option.map_some, Option.some.injEq, List.filter_singleton] at hdoc
    by_cases htest : test doc <;> by_cases hwanted : wanted doc <;> simp_all
  · rintro ⟨test, rfl, htest⟩ docs
    have heq : test = fun doc => decide (wanted doc) := funext fun doc => by
      rw [Bool.eq_iff_iff, htest, decide_eq_true_iff]
    rw [find, Option.map_some, heq]

theorem truthy_eq_false_iff {given : Option String} : truthy given = false ↔ given.getD "" = "" := by
  cases given <;> simp [truthy]

section Users

variable {query : GetUsersQueryDto}

theorem selectsUsers_of_not_truthy (h : truthy query.q = false) : SelectsUsers cf engine query := by
  refine find_eq_iff.mpr ⟨_, UsersFilter.compile_build_of_not_truthy h, fun user => ?_⟩
  rw [UsersFilter.filter_of_not_truthy h]
  simp [IsWanted, truthy_eq_false_iff.mp h, contains_nil]

/-- A user of the wanted status with the same text everywhere. -/
def namesake (query : GetUsersQueryDto) (text : String) : User where
  __ := AuthService.resident
  status :=
    match query.status.getD (.only .pending) with
    | .only status => status
    | .all         => .approved
  email := text
  phone := text
  firstName := text
  lastName := text

@[simp]
theorem allowsStatus_namesake (query : GetUsersQueryDto) (text : String) :
    allowsStatus (query.status.getD (.only .pending)) (namesake query text).status := by
  unfold namesake
  cases query.status.getD (.only .pending) <;> simp [allowsStatus]

@[simp]
theorem namesake_email (query : GetUsersQueryDto) (text : String) : (namesake query text).email = text := rfl

@[simp]
theorem namesake_phone (query : GetUsersQueryDto) (text : String) : (namesake query text).phone = text := rfl

@[simp]
theorem namesake_firstName (query : GetUsersQueryDto) (text : String) :
    (namesake query text).firstName = text := rfl

@[simp]
theorem namesake_lastName (query : GetUsersQueryDto) (text : String) :
    (namesake query text).lastName = text := rfl

theorem selectsUsers_iff (hq : query.q = some q) (hne : q ≠ "") :
    SelectsUsers cf engine query ↔ FindsSubstring cf engine q := by
  rw [SelectsUsers, find_eq_iff, UsersFilter.compile_build_of_searched hq hne,
    UsersFilter.filter_of_searched hq hne]
  constructor
  · rintro ⟨_, hcompiled, hwanted⟩
    obtain ⟨test, hengine, rfl⟩ := Option.map_eq_some_iff.mp hcompiled
    refine ⟨test, hengine, fun text => ?_⟩
    have htext := hwanted (namesake query text)
    simpa [IsWanted, matchesRegex_eq hengine, hq] using htext
  · rintro ⟨test, hengine, htest⟩
    rw [hengine]
    refine ⟨_, rfl, fun user => ?_⟩
    simp [IsWanted, matchesRegex_eq hengine, hq, htest, or_assoc]

end Users

section Logs

variable {query : GetLogsQueryDto}

theorem selectsLogs_of_not_truthy (h : truthy query.email = false) : SelectsLogs cf engine query := by
  refine find_eq_iff.mpr ⟨_, LogsFilter.compile_build_of_not_truthy h, fun doc => ?_⟩
  rw [LogsFilter.filter_of_not_truthy h]
  simp [IsWantedLog, truthy_eq_false_iff.mp h, contains_nil]

/-- A log of the wanted kind with this address. -/
def logOf (query : GetLogsQueryDto) (text : String) : StoredLog where
  id := "log"
  log :=
    { requestId := "r1", userId := none, email := some text, deviceId := none, sessionId := none,
      ip := none, userAgent := none,
      openedBy :=
        match query.openedBy.getD .all with
        | .only openedBy => openedBy
        | .all           => .user,
      status := .success, failureReason := none, durationMs := 0, mcu := ⟨true, false, 0⟩ }
  createdAt := 0

@[simp]
theorem allowsOpenedBy_logOf (query : GetLogsQueryDto) (text : String) :
    allowsOpenedBy (query.openedBy.getD .all) (logOf query text).log.openedBy := by
  unfold logOf
  cases query.openedBy.getD .all <;> simp [allowsOpenedBy]

@[simp]
theorem logOf_email (query : GetLogsQueryDto) (text : String) : (logOf query text).log.email = some text :=
  rfl

theorem selectsLogs_iff (hq : query.email = some q) (hne : q ≠ "") :
    SelectsLogs cf engine query ↔ FindsSubstring cf engine q := by
  rw [SelectsLogs, find_eq_iff, LogsFilter.compile_build_of_searched hq hne,
    LogsFilter.filter_of_searched hq hne]
  constructor
  · rintro ⟨_, hcompiled, hwanted⟩
    obtain ⟨test, hengine, rfl⟩ := Option.map_eq_some_iff.mp hcompiled
    refine ⟨test, hengine, fun text => ?_⟩
    have htext := hwanted (logOf query text)
    simpa [IsWantedLog, matchesRegex_eq hengine, hq] using htext
  · rintro ⟨test, hengine, htest⟩
    rw [hengine]
    refine ⟨_, rfl, fun doc => ?_⟩
    cases hemail : doc.log.email with
    | none =>
      -- An empty address does not contain the text, and the expression does not see it.
      have hcontains : ¬ Contains cf q.toList [] := fun h =>
        hne (String.toList_eq_nil_iff.mp (List.eq_nil_of_length_eq_zero (Nat.le_zero.mp h.length_le)))
      simp [IsWantedLog, hemail, hq, hcontains]
    | some email => simp [IsWantedLog, hemail, matchesRegex_eq hengine, hq, htest]

end Logs

/-- A search that is skipped without a text, and leaves a text to the engine. -/
theorem plain_of_search {given : Option String} {Selects : Prop}
    (hnone : truthy given = false → Selects)
    (hsome : ∀ q, given = some q → q ≠ "" → (Selects ↔ FindsSubstring cf engine q))
    (h : Interprets cf engine (given.getD "")) :
    (Plain (given.getD "").toList → Selects) ∧
      (Supported (given.getD "") → (Selects ↔ Plain (given.getD "").toList)) := by
  by_cases hempty : given.getD "" = ""
  · have hselects : Selects := hnone (truthy_eq_false_iff.mpr hempty)
    rw [hempty]
    exact ⟨fun _ => hselects, fun _ => ⟨fun _ => trivial, fun _ => hselects⟩⟩
  · cases given with
    | none => exact (hempty rfl).elim
    | some q =>
      rw [hsome q rfl hempty]
      exact ⟨h.findsSubstring, fun hsupported => ⟨h.plain hsupported, h.findsSubstring⟩⟩

end Searches

/-- Both searches select the documents that contain the text if the text is plain. A text that is
    not plain makes them select others, or fail, as far as the expressions are known. -/
theorem searches_for_substring_iff {cf : CaseFolding} {engine : Engine}
    {users : GetUsersQueryDto} (husers : Interprets cf engine (users.q.getD ""))
    {logs : GetLogsQueryDto} (hlogs : Interprets cf engine (logs.email.getD "")) :
    ((Plain (users.q.getD "").toList → SelectsUsers cf engine users) ∧
      (Supported (users.q.getD "") →
        (SelectsUsers cf engine users ↔ Plain (users.q.getD "").toList))) ∧
    ((Plain (logs.email.getD "").toList → SelectsLogs cf engine logs) ∧
      (Supported (logs.email.getD "") →
        (SelectsLogs cf engine logs ↔ Plain (logs.email.getD "").toList))) :=
  ⟨plain_of_search selectsUsers_of_not_truthy (fun _ => selectsUsers_iff) husers,
    plain_of_search selectsLogs_of_not_truthy (fun _ => selectsLogs_iff) hlogs⟩

def asciiFolding : CaseFolding := ⟨Char.toLower, by decide⟩

def searchUsers (q : String) : GetUsersQueryDto := ⟨some (.only .approved), some q, none, none, none, none⟩

def searchLogs (email : String) : GetLogsQueryDto := ⟨some email, none, none, none⟩

theorem searches_for_substring_dana :
    SelectsUsers asciiFolding (reference asciiFolding) (searchUsers "dana") ∧
      SelectsLogs asciiFolding (reference asciiFolding) (searchLogs "dana") := by
  have hdana : Interprets asciiFolding (reference asciiFolding) "dana" := reference_interprets "dana"
  obtain ⟨⟨husers, -⟩, ⟨hlogs, -⟩⟩ :=
    @searches_for_substring_iff _ _ (searchUsers "dana") hdana (searchLogs "dana") hdana
  exact ⟨husers (by decide), hlogs (by decide)⟩

/-- A resident with a tag in the address. -/
def tagged : User :=
  { AuthService.resident with email := "dana+gate@example.com", status := .approved }

/-- The search for the whole address finds neither its user nor its logs. -/
theorem tagged_not_found :
    ¬ SelectsUsers asciiFolding (reference asciiFolding) (searchUsers tagged.email) ∧
      ¬ SelectsLogs asciiFolding (reference asciiFolding) (searchLogs tagged.email) := by
  constructor
  · intro h
    have htagged := h [tagged]
    revert htagged
    decide +kernel
  · intro h
    have hlogs := congrArg (Option.map (List.map StoredLog.id))
      (h [logOf (searchLogs tagged.email) tagged.email])
    revert hlogs
    decide +kernel

/-- The search for a phone number with the country code fails. -/
example : find ((UsersFilter.build (searchUsers "+972")).compile (reference asciiFolding)) [tagged] =
    none := by decide +kernel

end Backend.SearchFilters
