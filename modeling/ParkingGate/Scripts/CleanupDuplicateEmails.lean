-- SUMMARY: The migration that removes duplicate accounts (`scripts/cleanup-duplicate-emails.ts` and its mongosh version) as a list of writes.
import Mathlib.Data.List.DropRight
import ParkingGate.Backend.AdminService

/-!
# Cleaning up duplicate e-mail addresses

Both scripts group the users by their trimmed and lower-cased address, sort every group with
more than one user by the time of creation, delete all but the first, and set its address.
After that they normalise the addresses of the users without a duplicate. They differ in how
they read the time.

What the scripts read decides which writes they make. The writes are listed one by one, a
deletion of many users as one write for each.
-/

namespace Scripts.CleanupDuplicateEmails

open Backend (Session)
open Backend.AdminService (isWhiteSpace)
open Collection

/-! ## Documents -/

/-- A user document; `rest` stands for the fields the scripts do not use. -/
structure UserDoc (ρ : Type) where
  id : String
  email : String
  createdAt : Option Nat
  rest : ρ
  deriving DecidableEq, Repr

structure Collections (ρ : Type) where
  users : List (UserDoc ρ)
  sessions : List Session
  deriving DecidableEq, Repr

/-! ## Addresses -/

/-- Without the characters of `p` at both ends. -/
def trim (p : Char → Bool) (text : List Char) : List Char := (text.dropWhile p).rdropWhile p

/-- The white space of `$trim`. -/
def isMongoSpace (c : Char) : Bool :=
  c.toNat ∈ [0x0, 0x9, 0xA, 0xB, 0xC, 0xD, 0x20, 0xA0, 0x1680] ∨ 0x2000 ≤ c.toNat ∧ c.toNat ≤ 0x200A

/-- `{ $toLower: { $trim: { input: '$email' } } }` -/
def normEmail (email : String) : String :=
  String.ofList ((trim isMongoSpace email.toList).map Char.toLower)

/-- `String(u.email).trim().toLowerCase()`, of an ASCII string. -/
def normalized (email : String) : String :=
  String.ofList ((trim isWhiteSpace email.toList).map Char.toLower)

/-- An address in ASCII, without the null character. -/
def IsAscii (email : String) : Prop := ∀ c ∈ email.toList, 0 < c.toNat ∧ c.toNat < 128

section Addresses

variable {p q : Char → Bool} {text : List Char}

theorem dropWhile_congr (h : ∀ c ∈ text, p c = q c) : text.dropWhile p = text.dropWhile q := by
  induction text with
  | nil => rfl
  | cons c text ih =>
    obtain ⟨hc, htext⟩ := List.forall_mem_cons.mp h
    rw [List.dropWhile_cons, List.dropWhile_cons, hc, ih htext]

theorem trim_congr (h : ∀ c ∈ text, p c = q c) : trim p text = trim q text := by
  have hrest : ∀ c ∈ (text.dropWhile q).reverse, p c = q c := fun c hc =>
    h c ((List.dropWhile_sublist q).mem (List.mem_reverse.mp hc))
  rw [trim, trim, dropWhile_congr h, List.rdropWhile, List.rdropWhile, dropWhile_congr hrest]

/-- Both scripts normalise an ASCII address alike. -/
theorem normalized_eq {email : String} (h : IsAscii email) : normalized email = normEmail email := by
  have hspace : ∀ c ∈ email.toList, isWhiteSpace c = isMongoSpace c := by
    intro c hc
    obtain ⟨hlow, hhigh⟩ := h c hc
    simp only [isWhiteSpace, isMongoSpace, List.mem_cons, List.not_mem_nil, or_false]
    rw [decide_eq_decide]
    omega
  rw [normalized, normEmail, trim_congr hspace]

theorem trim_map (f : Char → Char) (h : ∀ c, p (f c) = p c) :
    trim p (text.map f) = (trim p text).map f := by
  have hcomp : p ∘ f = p := funext h
  simp only [trim, List.rdropWhile, List.dropWhile_map, ← List.map_reverse, hcomp]

theorem trim_trim : trim p (trim p text) = trim p text := by
  have hhead : (trim p text).dropWhile p = trim p text := by
    cases htrim : trim p text with
    | nil => rfl
    | cons c rest =>
      -- The first character is the one that `dropWhile` stopped at.
      obtain ⟨tail, htail⟩ := List.rdropWhile_prefix p (text.dropWhile p)
      rw [show (text.dropWhile p).rdropWhile p = c :: rest from htrim] at htail
      have hdropped := List.dropWhile_idempotent p text
      rw [← htail, List.cons_append] at hdropped
      cases hc : p c with
      | false => simp [hc]
      | true =>
        rw [List.dropWhile_cons_of_pos hc] at hdropped
        have hlength := (List.dropWhile_sublist (l := rest ++ tail) p).length_le
        rw [hdropped] at hlength
        simp only [List.length_cons, List.length_append] at hlength
        omega
  rw [trim, hhead]
  exact List.rdropWhile_idempotent p _

theorem toNat_toLower (c : Char) :
    c.toLower.toNat = if 65 ≤ c.toNat ∧ c.toNat ≤ 90 then c.toNat + 32 else c.toNat := by
  have hupper : (c.val ≥ 'A'.val ∧ c.val ≤ 'Z'.val) ↔ 65 ≤ c.toNat ∧ c.toNat ≤ 90 := Iff.rfl
  unfold Char.toLower
  split
  next h =>
    have hrange := hupper.mp h
    rw [if_pos hrange]
    change (c.val + 32).toNat = c.val.toNat + 32
    have hval : c.val.toNat ≤ 90 := hrange.2
    rw [UInt32.toNat_add]
    exact Nat.mod_eq_of_lt (by simp; omega)
  next h => rw [if_neg (hupper.not.mp h)]

theorem toLower_toLower (c : Char) : c.toLower.toLower = c.toLower := by
  apply Char.toNat_inj.mp
  have honce := toNat_toLower c
  have htwice := toNat_toLower c.toLower
  split at honce <;> split at htwice <;> omega

theorem isMongoSpace_toLower (c : Char) : isMongoSpace c.toLower = isMongoSpace c := by
  simp only [isMongoSpace, List.mem_cons, List.not_mem_nil, or_false, toNat_toLower]
  rw [decide_eq_decide]
  split <;> omega

theorem normEmail_normEmail (email : String) : normEmail (normEmail email) = normEmail email := by
  rw [normEmail, normEmail, String.toList_ofList, trim_map _ isMongoSpace_toLower, trim_trim,
    List.map_map]
  congr 1
  exact List.map_congr_left fun c _ => toLower_toLower c

end Addresses

/-! ## Times -/

/-- The distance of the local time of the process from UTC, in milliseconds. -/
structure Zone where
  offset : Int
  bounded : offset.natAbs ≤ 14 * 60 * 60 * 1000

/-- `new Date(String(a.createdAt ?? 0)).getTime()`: the string has no milliseconds, and `"0"` is
    read as the start of the year 2000. -/
def scriptTime {ρ : Type} (zone : Zone) (doc : UserDoc ρ) : Int :=
  match doc.createdAt with
  | some ms => ↑(ms / 1000 * 1000)
  | none    => 946684800000 - zone.offset

/-- `new Date(a.createdAt || 0).getTime()` -/
def mongoshTime {ρ : Type} (doc : UserDoc ρ) : Int := ↑(doc.createdAt.getD 0)

/-! ## Writes -/

inductive Write where
  | deleteUser (id : String)
  | deleteSessions (userIds : List String)
  | setEmail (id email : String)
  deriving DecidableEq, Repr

section Script

variable {ρ : Type}

namespace Write

def run (s : Collections ρ) : Write → Collections ρ
  | deleteUser id          => { s with users := deleteMany (·.id == id) s.users }
  | deleteSessions userIds => { s with sessions := deleteMany (userIds.contains ·.userId) s.sessions }
  | setEmail id email      =>
    { s with users := updateOne (·.id == id) (fun doc => { doc with email }) s.users }

end Write

def runAll (s : Collections ρ) (writes : List Write) : Collections ρ := writes.foldl Write.run s

/-! ## The script -/

/-- A result of the aggregation; the count is the length of the list. -/
structure Group (ρ : Type) where
  id : String
  docs : List (UserDoc ρ)

def sameAddress (users : List (UserDoc ρ)) (address : String) : List (UserDoc ρ) :=
  users.filter (normEmail ·.email == address)

/-- The order in which `$group` returns the addresses. -/
structure IsGroupOrder (users : List (UserDoc ρ)) (order : List String) : Prop where
  nodup : order.Nodup
  mem : ∀ address, address ∈ order ↔ ∃ u ∈ users, normEmail u.email = address

def aggregate (order : List String) (users : List (UserDoc ρ)) : List (Group ρ) :=
  (order.map fun address => ⟨address, sameAddress users address⟩).filter fun g => 1 < g.docs.length

variable (time : UserDoc ρ → Int)

/-- Newest first. -/
def sorted (docs : List (UserDoc ρ)) : List (UserDoc ρ) := docs.mergeSort fun a b => time b ≤ time a

def groupWrites (g : Group ρ) : List Write :=
  match sorted time g.docs with
  | []               => []
  | keeper :: losers =>
    losers.map (fun doc => .deleteUser doc.id) ++ [.deleteSessions (losers.map UserDoc.id)] ++
      if keeper.email ≠ g.id then [.setEmail keeper.id g.id] else []

def handled (groups : List (Group ρ)) : List String :=
  groups.flatMap fun g => g.docs.map UserDoc.id

def stragglers (groups : List (Group ρ)) (users : List (UserDoc ρ)) : List (UserDoc ρ) :=
  users.filter fun doc => doc.email ≠ normEmail doc.email ∧ doc.id ∉ handled groups

/-- The writes of a run with `--apply`. -/
def writes (order : List String) (s : Collections ρ) : List Write :=
  let groups := aggregate order s.users
  let duplicates := groups.flatMap (groupWrites time)
  duplicates ++ (stragglers groups (runAll s duplicates).users).map fun doc =>
    .setEmail doc.id (normalized doc.email)

def main (order : List String) (s : Collections ρ) : Collections ρ := runAll s (writes time order s)

/-! ## What the writes make of a user -/

namespace Write

/-- What the write makes of one user. -/
def onUser (doc : UserDoc ρ) : Write → Option (UserDoc ρ)
  | deleteUser id     => if doc.id = id then none else some doc
  | deleteSessions _  => some doc
  | setEmail id email => some (if doc.id = id then { doc with email } else doc)

/-- The user that the write is about. -/
def target : Write → Option String
  | deleteUser id    => some id
  | deleteSessions _ => none
  | setEmail id _    => some id

theorem onUser_id {w : Write} {doc doc' : UserDoc ρ} (h : w.onUser doc = some doc') :
    doc'.id = doc.id := by
  cases w with
  | deleteUser id => rw [← Option.some.inj (Option.ite_none_left_eq_some.mp h).2]
  | deleteSessions => rw [Option.some.inj h]
  | setEmail id email =>
    rw [← Option.some.inj h]
    split <;> rfl

theorem onUser_of_target {w : Write} {doc : UserDoc ρ} (h : w.target ≠ some doc.id) :
    w.onUser doc = some doc := by
  cases w with
  | deleteUser id => exact if_neg fun hid => h (congrArg some hid.symm)
  | deleteSessions => rfl
  | setEmail id email => exact congrArg some (if_neg fun hid => h (congrArg some hid.symm))

theorem users_run {s : Collections ρ} (hids : Keyed UserDoc.id s.users) (w : Write) :
    (w.run s).users = s.users.filterMap w.onUser := by
  cases w with
  | deleteUser id =>
    rw [run, deleteMany, ← List.filterMap_eq_filter]
    refine List.filterMap_congr fun doc _ => ?_
    by_cases hid : doc.id = id <;> simp [onUser, Option.guard, hid]
  | deleteSessions => simp [run, onUser]
  | setEmail id email =>
    rw [run, hids.updateOne_eq_map, ← List.filterMap_eq_map]
    rfl

end Write

/-- What a list of writes makes of one user. -/
def fate (writes : List Write) (doc : UserDoc ρ) : Option (UserDoc ρ) :=
  writes.foldlM Write.onUser doc

@[simp] theorem fate_nil (doc : UserDoc ρ) : fate [] doc = some doc := rfl

@[simp] theorem fate_cons (w : Write) (writes : List Write) (doc : UserDoc ρ) :
    fate (w :: writes) doc = (w.onUser doc).bind (fate writes) := rfl

theorem fate_append (writes writes' : List Write) (doc : UserDoc ρ) :
    fate (writes ++ writes') doc = (fate writes doc).bind (fate writes') :=
  List.foldlM_append

theorem fate_id {writes : List Write} {doc doc' : UserDoc ρ} (h : fate writes doc = some doc') :
    doc'.id = doc.id := by
  induction writes generalizing doc with
  | nil => rw [Option.some.inj h]
  | cons w writes ih =>
    obtain ⟨next, hnext, hrest⟩ := Option.bind_eq_some_iff.mp h
    rw [ih hrest, Write.onUser_id hnext]

/-- Writes about others leave the user alone. -/
theorem fate_of_targets {writes : List Write} {doc : UserDoc ρ}
    (h : ∀ w ∈ writes, w.target ≠ some doc.id) : fate writes doc = some doc := by
  induction writes with
  | nil => rfl
  | cons w writes ih =>
    obtain ⟨hw, hwrites⟩ := List.forall_mem_cons.mp h
    rw [fate_cons, Write.onUser_of_target hw, Option.bind_some, ih hwrites]

theorem fate_deleted {writes : List Write} {doc : UserDoc ρ} (h : .deleteUser doc.id ∈ writes) :
    fate writes doc = none := by
  obtain ⟨before, after, rfl⟩ := List.append_of_mem h
  rw [fate_append]
  cases hbefore : fate before doc with
  | none => rfl
  | some doc' => simp [Write.onUser, fate_id hbefore]

theorem keyed_filterMap {f : UserDoc ρ → Option (UserDoc ρ)} {users : List (UserDoc ρ)}
    (hids : Keyed UserDoc.id users) (hf : ∀ doc doc', f doc = some doc' → doc'.id = doc.id) :
    Keyed UserDoc.id (users.filterMap f) := by
  have hsub : ((users.filterMap f).map UserDoc.id).Sublist (users.map UserDoc.id) := by
    clear hids
    induction users with
    | nil => exact List.Sublist.slnil
    | cons doc users ih =>
      cases hdoc : f doc with
      | none =>
        rw [List.filterMap_cons_none hdoc]
        exact ih.cons _
      | some doc' =>
        rw [List.filterMap_cons_some hdoc, List.map_cons, List.map_cons, hf doc doc' hdoc]
        exact ih.cons_cons _
  exact hsub.nodup hids

theorem users_runAll {s : Collections ρ} (hids : Keyed UserDoc.id s.users) (writes : List Write) :
    (runAll s writes).users = s.users.filterMap (fate writes) := by
  induction writes generalizing s with
  | nil => exact List.filterMap_some.symm
  | cons w writes ih =>
    have hrun := Write.users_run hids w
    have hids' : Keyed UserDoc.id (w.run s).users := by
      rw [hrun]
      exact keyed_filterMap hids fun _ _ => Write.onUser_id
    rw [runAll, List.foldl_cons, ← runAll, ih hids', hrun, List.filterMap_filterMap]
    rfl

theorem keyed_runAll {s : Collections ρ} (hids : Keyed UserDoc.id s.users) (writes : List Write) :
    Keyed UserDoc.id (runAll s writes).users := by
  rw [users_runAll hids]
  exact keyed_filterMap hids fun _ _ => fate_id

/-! ## The groups -/

section Groups

variable {users : List (UserDoc ρ)} {order : List String} {address : String} {u v : UserDoc ρ}

@[simp] theorem mem_sameAddress : u ∈ sameAddress users address ↔ u ∈ users ∧ normEmail u.email = address := by
  simp [sameAddress]

theorem mem_aggregate {g : Group ρ} : g ∈ aggregate order users ↔
    (∃ address ∈ order, g = ⟨address, sameAddress users address⟩) ∧ 1 < g.docs.length := by
  simp [aggregate, eq_comm]

/-- The first of the newest, in the order of the script. -/
def IsKeeper (time : UserDoc ρ → Int) (users : List (UserDoc ρ)) (u : UserDoc ρ) : Prop :=
  IsFirstGreatest time (sameAddress users (normEmail u.email)) u

/-- With the address normalised. -/
def normalize (u : UserDoc ρ) : UserDoc ρ := { u with email := normEmail u.email }

variable {time : UserDoc ρ → Int}

theorem head?_sorted_iff {docs : List (UserDoc ρ)} (hnodup : docs.Nodup) :
    (sorted time docs).head? = some u ↔ IsFirstGreatest time docs u :=
  head?_mergeSort_iff hnodup

variable (time) in
/-- What the writes for a group make of its documents. -/
theorem fate_groupWrites {g : Group ρ} (hids : Keyed UserDoc.id g.docs) (hu : u ∈ g.docs)
    (haddress : normEmail u.email = g.id) :
    (IsFirstGreatest time g.docs u → fate (groupWrites time g) u = some (normalize u)) ∧
    (¬ IsFirstGreatest time g.docs u → fate (groupWrites time g) u = none) := by
  have hnodup : g.docs.Nodup := List.Nodup.of_map UserDoc.id hids
  have hperm : (sorted time g.docs).Perm g.docs := List.mergeSort_perm _ _
  rw [← head?_sorted_iff hnodup, groupWrites]
  cases hsorted : sorted time g.docs with
  | nil =>
    rw [hsorted] at hperm
    rw [List.nil_perm.mp hperm] at hu
    cases hu
  | cons keeper losers =>
    rw [hsorted] at hperm
    have hkeyed : Keyed UserDoc.id (keeper :: losers) := (hperm.map UserDoc.id).nodup_iff.mpr hids
    have hmem := hperm.mem_iff.mpr hu
    simp only [List.head?_cons, Option.some.injEq]
    constructor
    · rintro rfl
      have hothers : ∀ w ∈ losers.map (fun doc => Write.deleteUser doc.id) ++
          [.deleteSessions (losers.map UserDoc.id)], w.target ≠ some keeper.id := by
        intro w hw
        rcases List.mem_append.mp hw with hw | hw
        · obtain ⟨loser, hloser, rfl⟩ := List.mem_map.mp hw
          intro hid
          have hid : loser.id = keeper.id := Option.some.inj hid
          exact (List.nodup_cons.mp hkeyed).1 (hid ▸ List.mem_map_of_mem hloser)
        · rw [List.mem_singleton.mp hw]
          exact nofun
      rw [fate_append, fate_of_targets hothers, Option.bind_some]
      split
      · simp [Write.onUser, normalize, haddress]
      · rename_i hsame
        rw [normalize, haddress, ← not_not.mp hsame]
        rfl
    · intro hne
      have hloser : u ∈ losers := (List.mem_cons.mp hmem).resolve_left (Ne.symm hne)
      apply fate_deleted
      simp only [List.mem_append, List.mem_map]
      exact .inl (.inl ⟨u, hloser, rfl⟩)

theorem target_groupWrites {g : Group ρ} {w : Write} (hw : w ∈ groupWrites time g) {id : String}
    (htarget : w.target = some id) : id ∈ g.docs.map UserDoc.id := by
  have hperm : (sorted time g.docs).Perm g.docs := List.mergeSort_perm _ _
  rw [← (hperm.map UserDoc.id).mem_iff]
  unfold groupWrites at hw
  cases hsorted : sorted time g.docs with
  | nil =>
    rw [hsorted] at hw
    cases hw
  | cons keeper losers =>
    rw [hsorted] at hw
    simp only [List.mem_append, List.mem_map, List.mem_singleton] at hw
    rcases hw with (⟨loser, hloser, rfl⟩ | rfl) | hw
    · obtain rfl := Option.some.inj htarget
      exact List.mem_cons_of_mem _ (List.mem_map_of_mem hloser)
    · cases htarget
    · split at hw
      · rw [List.mem_singleton.mp hw] at htarget
        obtain rfl := Option.some.inj htarget
        exact List.mem_cons_self
      · cases hw

section Fates

variable (horder : IsGroupOrder users order) (hids : Keyed UserDoc.id users) (hu : u ∈ users)

include horder in
theorem aggregate_nodup : (aggregate order users).Nodup :=
  (horder.nodup.map fun _ _ h => congrArg Group.id h).filter _

include hids hu in
/-- A group whose writes are about the user is the group of its address. -/
theorem group_of_target {g : Group ρ} (hg : g ∈ aggregate order users) {w : Write}
    (hw : w ∈ groupWrites time g) (htarget : w.target = some u.id) :
    g = ⟨normEmail u.email, sameAddress users (normEmail u.email)⟩ := by
  obtain ⟨⟨address, -, rfl⟩, -⟩ := mem_aggregate.mp hg
  obtain ⟨v, hv, hid⟩ := List.mem_map.mp (target_groupWrites hw htarget)
  obtain ⟨hmem, rfl⟩ := mem_sameAddress.mp hv
  rw [hids.eq_of_key hmem hu hid]

variable (time) in
include horder hids hu in
/-- What becomes of a user with a duplicate when the groups are dealt with. -/
theorem fate_duplicate (hdup : 1 < (sameAddress users (normEmail u.email)).length) :
    (IsKeeper time users u →
      fate ((aggregate order users).flatMap (groupWrites time)) u = some (normalize u)) ∧
    (¬ IsKeeper time users u →
      fate ((aggregate order users).flatMap (groupWrites time)) u = none) := by
  have hg : (⟨normEmail u.email, sameAddress users (normEmail u.email)⟩ : Group ρ) ∈
      aggregate order users :=
    mem_aggregate.mpr ⟨⟨_, (horder.mem _).mpr ⟨u, hu, rfl⟩, rfl⟩, hdup⟩
  have hnodup := aggregate_nodup horder
  obtain ⟨before, after, hsplit⟩ := List.append_of_mem hg
  rw [hsplit] at hnodup
  have hothers : ∀ g ∈ before ++ after, ∀ w ∈ groupWrites time g, w.target ≠ some u.id := by
    intro g hgmem w hw htarget
    have hgroup : g ∈ aggregate order users := by
      rw [hsplit]
      exact List.perm_middle.mem_iff.mpr (List.mem_cons_of_mem _ hgmem)
    obtain rfl := group_of_target hids hu hgroup hw htarget
    exact (List.nodup_cons.mp (List.perm_middle.nodup_iff.mp hnodup)).1 hgmem
  have hbefore : fate (before.flatMap (groupWrites time)) u = some u := by
    refine fate_of_targets fun w hw => ?_
    obtain ⟨g, hg, hw⟩ := List.mem_flatMap.mp hw
    exact hothers g (List.mem_append_left _ hg) w hw
  have hafter : fate (after.flatMap (groupWrites time)) (normalize u) = some (normalize u) := by
    refine fate_of_targets fun w hw => ?_
    obtain ⟨g, hg, hw⟩ := List.mem_flatMap.mp hw
    exact hothers g (List.mem_append_right _ hg) w hw
  have hdocs : Keyed UserDoc.id (sameAddress users (normEmail u.email)) :=
    (List.filter_sublist.map UserDoc.id).nodup hids
  obtain ⟨hkeeper, hloser⟩ := fate_groupWrites time
    (g := ⟨normEmail u.email, sameAddress users (normEmail u.email)⟩) hdocs
    (mem_sameAddress.mpr ⟨hu, rfl⟩) rfl
  rw [hsplit, List.flatMap_append, List.flatMap_cons, fate_append, hbefore, Option.bind_some,
    fate_append]
  constructor
  · intro h
    rw [hkeeper h, Option.bind_some, hafter]
  · intro h
    rw [hloser h, Option.bind_none]

variable (time order) in
include hids hu in
theorem fate_single (hsingle : ¬ 1 < (sameAddress users (normEmail u.email)).length) :
    fate ((aggregate order users).flatMap (groupWrites time)) u = some u := by
  refine fate_of_targets fun w hw htarget => ?_
  obtain ⟨g, hg, hw⟩ := List.mem_flatMap.mp hw
  obtain rfl := group_of_target hids hu hg hw htarget
  exact hsingle (mem_aggregate.mp hg).2

include hu in
theorem isKeeper_of_single (hsingle : ¬ 1 < (sameAddress users (normEmail u.email)).length) :
    IsKeeper time users u := by
  have hmem : u ∈ sameAddress users (normEmail u.email) := mem_sameAddress.mpr ⟨hu, rfl⟩
  obtain ⟨l, r, hdocs⟩ := List.append_of_mem hmem
  rw [hdocs] at hsingle
  have hl : l = [] := List.eq_nil_of_length_eq_zero (by simp at hsingle; omega)
  have hr : r = [] := List.eq_nil_of_length_eq_zero (by simp at hsingle; omega)
  exact ⟨l, r, hdocs, by simp [hl], by simp [hr]⟩

end Fates

/-! ## What becomes of a user -/

section Stragglers

variable {s : Collections ρ}

/-- The second part of the script. -/
theorem fate_stragglers (groups : List (Group ρ)) {s : Collections ρ} (hids : Keyed UserDoc.id s.users)
    (hu : u ∈ s.users) (hascii : u.id ∉ handled groups → IsAscii u.email) :
    fate ((stragglers groups s.users).map fun doc => .setEmail doc.id (normalized doc.email)) u =
      some (if u.id ∈ handled groups then u else normalize u) := by
  have hothers : ∀ {docs : List (UserDoc ρ)} {v : UserDoc ρ}, (∀ doc ∈ docs, doc.id ≠ v.id) →
      fate (docs.map fun doc => .setEmail doc.id (normalized doc.email)) v = some v := by
    intro docs v hdocs
    refine fate_of_targets fun w hw htarget => ?_
    obtain ⟨doc, hdoc, rfl⟩ := List.mem_map.mp hw
    exact hdocs doc hdoc (Option.some.inj htarget)
  by_cases hmem : u ∈ stragglers groups s.users
  · have hkeyed : Keyed UserDoc.id (stragglers groups s.users) :=
      (List.filter_sublist.map UserDoc.id).nodup hids
    have hunhandled : u.id ∉ handled groups := by
      have htest := (List.mem_filter.mp hmem).2
      simp only [decide_eq_true_eq] at htest
      exact htest.2
    obtain ⟨before, after, hsplit⟩ := List.append_of_mem hmem
    rw [hsplit, Keyed, List.map_append, List.map_cons] at hkeyed
    have hrest := (List.nodup_cons.mp (List.perm_middle.nodup_iff.mp hkeyed)).1
    have hbefore : ∀ doc ∈ before, doc.id ≠ u.id := fun doc hdoc hid =>
      hrest (List.mem_append_left _ (hid ▸ List.mem_map_of_mem hdoc))
    have hafter : ∀ doc ∈ after, doc.id ≠ (normalize u).id := fun doc hdoc hid =>
      hrest (List.mem_append_right _ (hid ▸ List.mem_map_of_mem hdoc))
    have hwrite : Write.onUser u (.setEmail u.id (normalized u.email)) = some (normalize u) := by
      simp [Write.onUser, normalize, normalized_eq (hascii hunhandled)]
    rw [hsplit, List.map_append, List.map_cons, fate_append, hothers hbefore, Option.bind_some,
      fate_cons, hwrite, Option.bind_some, hothers hafter, if_neg hunhandled]
  · have hnone : ∀ doc ∈ stragglers groups s.users, doc.id ≠ u.id := by
      intro doc hdoc hid
      obtain rfl := hids.eq_of_key (List.mem_filter.mp hdoc).1 hu hid
      exact hmem hdoc
    rw [hothers hnone]
    split
    · rfl
    · rename_i hunhandled
      have hsame : u.email = normEmail u.email := by
        by_contra hne
        exact hmem (List.mem_filter.mpr ⟨hu, by simp [hne, hunhandled]⟩)
      rw [normalize, ← hsame]

variable (time) in
/-- What the script makes of a user: the keepers stay, with a normalised address. -/
theorem fate_writes {order : List String} (horder : IsGroupOrder s.users order)
    (hids : Keyed UserDoc.id s.users) (hu : u ∈ s.users) (hascii : IsAscii u.email) :
    (IsKeeper time s.users u → fate (writes time order s) u = some (normalize u)) ∧
    (¬ IsKeeper time s.users u → fate (writes time order s) u = none) := by
  have hhandled : u.id ∈ handled (aggregate order s.users) ↔
      1 < (sameAddress s.users (normEmail u.email)).length := by
    rw [handled, List.mem_flatMap]
    constructor
    · rintro ⟨g, hg, hid⟩
      obtain ⟨⟨address, -, rfl⟩, hdup⟩ := mem_aggregate.mp hg
      obtain ⟨v, hv, heq⟩ := List.mem_map.mp hid
      obtain ⟨hmem, rfl⟩ := mem_sameAddress.mp hv
      rwa [hids.eq_of_key hmem hu heq] at hdup
    · intro hdup
      refine ⟨⟨normEmail u.email, _⟩, mem_aggregate.mpr ⟨⟨_, (horder.mem _).mpr ⟨u, hu, rfl⟩, rfl⟩, hdup⟩, ?_⟩
      exact List.mem_map_of_mem (mem_sameAddress.mpr ⟨hu, rfl⟩)
  have hids' := keyed_runAll hids ((aggregate order s.users).flatMap (groupWrites time))
  rw [writes, fate_append]
  by_cases hdup : 1 < (sameAddress s.users (normEmail u.email)).length
  · obtain ⟨hkeeper, hloser⟩ := fate_duplicate time horder hids hu hdup
    constructor
    · intro h
      have hmid : normalize u ∈
          (runAll s ((aggregate order s.users).flatMap (groupWrites time))).users := by
        rw [users_runAll hids]
        exact List.mem_filterMap.mpr ⟨u, hu, hkeeper h⟩
      have hin : (normalize u).id ∈ handled (aggregate order s.users) := hhandled.mpr hdup
      rw [hkeeper h, Option.bind_some, fate_stragglers _ hids' hmid fun hout => absurd hin hout,
        if_pos hin]
    · intro h
      rw [hloser h, Option.bind_none]
  · have hsingle := fate_single order time hids hu hdup
    have hmid : u ∈ (runAll s ((aggregate order s.users).flatMap (groupWrites time))).users := by
      rw [users_runAll hids]
      exact List.mem_filterMap.mpr ⟨u, hu, hsingle⟩
    refine ⟨fun _ => ?_, fun h => absurd (isKeeper_of_single hu hdup) h⟩
    rw [hsingle, Option.bind_some, fate_stragglers _ hids' hmid fun _ => hascii,
      if_neg (hhandled.not.mpr hdup)]

end Stragglers

end Groups

end Script

end Scripts.CleanupDuplicateEmails
