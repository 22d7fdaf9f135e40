-- SUMMARY: What the clean-up of duplicate addresses leaves, at every step and at the end, and when it keeps the newest account.
import Mathlib.Data.List.Dedup
import ParkingGate.Base.Trace
import ParkingGate.Scripts.CleanupDuplicateEmails

/-!
# The result of the clean-up

The script keeps one user for every address, with the address normalised, and deletes the
others with their sessions. No two users have the same address at any step, and a second run
writes nothing. The user it keeps is the first in the collection among those of the newest
second, which need not be the newest one.
-/

namespace Scripts.CleanupDuplicateEmails

open Backend (Session)
open Collection

variable {ρ : Type}

/-- A collection before the migration: distinct ids, the unique index on the address, and times
    of creation from the year 2001 on. -/
structure Input (s : Collections ρ) : Prop where
  ids : Keyed UserDoc.id s.users
  emails : Keyed UserDoc.email s.users
  ascii : ∀ u ∈ s.users, IsAscii u.email
  times : ∀ u ∈ s.users, ∀ ms ∈ u.createdAt, 978307200000 ≤ ms

/-- The time of creation; a missing one is the oldest. -/
def created (u : UserDoc ρ) : Nat := u.createdAt.getD 0

def step (s : Collections ρ) (w : Write) : Option (Collections ρ) := some (w.run s)

/-- A run of the script as it is meant to be. -/
structure CleansUp (zone : Zone) (order : List String) (s : Collections ρ) : Prop where
  /-- Of the users with one address the newest is left. -/
  newest : ∀ u ∈ s.users, ∃ k ∈ sameAddress s.users (normEmail u.email),
    (∀ v ∈ sameAddress s.users (normEmail u.email), created v ≤ created k) ∧
    sameAddress (main (scriptTime zone) order s).users (normEmail u.email) = [normalize k]
  noneAdded : ∀ w ∈ (main (scriptTime zone) order s).users, ∃ u ∈ s.users, w = normalize u
  /-- The sessions of the users who are deleted, and no others, are gone. -/
  sessions : (main (scriptTime zone) order s).sessions = s.sessions.filter fun doc =>
    ∀ u ∈ s.users, u.id = doc.userId → u.id ∈ (main (scriptTime zone) order s).users.map UserDoc.id
  distinct : Trace.AllStates step (fun t => Keyed UserDoc.email t.users) s
    (writes (scriptTime zone) order s)
  again : ∀ order', IsGroupOrder (main (scriptTime zone) order s).users order' →
    main (scriptTime zone) order' (main (scriptTime zone) order s) = main (scriptTime zone) order s
  mongosh : ∀ order', IsGroupOrder s.users order' →
    (main mongoshTime order' s).users.map UserDoc.id =
      (main (scriptTime zone) order s).users.map UserDoc.id

section Results

variable {time time' : UserDoc ρ → Int} {s t : Collections ρ} {order order' : List String} {u v : UserDoc ρ}

/-! ## Users and sessions at the end -/

theorem mem_main_users (hinput : Input s) (horder : IsGroupOrder s.users order) :
    v ∈ (main time order s).users ↔ ∃ u ∈ s.users, IsKeeper time s.users u ∧ v = normalize u := by
  rw [main, users_runAll hinput.ids, List.mem_filterMap]
  refine exists_congr fun u => and_congr_right fun hu => ?_
  obtain ⟨hkeeper, hloser⟩ := fate_writes time horder hinput.ids hu (hinput.ascii u hu)
  by_cases h : IsKeeper time s.users u
  · simp [hkeeper h, h, eq_comm]
  · simp [hloser h, h]

/-- Two versions of the script that keep the same users leave the same users. -/
theorem main_users_congr (hinput : Input s) (horder : IsGroupOrder s.users order)
    (horder' : IsGroupOrder s.users order')
    (h : ∀ u ∈ s.users, (IsKeeper time s.users u ↔ IsKeeper time' s.users u)) :
    (main time order s).users = (main time' order' s).users := by
  rw [main, main, users_runAll hinput.ids, users_runAll hinput.ids]
  refine List.filterMap_congr fun u hu => ?_
  obtain ⟨hkeeper, hloser⟩ := fate_writes time horder hinput.ids hu (hinput.ascii u hu)
  obtain ⟨hkeeper', hloser'⟩ := fate_writes time' horder' hinput.ids hu (hinput.ascii u hu)
  by_cases hk : IsKeeper time s.users u
  · rw [hkeeper hk, hkeeper' ((h u hu).mp hk)]
  · rw [hloser hk, hloser' ((h u hu).not.mp hk)]

/-- There is one keeper for every address. -/
theorem isKeeper_unique (hinput : Input s) (hu : IsKeeper time s.users u)
    (hv : IsKeeper time s.users v) (haddress : normEmail u.email = normEmail v.email) : u = v := by
  have hnodup : (sameAddress s.users (normEmail v.email)).Nodup :=
    (List.Nodup.of_map UserDoc.id hinput.ids).filter _
  rw [IsKeeper, haddress, ← head?_sorted_iff hnodup] at hu
  rw [IsKeeper, ← head?_sorted_iff hnodup, hu] at hv
  exact Option.some.inj hv

theorem exists_isKeeper (time : UserDoc ρ → Int) (hu : u ∈ s.users) :
    ∃ k ∈ s.users, normEmail k.email = normEmail u.email ∧ IsKeeper time s.users k := by
  have hne : sameAddress s.users (normEmail u.email) ≠ [] :=
    List.ne_nil_of_mem (mem_sameAddress.mpr ⟨hu, rfl⟩)
  obtain ⟨k, hk⟩ := exists_isFirstGreatest time hne
  obtain ⟨hmem, haddress⟩ := mem_sameAddress.mp hk.mem
  refine ⟨k, hmem, haddress, ?_⟩
  rwa [IsKeeper, haddress]

/-- The users with one address at the end. -/
theorem sameAddress_main (hinput : Input s) (horder : IsGroupOrder s.users order)
    (hu : u ∈ s.users) (hkeeper : IsKeeper time s.users u) :
    sameAddress (main time order s).users (normEmail u.email) = [normalize u] := by
  have hids := keyed_runAll hinput.ids (writes time order s)
  have hnodup : (sameAddress (main time order s).users (normEmail u.email)).Nodup :=
    (List.Nodup.of_map UserDoc.id hids).filter _
  refine List.perm_singleton.mp
    ((List.perm_ext_iff_of_nodup hnodup (List.nodup_singleton _)).mpr fun w => ?_)
  rw [mem_sameAddress, mem_main_users hinput horder, List.mem_singleton]
  constructor
  · rintro ⟨⟨v, hv, hkeeper', rfl⟩, haddress⟩
    rw [normalize, normEmail_normEmail] at haddress
    rw [isKeeper_unique hinput hkeeper' hkeeper haddress]
  · rintro rfl
    exact ⟨⟨u, hu, hkeeper, rfl⟩, normEmail_normEmail _⟩

/-- The sessions of this user are deleted. -/
def Write.deletesSessionsOf (userId : String) : Write → Bool
  | .deleteSessions userIds => userIds.contains userId
  | _                       => false

theorem sessions_runAll (writes : List Write) : (runAll s writes).sessions =
    s.sessions.filter fun doc => !writes.any (·.deletesSessionsOf doc.userId) := by
  induction writes generalizing s with
  | nil => simp [runAll]
  | cons w writes ih =>
    have hrun : (w.run s).sessions = s.sessions.filter fun doc => !w.deletesSessionsOf doc.userId := by
      cases w <;> simp [Write.run, Write.deletesSessionsOf, deleteMany]
    rw [runAll, List.foldl_cons, ← runAll, ih, hrun, List.filter_filter]
    refine List.filter_congr fun doc _ => ?_
    rw [List.any_cons, Bool.not_or, Bool.and_comm]

variable (time) in
theorem deletes_groupWrites {g : Group ρ} (hids : Keyed UserDoc.id g.docs) {userId : String} :
    (∃ w ∈ groupWrites time g, w.deletesSessionsOf userId = true) ↔
      ∃ u ∈ g.docs, u.id = userId ∧ ¬ IsFirstGreatest time g.docs u := by
  have hnodup : g.docs.Nodup := List.Nodup.of_map UserDoc.id hids
  have hperm : (sorted time g.docs).Perm g.docs := List.mergeSort_perm _ _
  simp only [← head?_sorted_iff hnodup, groupWrites, ← hperm.mem_iff]
  cases hsorted : sorted time g.docs with
  | nil => simp
  | cons keeper losers =>
    rw [hsorted] at hperm
    have hkeeper := (List.nodup_cons.mp (hperm.nodup_iff.mpr hnodup)).1
    simp only [List.head?_cons, Option.some.injEq]
    constructor
    · rintro ⟨w, hw, hdeletes⟩
      simp only [List.mem_append, List.mem_map, List.mem_singleton] at hw
      rcases hw with (⟨loser, -, rfl⟩ | rfl) | hw
      · cases hdeletes
      · obtain ⟨loser, hloser, hid⟩ := List.mem_map.mp (List.contains_iff_mem.mp hdeletes)
        refine ⟨loser, List.mem_cons_of_mem _ hloser, hid, ?_⟩
        rintro rfl
        exact hkeeper hloser
      · split at hw
        · rw [List.mem_singleton.mp hw] at hdeletes
          cases hdeletes
        · cases hw
    · rintro ⟨u, hu, rfl, hne⟩
      have hloser : u ∈ losers := (List.mem_cons.mp hu).resolve_left (Ne.symm hne)
      refine ⟨.deleteSessions (losers.map UserDoc.id), by simp, ?_⟩
      exact List.contains_iff_mem.mpr (List.mem_map_of_mem hloser)

/-- The sessions that are deleted are those of the users who are not kept. -/
theorem deletes_writes (hinput : Input s) (horder : IsGroupOrder s.users order) {userId : String} :
    (writes time order s).any (·.deletesSessionsOf userId) = true ↔
      ∃ u ∈ s.users, u.id = userId ∧ ¬ IsKeeper time s.users u := by
  have hdocs : ∀ address, Keyed UserDoc.id (sameAddress s.users address) := fun address =>
    (List.filter_sublist.map UserDoc.id).nodup hinput.ids
  rw [List.any_eq_true, writes]
  constructor
  · rintro ⟨w, hw, hdeletes⟩
    rcases List.mem_append.mp hw with hw | hw
    · obtain ⟨g, hg, hw⟩ := List.mem_flatMap.mp hw
      obtain ⟨⟨address, -, rfl⟩, -⟩ := mem_aggregate.mp hg
      obtain ⟨u, hu, hid, hnot⟩ := (deletes_groupWrites time (hdocs address)).mp ⟨w, hw, hdeletes⟩
      obtain ⟨hmem, rfl⟩ := mem_sameAddress.mp hu
      exact ⟨u, hmem, hid, hnot⟩
    · obtain ⟨doc, -, rfl⟩ := List.mem_map.mp hw
      cases hdeletes
  · rintro ⟨u, hu, hid, hnot⟩
    have hdup : 1 < (sameAddress s.users (normEmail u.email)).length := by
      by_contra hsingle
      exact hnot (isKeeper_of_single hu hsingle)
    obtain ⟨w, hw, hdeletes⟩ := (deletes_groupWrites time
      (g := ⟨normEmail u.email, _⟩) (hdocs _)).mpr ⟨u, mem_sameAddress.mpr ⟨hu, rfl⟩, hid, hnot⟩
    refine ⟨w, List.mem_append_left _ (List.mem_flatMap.mpr ⟨_, ?_, hw⟩), hdeletes⟩
    exact mem_aggregate.mpr ⟨⟨_, (horder.mem _).mpr ⟨u, hu, rfl⟩, rfl⟩, hdup⟩

theorem mem_main_ids (hinput : Input s) (horder : IsGroupOrder s.users order) (hu : u ∈ s.users) :
    u.id ∈ (main time order s).users.map UserDoc.id ↔ IsKeeper time s.users u := by
  rw [List.mem_map]
  constructor
  · rintro ⟨w, hw, hid⟩
    obtain ⟨v, hv, hkeeper, rfl⟩ := (mem_main_users hinput horder).mp hw
    rwa [← hinput.ids.eq_of_key hv hu hid]
  · intro hkeeper
    exact ⟨normalize u, (mem_main_users hinput horder).mpr ⟨u, hu, hkeeper, rfl⟩, rfl⟩

theorem main_sessions (hinput : Input s) (horder : IsGroupOrder s.users order) :
    (main time order s).sessions = s.sessions.filter fun doc =>
      ∀ u ∈ s.users, u.id = doc.userId → u.id ∈ (main time order s).users.map UserDoc.id := by
  conv_lhs => rw [main, sessions_runAll]
  refine List.filter_congr fun doc _ => ?_
  rw [Bool.eq_iff_iff, Bool.not_eq_true', ← Bool.not_eq_true, deletes_writes hinput horder,
    decide_eq_true_eq]
  constructor
  · intro h u hu hid
    rw [mem_main_ids hinput horder hu]
    by_contra hnot
    exact h ⟨u, hu, hid, hnot⟩
  · rintro h ⟨u, hu, hid, hnot⟩
    exact hnot ((mem_main_ids hinput horder hu).mp (h u hu hid))

/-! ## Every step -/

/-- What has been reached after some writes. -/
structure Reached (s : Collections ρ) (done : List Write) (t : Collections ρ) : Prop where
  ids : Keyed UserDoc.id t.users
  emails : Keyed UserDoc.email t.users
  origin : ∀ v ∈ t.users, ∃ u ∈ s.users, u.id = v.id ∧ normEmail v.email = normEmail u.email
  deleted : ∀ id, .deleteUser id ∈ done → ∀ v ∈ t.users, v.id ≠ id

/-- An address is normalised when the other users who have it are deleted. -/
def Guarded (s : Collections ρ) (done : List Write) : Write → Prop
  | .setEmail id email => ∃ u ∈ s.users, u.id = id ∧ email = normEmail u.email ∧
      ∀ v ∈ s.users, normEmail v.email = normEmail u.email → v.id ≠ id → .deleteUser v.id ∈ done
  | _ => True

def AllGuarded (s : Collections ρ) : List Write → List Write → Prop
  | _, []              => True
  | done, w :: writes => Guarded s done w ∧ AllGuarded s (done ++ [w]) writes

theorem Reached.run {done : List Write} (h : Reached s done t) {w : Write} (hw : Guarded s done w) :
    Reached s (done ++ [w]) (w.run t) := by
  have hold : ∀ {id}, .deleteUser id ∈ done ++ [w] → .deleteUser id ∈ done ∨ w = .deleteUser id := by
    intro id hid
    rcases List.mem_append.mp hid with hid | hid
    · exact .inl hid
    · exact .inr (List.mem_singleton.mp hid).symm
  cases w with
  | deleteUser id =>
    refine ⟨h.ids.deleteMany, h.emails.deleteMany, fun v hv => ?_, fun id' hid' v hv => ?_⟩
    · exact h.origin v (mem_deleteMany.mp hv).1
    · obtain ⟨hmem, hne⟩ := mem_deleteMany.mp hv
      rcases hold hid' with hid' | heq
      · exact h.deleted id' hid' v hmem
      · obtain rfl := Write.deleteUser.inj heq
        simpa using hne
  | deleteSessions userIds =>
    refine ⟨h.ids, h.emails, h.origin, fun id hid => h.deleted id ((hold hid).resolve_right ?_)⟩
    rintro ⟨⟩
  | setEmail id email =>
    obtain ⟨u, hu, rfl, rfl, hothers⟩ := hw
    have hnew : ∀ v ∈ (Write.run t (.setEmail u.id (normEmail u.email))).users,
        v ∈ t.users ∧ v.id ≠ u.id ∨ v.id = u.id ∧ v.email = normEmail u.email := by
      intro v hv
      rcases h.ids.mem_updateOne.mp hv with hv | ⟨old, -, hid, rfl⟩
      · exact .inl hv
      · exact .inr ⟨hid, rfl⟩
    -- Nobody else has the new address.
    have hfree : ∀ v ∈ t.users, v.id ≠ u.id → v.email ≠ normEmail u.email := by
      intro v hv hne heq
      obtain ⟨v₀, hv₀, hid, haddress⟩ := h.origin v hv
      rw [heq, normEmail_normEmail] at haddress
      exact h.deleted v₀.id (hothers v₀ hv₀ haddress.symm (hid ▸ hne)) v hv hid.symm
    have hids : Keyed UserDoc.id (Write.run t (.setEmail u.id (normEmail u.email))).users :=
      h.ids.updateOne fun _ => rfl
    refine ⟨hids, ?_, fun v hv => ?_, fun id' hid' v hv => ?_⟩
    · rw [Keyed, Write.run, h.ids.updateOne_eq_map, List.map_map,
        List.nodup_map_iff_inj_on (List.Nodup.of_map UserDoc.id h.ids)]
      intro v hv w hw heq
      by_cases hid : v.id = u.id <;> by_cases hid' : w.id = u.id <;>
        simp only [Function.comp, hid, hid', if_true, if_false] at heq
      · exact h.ids.eq_of_key hv hw (hid.trans hid'.symm)
      · exact absurd heq.symm (hfree w hw hid')
      · exact absurd heq (hfree v hv hid)
      · exact h.emails.eq_of_key hv hw heq
    · rcases hnew v hv with ⟨hv, -⟩ | ⟨hid, hemail⟩
      · exact h.origin v hv
      · exact ⟨u, hu, hid.symm, by rw [hemail, normEmail_normEmail]⟩
    · have hdone := (hold hid').resolve_right (by rintro ⟨⟩)
      rcases h.ids.mem_updateOne.mp hv with ⟨hv, -⟩ | ⟨old, hmem, -, rfl⟩
      · exact h.deleted id' hdone v hv
      · exact h.deleted id' hdone old hmem

theorem exec_step (s : Collections ρ) (writes : List Write) :
    Trace.exec step s writes = some (runAll s writes) := by
  induction writes generalizing s with
  | nil => rfl
  | cons w writes ih => exact ih (w.run s)

theorem Reached.allStates {done writes : List Write} (h : Reached s done t)
    (hwrites : AllGuarded s done writes) :
    Trace.AllStates step (fun t => Keyed UserDoc.email t.users) t writes := by
  induction writes generalizing done t with
  | nil => exact h.emails
  | cons w writes ih =>
    refine ⟨h.emails, fun t' ht' => ?_⟩
    obtain rfl := Option.some.inj ht'
    exact ih (h.run hwrites.1) hwrites.2

theorem Guarded.mono {done done' : List Write} {w : Write} (h : Guarded s done w)
    (hsub : ∀ w ∈ done, w ∈ done') : Guarded s done' w := by
  cases w with
  | setEmail id email =>
    obtain ⟨u, hu, hid, hemail, hothers⟩ := h
    exact ⟨u, hu, hid, hemail, fun v hv haddress hne => hsub _ (hothers v hv haddress hne)⟩
  | _ => trivial

theorem allGuarded_append {done writes writes' : List Write} :
    AllGuarded s done (writes ++ writes') ↔
      AllGuarded s done writes ∧ AllGuarded s (done ++ writes) writes' := by
  induction writes generalizing done with
  | nil => simp [AllGuarded]
  | cons w writes ih => simp [AllGuarded, ih, and_assoc]

/-- Writes that are guarded without the ones before them. -/
theorem allGuarded_of_forall {done writes : List Write} (h : ∀ w ∈ writes, Guarded s [] w) :
    AllGuarded s done writes := by
  induction writes generalizing done with
  | nil => trivial
  | cons w writes ih =>
    obtain ⟨hw, hwrites⟩ := List.forall_mem_cons.mp h
    exact ⟨hw.mono (by simp), ih hwrites⟩

theorem guarded_groupWrites {g : Group ρ} (hg : g ∈ aggregate order s.users)
    (done : List Write) : AllGuarded s done (groupWrites time g) := by
  obtain ⟨⟨address, -, rfl⟩, -⟩ := mem_aggregate.mp hg
  have hperm : (sorted time (sameAddress s.users address)).Perm (sameAddress s.users address) :=
    List.mergeSort_perm _ _
  unfold groupWrites
  cases hsorted : sorted time (sameAddress s.users address) with
  | nil => trivial
  | cons keeper losers =>
    rw [hsorted] at hperm
    have hkeeper := hperm.mem_iff.mp List.mem_cons_self
    obtain ⟨hmem, rfl⟩ := mem_sameAddress.mp hkeeper
    dsimp only
    refine allGuarded_append.mpr ⟨allGuarded_of_forall fun w hw => ?_, ?_⟩
    · rcases List.mem_append.mp hw with hw | hw
      · obtain ⟨loser, -, rfl⟩ := List.mem_map.mp hw
        trivial
      · rw [List.mem_singleton.mp hw]
        trivial
    · split
      · refine ⟨⟨keeper, hmem, rfl, rfl, fun v hv haddress hne => ?_⟩, trivial⟩
        have hv := hperm.mem_iff.mpr (mem_sameAddress.mpr ⟨hv, haddress⟩)
        have hloser : v ∈ losers := (List.mem_cons.mp hv).resolve_left fun h => hne (congrArg _ h)
        exact List.mem_append_right _ (List.mem_append_left _ (List.mem_map_of_mem hloser))
      · trivial

theorem guarded_stragglers (hinput : Input s) (horder : IsGroupOrder s.users order) :
    ∀ doc ∈ stragglers (aggregate order s.users)
        (runAll s ((aggregate order s.users).flatMap (groupWrites time))).users,
      Guarded s [] (.setEmail doc.id (normalized doc.email)) := by
  intro doc hdoc
  obtain ⟨hmid, htest⟩ := List.mem_filter.mp hdoc
  simp only [decide_eq_true_eq] at htest
  rw [users_runAll hinput.ids, List.mem_filterMap] at hmid
  obtain ⟨u, hu, hfate⟩ := hmid
  have hid := fate_id hfate
  have hsingle : ¬ 1 < (sameAddress s.users (normEmail u.email)).length := by
    intro hdup
    refine htest.2 (List.mem_flatMap.mpr ⟨⟨normEmail u.email, _⟩, mem_aggregate.mpr
      ⟨⟨_, (horder.mem _).mpr ⟨u, hu, rfl⟩, rfl⟩, hdup⟩, ?_⟩)
    exact hid ▸ List.mem_map_of_mem (mem_sameAddress.mpr ⟨hu, rfl⟩)
  rw [fate_single order time hinput.ids hu hsingle, Option.some.injEq] at hfate
  obtain rfl := hfate
  refine ⟨u, hu, rfl, normalized_eq (hinput.ascii u hu), fun v hv haddress hne => ?_⟩
  -- Another user with the address would make it a duplicate.
  refine absurd ?_ hsingle
  have hsub : [u, v].Subperm (sameAddress s.users (normEmail u.email)) := by
    refine List.subperm_of_subset (by simpa using fun h => hne (congrArg _ h.symm)) fun w hw => ?_
    rcases List.mem_cons.mp hw with rfl | hw
    · exact mem_sameAddress.mpr ⟨hu, rfl⟩
    · rw [List.mem_singleton.mp hw]
      exact mem_sameAddress.mpr ⟨hv, haddress⟩
  exact hsub.length_le

variable (time) in
/-- No two users have the same address at any step. -/
theorem distinct_at_every_step (hinput : Input s) (horder : IsGroupOrder s.users order) :
    Trace.AllStates step (fun t => Keyed UserDoc.email t.users) s (writes time order s) := by
  have hstart : Reached s [] s := ⟨hinput.ids, hinput.emails, fun v hv => ⟨v, hv, rfl, rfl⟩, by simp⟩
  refine hstart.allStates (allGuarded_append.mpr ⟨?_, allGuarded_of_forall fun w hw => ?_⟩)
  · have hgroups : ∀ (groups : List (Group ρ)) done, (∀ g ∈ groups, g ∈ aggregate order s.users) →
        AllGuarded s done (groups.flatMap (groupWrites time)) := by
      intro groups
      induction groups with
      | nil => exact fun _ _ => trivial
      | cons g groups ih =>
        intro done hall
        obtain ⟨hg, hgroups⟩ := List.forall_mem_cons.mp hall
        rw [List.flatMap_cons]
        exact allGuarded_append.mpr ⟨guarded_groupWrites hg done, ih _ hgroups⟩
    exact hgroups _ [] fun _ => id
  · obtain ⟨doc, hdoc, rfl⟩ := List.mem_map.mp hw
    exact guarded_stragglers hinput horder doc hdoc

/-! ## A second run -/

/-- There is nothing to do in a collection with distinct, normalised addresses. -/
theorem writes_eq_nil (hemails : Keyed UserDoc.email s.users)
    (hnormal : ∀ u ∈ s.users, normEmail u.email = u.email) : writes time order s = [] := by
  have hsingle : ∀ address, (sameAddress s.users address).length ≤ 1 := by
    intro address
    have hkeyed : Keyed UserDoc.email (sameAddress s.users address) :=
      (List.filter_sublist.map UserDoc.email).nodup hemails
    have hsame : ∀ email ∈ (sameAddress s.users address).map UserDoc.email, email = address := by
      intro email hemail
      obtain ⟨u, hu, rfl⟩ := List.mem_map.mp hemail
      obtain ⟨hmem, haddress⟩ := mem_sameAddress.mp hu
      rw [← hnormal u hmem, haddress]
    rw [← List.length_map UserDoc.email]
    have hsub : ((sameAddress s.users address).map UserDoc.email).Subperm [address] :=
      List.subperm_of_subset hkeyed fun email hemail => by simp [hsame email hemail]
    exact hsub.length_le
  have hgroups : aggregate order s.users = [] := by
    refine List.filter_eq_nil_iff.mpr fun g hg => ?_
    obtain ⟨address, -, rfl⟩ := List.mem_map.mp hg
    simpa using hsingle address
  have hstragglers : stragglers [] s.users = [] := by
    refine List.filter_eq_nil_iff.mpr fun u hu => ?_
    simp [hnormal u hu]
  simp [writes, hgroups, runAll, hstragglers]

/-! ## The newest account -/

/-- What both versions read is the same order, as far as they tell two times apart. -/
theorem mongoshTime_lt (hinput : Input s) {zone : Zone} (hu : u ∈ s.users) (hv : v ∈ s.users)
    (h : scriptTime zone u < scriptTime zone v) : mongoshTime u < mongoshTime v := by
  have hbound := zone.bounded
  have htime := hinput.times u hu
  have htime' := hinput.times v hv
  unfold scriptTime at h
  unfold mongoshTime
  cases hcreated : u.createdAt with
  | none =>
    cases hcreated' : v.createdAt with
    | none => simp [hcreated, hcreated'] at h
    | some ms =>
      have hms := htime' ms hcreated'
      simp only [Option.getD_none, Option.getD_some]
      omega
  | some ms =>
    have hms := htime ms hcreated
    cases hcreated' : v.createdAt with
    | none =>
      simp only [hcreated, hcreated'] at h
      omega
    | some ms' =>
      simp only [hcreated, hcreated'] at h
      simp only [Option.getD_some]
      omega

/-- A user whom the script keeps and who is the newest of the address is kept by the mongosh
    version too. -/
theorem isKeeper_mongosh (hinput : Input s) {zone : Zone} (hu : u ∈ s.users)
    (hkeeper : IsKeeper (scriptTime zone) s.users u)
    (hnewest : ∀ v ∈ sameAddress s.users (normEmail u.email), created v ≤ created u) :
    IsKeeper mongoshTime s.users u := by
  obtain ⟨l, r, hdocs, hl, hr⟩ := hkeeper
  refine ⟨l, r, hdocs, fun v hv => ?_, fun v hv => ?_⟩
  · have hmem : v ∈ sameAddress s.users (normEmail u.email) := by
      rw [hdocs]
      exact List.mem_append_left _ hv
    exact mongoshTime_lt hinput (mem_sameAddress.mp hmem).1 hu (hl v hv)
  · have hmem : v ∈ sameAddress s.users (normEmail u.email) := by
      rw [hdocs]
      exact List.mem_append_right _ (List.mem_cons_of_mem _ hv)
    exact Int.ofNat_le.mpr (hnewest v hmem)

/-- The script does what it is meant to do, whatever the order of the groups, exactly if for every
    address the first user of the newest second is the newest user. -/
theorem cleansUp_iff (hinput : Input s) (zone : Zone) :
    (∀ order, IsGroupOrder s.users order → CleansUp zone order s) ↔
      ∀ u ∈ s.users, IsKeeper (scriptTime zone) s.users u →
        ∀ v ∈ sameAddress s.users (normEmail u.email), created v ≤ created u := by
  constructor
  · intro h u hu hkeeper
    have horder : IsGroupOrder s.users (s.users.map fun u => normEmail u.email).dedup :=
      ⟨List.nodup_dedup _, by simp⟩
    obtain ⟨k, hk, hnewest, hleft⟩ := (h _ horder).newest u hu
    rw [sameAddress_main hinput horder hu hkeeper, List.cons.injEq] at hleft
    have hid : (normalize u).id = (normalize k).id := congrArg UserDoc.id hleft.1
    obtain rfl := hinput.ids.eq_of_key hu (mem_sameAddress.mp hk).1 hid
    exact hnewest
  · intro h order horder
    have hkeepers : ∀ u ∈ s.users,
        (IsKeeper mongoshTime s.users u ↔ IsKeeper (scriptTime zone) s.users u) := by
      intro u hu
      constructor
      · intro hmongosh
        obtain ⟨k, hk, haddress, hkeeper⟩ := exists_isKeeper (scriptTime zone) hu
        have hboth := isKeeper_mongosh hinput hk hkeeper (h k hk hkeeper)
        rwa [isKeeper_unique hinput hmongosh hboth haddress.symm]
      · exact fun hkeeper => isKeeper_mongosh hinput hu hkeeper (h u hu hkeeper)
    have hstep := distinct_at_every_step (scriptTime zone) hinput horder
    refine ⟨fun u hu => ?_, fun w hw => ?_, main_sessions hinput horder, hstep, ?_, ?_⟩
    · obtain ⟨k, hk, haddress, hkeeper⟩ := exists_isKeeper (scriptTime zone) hu
      rw [← haddress]
      exact ⟨k, mem_sameAddress.mpr ⟨hk, rfl⟩, h k hk hkeeper, sameAddress_main hinput horder hk hkeeper⟩
    · obtain ⟨u, hu, -, rfl⟩ := (mem_main_users hinput horder).mp hw
      exact ⟨u, hu, rfl⟩
    · intro order' _
      have hemails : Keyed UserDoc.email (main (scriptTime zone) order s).users :=
        hstep.last (exec_step s (writes (scriptTime zone) order s))
      have hnormal : ∀ u ∈ (main (scriptTime zone) order s).users, normEmail u.email = u.email := by
        intro u hu
        obtain ⟨v, -, -, rfl⟩ := (mem_main_users hinput horder).mp hu
        exact normEmail_normEmail v.email
      exact congrArg (runAll (main (scriptTime zone) order s)) (writes_eq_nil hemails hnormal)
    · intro order' horder'
      rw [main_users_congr hinput horder' horder hkeepers]

end Results

/-! ## Accounts of one second -/

/-- UTC -/
def utc : Zone := ⟨0, by decide⟩

def first : UserDoc Unit := ⟨"u1", "Dana@example.com", some 1704067200000, ()⟩

/-- Created `ms` milliseconds after the first. -/
def second (ms : Nat) : UserDoc Unit := ⟨"u2", "dana@example.com", some (1704067200000 + ms), ()⟩

/-- A user without a duplicate, whose address is not normalised. -/
def single : UserDoc Unit := ⟨"u3", " Noa@example.com", none, ()⟩

/-- Every user is logged in on a phone. -/
def twice (ms : Nat) : Collections Unit where
  users := [first, second ms, single]
  sessions := ["u1", "u2", "u3"].map fun id => ⟨id, "phone", "s-" ++ id, "hash", 0⟩

theorem input_twice (ms : Nat) : Input (twice ms) where
  ids := show ["u1", "u2", "u3"].Nodup by decide
  emails := show ["Dana@example.com", "dana@example.com", " Noa@example.com"].Nodup by decide
  ascii u hu := by
    have hemails : u.email ∈ ["Dana@example.com", "dana@example.com", " Noa@example.com"] :=
      List.mem_map_of_mem (f := UserDoc.email) hu
    have hall : (["Dana@example.com", "dana@example.com", " Noa@example.com"].all fun email =>
        email.toList.all fun c => 0 < c.toNat ∧ c.toNat < 128) = true := by decide
    intro c hc
    simpa using List.all_eq_true.mp (List.all_eq_true.mp hall u.email hemails) c hc
  times := by
    simp only [twice, first, second, single, List.forall_mem_cons, Option.mem_def, Option.some.injEq]
    exact ⟨by omega, by omega, by simp, by simp⟩

@[simp] theorem normEmail_first : normEmail first.email = "dana@example.com" := by decide +kernel

@[simp] theorem normEmail_second (ms : Nat) : normEmail (second ms).email = "dana@example.com" :=
  show normEmail "dana@example.com" = "dana@example.com" by decide +kernel

@[simp] theorem normEmail_single : normEmail single.email = "noa@example.com" := by decide +kernel

theorem sameAddress_dana (ms : Nat) :
    sameAddress (twice ms).users "dana@example.com" = [first, second ms] := by
  simp [sameAddress, twice]

theorem sameAddress_noa (ms : Nat) : sameAddress (twice ms).users "noa@example.com" = [single] := by
  simp [sameAddress, twice]

theorem isGroupOrder_twice (ms : Nat) :
    IsGroupOrder (twice ms).users ["dana@example.com", "noa@example.com"] where
  nodup := by decide
  mem address := by simp [twice, eq_comm]

/-- Three seconds apart, the newer account is kept. -/
theorem cleansUp_threeSeconds :
    CleansUp utc ["dana@example.com", "noa@example.com"] (twice 3000) := by
  refine (cleansUp_iff (input_twice 3000) utc).mpr ?_ _ (isGroupOrder_twice 3000)
  intro u hu hkeeper v hv
  have husers : u = first ∨ u = second 3000 ∨ u = single := by simpa [twice] using hu
  rcases husers with rfl | rfl | rfl
  · rw [IsKeeper, normEmail_first, sameAddress_dana] at hkeeper
    have hle := hkeeper.le (e := second 3000) (by simp)
    exact absurd hle (by decide)
  · rw [normEmail_second, sameAddress_dana] at hv
    have hall : ∀ v ∈ [first, second 3000], created v ≤ created (second 3000) := by decide
    exact hall v hv
  · rw [normEmail_single, sameAddress_noa] at hv
    exact (congrArg created (List.mem_singleton.mp hv)).le

/-- Within a second, the older account is kept. -/
theorem older_kept : ¬ CleansUp utc ["dana@example.com", "noa@example.com"] (twice 500) := by
  intro h
  have hfirst : first ∈ (twice 500).users := List.mem_cons_self
  obtain ⟨k, hk, hnewest, hleft⟩ := h.newest first hfirst
  have hkeeper : IsKeeper (scriptTime utc) (twice 500).users first := by
    rw [IsKeeper, normEmail_first, sameAddress_dana]
    exact ⟨[], [second 500], rfl, by simp, by decide⟩
  rw [sameAddress_main (input_twice 500) (isGroupOrder_twice 500) hfirst hkeeper,
    List.cons.injEq] at hleft
  have hid : (normalize first).id = (normalize k).id := congrArg UserDoc.id hleft.1
  obtain rfl := (input_twice 500).ids.eq_of_key hfirst (mem_sameAddress.mp hk).1 hid
  rw [normEmail_first, sameAddress_dana] at hnewest
  have hle := hnewest (second 500) (by simp)
  revert hle
  decide

end Scripts.CleanupDuplicateEmails
