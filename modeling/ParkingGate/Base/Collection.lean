-- SUMMARY: Collections of documents as lists, with the writes of a document store (update-one, upsert, delete-many) and what each leaves in the collection.
import Mathlib.Data.List.Basic
import Mathlib.Data.List.MinMax
import Mathlib.Data.List.Nodup

/-!
# Document collections

A collection is the list of its documents in natural order, so `find?` is the
lookup of the first match. `updateOne` changes the first match, `upsert` replaces
it or inserts, and `deleteMany` removes every match. A lookup by key commutes with
an update that keeps the key; a collection with one document per key keeps one per
key under every write. `findGreatest` is a lookup with a descending sort, which may
return any of the documents with the greatest key.
-/

namespace Collection

variable {α κ : Type*}

/-- Change the first document that matches. -/
def updateOne (p : α → Bool) (f : α → α) : List α → List α
  | []      => []
  | d :: ds => if p d then f d :: ds else d :: updateOne p f ds

/-- Replace the first document that matches; insert the new one if there is none. -/
def upsert (p : α → Bool) (new : α) : List α → List α
  | []      => [new]
  | d :: ds => if p d then new :: ds else d :: upsert p new ds

/-- Remove all documents that match. -/
def deleteMany (p : α → Bool) (docs : List α) : List α := docs.filter fun d => !p d

@[simp] theorem mem_deleteMany {p : α → Bool} {docs : List α} {d : α} :
    d ∈ deleteMany p docs ↔ d ∈ docs ∧ p d = false := by
  simp [deleteMany]

/-! ## Membership -/

section Membership

variable {p : α → Bool} {f : α → α} {new d : α} {docs : List α}

theorem of_mem_updateOne (h : d ∈ updateOne p f docs) :
    d ∈ docs ∨ ∃ d' ∈ docs, p d' = true ∧ d = f d' := by
  induction docs with
  | nil => simp [updateOne] at h
  | cons x xs ih =>
    unfold updateOne at h
    split at h
    next hx =>
      rcases List.mem_cons.mp h with rfl | h
      · exact .inr ⟨x, List.mem_cons_self, hx, rfl⟩
      · exact .inl (List.mem_cons_of_mem _ h)
    next =>
      rcases List.mem_cons.mp h with rfl | h
      · exact .inl List.mem_cons_self
      · rcases ih h with h | ⟨d', hd', hp, rfl⟩
        · exact .inl (List.mem_cons_of_mem _ h)
        · exact .inr ⟨d', List.mem_cons_of_mem _ hd', hp, rfl⟩

theorem mem_upsert_self : new ∈ upsert p new docs := by
  induction docs with
  | nil => simp [upsert]
  | cons x xs ih => unfold upsert; split <;> simp [ih]

theorem of_mem_upsert (h : d ∈ upsert p new docs) : d = new ∨ d ∈ docs := by
  induction docs with
  | nil => exact .inl (by simpa [upsert] using h)
  | cons x xs ih =>
    unfold upsert at h
    split at h
    all_goals rcases List.mem_cons.mp h with rfl | h
    · exact .inl rfl
    · exact .inr (List.mem_cons_of_mem _ h)
    · exact .inr List.mem_cons_self
    · exact (ih h).imp_right (List.mem_cons_of_mem _)

theorem mem_upsert_of_not (h : d ∈ docs) (hp : p d = false) : d ∈ upsert p new docs := by
  induction docs with
  | nil => cases h
  | cons x xs ih =>
    unfold upsert
    rcases List.mem_cons.mp h with rfl | h
    · simp [hp]
    · split
      · exact List.mem_cons_of_mem _ h
      · exact List.mem_cons_of_mem _ (ih h)

/-- Upserting the same document again changes nothing. -/
theorem upsert_upsert (hp : p new = true) : upsert p new (upsert p new docs) = upsert p new docs := by
  induction docs with
  | nil => simp [upsert, hp]
  | cons x xs ih =>
    by_cases hx : p x = true
    · simp [upsert, hx, hp]
    · simp [upsert, hx, ih]

/-- A selection that the new document and the ones it may replace do not belong to. -/
theorem filter_upsert {q : α → Bool} (hnew : q new = false) (hp : ∀ d, p d = true → q d = false) :
    (upsert p new docs).filter q = docs.filter q := by
  induction docs with
  | nil => simp [upsert, hnew]
  | cons x xs ih =>
    unfold upsert
    split
    next hx => simp [hnew, hp x hx]
    next => simp [List.filter_cons, ih]

end Membership

/-- A lookup finds the only match. -/
theorem find?_eq_some_of_unique {p : α → Bool} {d : α} {docs : List α} (hd : d ∈ docs)
    (hp : p d = true) (hunique : ∀ d' ∈ docs, p d' = true → d' = d) : docs.find? p = some d := by
  obtain ⟨found, hfind⟩ := Option.isSome_iff_exists.mp (List.find?_isSome.mpr ⟨d, hd, hp⟩)
  rw [hfind, hunique found (List.mem_of_find?_eq_some hfind) (List.find?_some hfind)]

/-! ## Lookups after an update -/

section Lookup

variable {p q : α → Bool} {f : α → α} {docs : List α}

/-- A lookup that the update cannot influence finds the same document, updated or not. -/
theorem find?_updateOne_of_eq_some {d : α} (hq : ∀ d, q (f d) = q d)
    (h : docs.find? q = some d) :
    (updateOne p f docs).find? q = some d ∨
      p d = true ∧ (updateOne p f docs).find? q = some (f d) := by
  induction docs with
  | nil => cases h
  | cons x xs ih =>
    unfold updateOne
    by_cases hqx : q x = true
    · obtain rfl : x = d := by simpa [List.find?_cons, hqx] using h
      split
      next hp => exact .inr ⟨hp, by simp [hq, hqx]⟩
      next => exact .inl (by simp [hqx])
    · have hxs : xs.find? q = some d := by simpa [List.find?_cons, hqx] using h
      split
      · exact .inl (by simpa [List.find?_cons, hq, hqx] using hxs)
      · simpa [List.find?_cons, hqx] using ih hxs

/-- An update does not change what `g` sees if it keeps it in the document. -/
theorem map_updateOne {g : α → κ} (hg : ∀ d, g (f d) = g d) :
    (updateOne p f docs).map g = docs.map g := by
  induction docs with
  | nil => rfl
  | cons x xs ih => unfold updateOne; split <;> simp [hg, ih]

/-- The document that is updated is the one that the same condition looks up. -/
theorem find?_updateOne_self (hp : ∀ d, p (f d) = p d) :
    (updateOne p f docs).find? p = (docs.find? p).map f := by
  induction docs with
  | nil => rfl
  | cons x xs ih =>
    unfold updateOne
    by_cases hx : p x = true
    · simp [hx, hp]
    · simpa [List.find?_cons, hx] using ih

/-- An update changes nothing if the document that it finds is already as it should be. -/
theorem updateOne_eq_self_iff :
    updateOne p f docs = docs ↔ ∀ d, docs.find? p = some d → f d = d := by
  induction docs with
  | nil => simp [updateOne]
  | cons x xs ih =>
    unfold updateOne
    by_cases hx : p x = true
    · simp [hx]
    · simpa [List.find?_cons, hx] using ih

/-- Two updates of the same document are one. -/
theorem updateOne_updateOne {g : α → α} (hp : ∀ d, p (g d) = p d) :
    updateOne p f (updateOne p g docs) = updateOne p (fun d => f (g d)) docs := by
  induction docs with
  | nil => rfl
  | cons x xs ih =>
    by_cases hx : p x = true
    · simp [updateOne, hx, hp]
    · simp [updateOne, hx, ih]

end Lookup

/-! ## One document per key -/

section Keyed

variable {key : α → κ} {docs : List α}

/-- The documents have pairwise different keys. -/
def Keyed (key : α → κ) (docs : List α) : Prop := (docs.map key).Nodup

instance [DecidableEq κ] : Decidable (Keyed key docs) := inferInstanceAs (Decidable (List.Nodup _))

theorem Keyed.eq_of_key {d d' : α} (h : Keyed key docs) (hd : d ∈ docs) (hd' : d' ∈ docs)
    (hk : key d = key d') : d = d' :=
  List.inj_on_of_nodup_map h hd hd' hk

theorem Keyed.updateOne {p : α → Bool} {f : α → α} (h : Keyed key docs)
    (hf : ∀ d, key (f d) = key d) : Keyed key (updateOne p f docs) := by
  rw [Keyed, map_updateOne hf]
  exact h

/-- A document with a new key is inserted. -/
theorem Keyed.append {new : α} (h : Keyed key docs) (hnew : key new ∉ docs.map key) :
    Keyed key (docs ++ [new]) := by
  rw [Keyed, List.map_append]
  refine List.nodup_append.mpr ⟨h, List.nodup_singleton _, ?_⟩
  rintro k hk _ hself rfl
  obtain rfl := List.mem_singleton.mp hself
  exact hnew hk

theorem Keyed.find?_eq_some [DecidableEq κ] {d : α} (h : Keyed key docs) (hd : d ∈ docs) :
    docs.find? (fun x => key x == key d) = some d :=
  find?_eq_some_of_unique hd (by simp) fun _ hd' hk => h.eq_of_key hd' hd (by simpa using hk)

/-- A key is counted once at most. -/
theorem Keyed.countP_eq [DecidableEq κ] (h : Keyed key docs) (k : κ) (p : α → Bool) :
    docs.countP (fun d => key d = k ∧ p d) =
      if docs.any fun d => key d = k ∧ p d then 1 else 0 := by
  induction docs with
  | nil => rfl
  | cons d docs ih =>
    obtain ⟨hd, hdocs⟩ := List.nodup_cons.mp h
    rw [List.countP_cons, ih hdocs]
    by_cases hmatch : key d = k ∧ p d = true
    · have hnone : docs.any (fun d => key d = k ∧ p d) = false := by
        refine List.any_eq_false.mpr fun d' hd' hmatch' => hd ?_
        simp only [decide_eq_true_eq] at hmatch'
        exact List.mem_map.mpr ⟨d', hd', hmatch'.1.trans hmatch.1.symm⟩
      rw [hnone]
      simp [hmatch]
    · simp [hmatch]

/-- An update by key concerns one document. -/
theorem Keyed.mem_updateOne [DecidableEq κ] {k : κ} {f : α → α} {d : α} (h : Keyed key docs) :
    d ∈ Collection.updateOne (fun x => key x == k) f docs ↔
      d ∈ docs ∧ key d ≠ k ∨ ∃ d' ∈ docs, key d' = k ∧ d = f d' := by
  induction docs with
  | nil => simp [Collection.updateOne]
  | cons x xs ih =>
    obtain ⟨hx, hxs⟩ := List.nodup_cons.mp h
    unfold Collection.updateOne
    split
    next hkey =>
      rw [beq_iff_eq] at hkey
      have hrest : ∀ y ∈ xs, key y ≠ k := fun y hy heq =>
        hx (hkey.trans heq.symm ▸ List.mem_map_of_mem hy)
      constructor
      · intro hd
        rcases List.mem_cons.mp hd with rfl | hd
        · exact .inr ⟨x, List.mem_cons_self, hkey, rfl⟩
        · exact .inl ⟨List.mem_cons_of_mem x hd, hrest d hd⟩
      · rintro (⟨hd, hne⟩ | ⟨d', hd', hk, rfl⟩)
        · rcases List.mem_cons.mp hd with rfl | hd
          · exact absurd hkey hne
          · exact List.mem_cons_of_mem _ hd
        · rcases List.mem_cons.mp hd' with rfl | hd'
          · exact List.mem_cons_self
          · exact absurd hk (hrest d' hd')
    next hkey =>
      have hne : key x ≠ k := by simpa using hkey
      rw [List.mem_cons, ih hxs]
      constructor
      · rintro (rfl | ⟨hd, hk⟩ | ⟨d', hd', hk, rfl⟩)
        · exact .inl ⟨List.mem_cons_self, hne⟩
        · exact .inl ⟨List.mem_cons_of_mem x hd, hk⟩
        · exact .inr ⟨d', List.mem_cons_of_mem x hd', hk, rfl⟩
      · rintro (⟨hd, hk⟩ | ⟨d', hd', hk, rfl⟩)
        · exact (List.mem_cons.mp hd).imp_right fun hd => .inl ⟨hd, hk⟩
        · rcases List.mem_cons.mp hd' with rfl | hd'
          · exact absurd hk hne
          · exact .inr (.inr ⟨d', hd', hk, rfl⟩)

/-- An update by key, written for the whole collection. -/
theorem Keyed.updateOne_eq_map [DecidableEq κ] {k : κ} {f : α → α} (h : Keyed key docs) :
    Collection.updateOne (fun x => key x == k) f docs =
      docs.map fun d => if key d = k then f d else d := by
  induction docs with
  | nil => rfl
  | cons x xs ih =>
    obtain ⟨hx, hxs⟩ := List.nodup_cons.mp h
    unfold Collection.updateOne
    split
    next hkey =>
      rw [beq_iff_eq] at hkey
      have hrest : ∀ d ∈ xs, (if key d = k then f d else d) = d := fun d hd =>
        if_neg fun (hdk : key d = k) => hx (hkey.trans hdk.symm ▸ List.mem_map_of_mem hd)
      rw [List.map_cons, if_pos hkey, List.map_congr_left hrest, List.map_id']
    next hkey =>
      rw [List.map_cons, if_neg (by simpa using hkey), ih hxs]

/-- Deleting by key concerns one document. -/
theorem Keyed.mem_eraseP [DecidableEq κ] {k : κ} {d : α} (h : Keyed key docs) :
    d ∈ docs.eraseP (fun x => key x == k) ↔ d ∈ docs ∧ key d ≠ k := by
  constructor
  · intro hd
    refine ⟨List.mem_of_mem_eraseP hd, ?_⟩
    induction docs with
    | nil => cases hd
    | cons x xs ih =>
      obtain ⟨hx, hxs⟩ := List.nodup_cons.mp h
      rw [List.eraseP_cons, Bool.cond_eq_ite] at hd
      split at hd
      next hkey => exact fun hk => hx (beq_iff_eq.mp hkey ▸ hk ▸ List.mem_map_of_mem hd)
      next hkey =>
        rcases List.mem_cons.mp hd with rfl | hd
        · simpa using hkey
        · exact ih hxs hd
  · rintro ⟨hd, hk⟩
    exact (List.mem_eraseP_of_neg (by simpa using hk)).mpr hd

theorem Keyed.deleteMany {p : α → Bool} (h : Keyed key docs) : Keyed key (deleteMany p docs) :=
  h.sublist (List.filter_sublist.map key)

variable [BEq κ] [LawfulBEq κ]

/-- After an upsert by key, the new document is the only one with its key. -/
theorem Keyed.mem_upsert {new d : α} (h : Keyed key docs) :
    d ∈ upsert (fun x => key x == key new) new docs ↔ d = new ∨ d ∈ docs ∧ key d ≠ key new := by
  constructor
  · intro hd
    induction docs with
    | nil => exact .inl (by simpa [upsert] using hd)
    | cons x xs ih =>
      obtain ⟨hx, hxs⟩ := List.nodup_cons.mp h
      unfold upsert at hd
      split at hd
      next hkey =>
        rcases List.mem_cons.mp hd with rfl | hd
        · exact .inl rfl
        · refine .inr ⟨List.mem_cons_of_mem _ hd, fun hk => hx ?_⟩
          rw [beq_iff_eq] at hkey
          exact hkey ▸ hk ▸ List.mem_map_of_mem hd
      next hkey =>
        rcases List.mem_cons.mp hd with rfl | hd
        · exact .inr ⟨List.mem_cons_self, by simpa using hkey⟩
        · exact (ih hxs hd).imp_right fun ⟨hd, hk⟩ => ⟨List.mem_cons_of_mem _ hd, hk⟩
  · rintro (rfl | ⟨hd, hk⟩)
    · exact mem_upsert_self
    · exact mem_upsert_of_not hd (by simpa using hk)

theorem Keyed.upsert {new : α} (h : Keyed key docs) :
    Keyed key (upsert (fun x => key x == key new) new docs) := by
  induction docs with
  | nil => simp [Collection.upsert, Keyed]
  | cons x xs ih =>
    obtain ⟨hx, hxs⟩ := List.nodup_cons.mp h
    unfold Collection.upsert
    split
    next hkey =>
      rw [beq_iff_eq] at hkey
      exact List.nodup_cons.mpr ⟨hkey ▸ hx, hxs⟩
    next hkey =>
      refine List.nodup_cons.mpr ⟨fun hmem => ?_, ih hxs⟩
      obtain ⟨d, hd, hk⟩ := List.mem_map.mp hmem
      rcases (Keyed.mem_upsert hxs).mp hd with rfl | ⟨hd, -⟩
      · exact hkey (by simp [hk])
      · exact hx (hk ▸ List.mem_map_of_mem hd)

end Keyed

/-! ## Lookups with a sort -/

section FindGreatest

variable (p : α → Bool) (key : α → Nat)

/-- The matches that no other match is sorted before. -/
def greatest (docs : List α) : List α :=
  (docs.filter p).filter fun d => (docs.filter p).all fun d' => key d' ≤ key d

/-- The first match when sorted by `key`, greatest first. The store decides by `choice`
    among equal keys. -/
def findGreatest (choice : Nat) (docs : List α) : Option α :=
  (greatest p key docs)[choice % (greatest p key docs).length]?

variable {p key} {docs : List α} {d : α} {choice : Nat}

theorem mem_greatest :
    d ∈ greatest p key docs ↔ d ∈ docs ∧ p d = true ∧ ∀ d' ∈ docs, p d' = true → key d' ≤ key d := by
  simp only [greatest, List.mem_filter, List.all_eq_true, decide_eq_true_eq, and_imp, and_assoc]

theorem of_findGreatest (h : findGreatest p key choice docs = some d) :
    d ∈ docs ∧ p d = true ∧ ∀ d' ∈ docs, p d' = true → key d' ≤ key d :=
  mem_greatest.mp (List.mem_of_getElem? h)

variable (key) in
/-- Some match has the greatest key. -/
theorem exists_mem_greatest (hd : d ∈ docs) (hp : p d = true) : ∃ d', d' ∈ greatest p key docs := by
  have hmem : d ∈ docs.filter p := List.mem_filter.mpr ⟨hd, hp⟩
  obtain ⟨m, hm⟩ := Option.ne_none_iff_exists'.mp
    (List.argmax_eq_none (f := key).not.mpr (List.ne_nil_of_mem hmem))
  refine ⟨m, mem_greatest.mpr ?_⟩
  obtain ⟨hmdocs, hmp⟩ := List.mem_filter.mp (List.argmax_mem hm)
  exact ⟨hmdocs, hmp, fun d' hd' hp' =>
    List.le_of_mem_argmax (List.mem_filter.mpr ⟨hd', hp'⟩) hm⟩

theorem findGreatest_eq_none_iff :
    findGreatest p key choice docs = none ↔ ∀ d ∈ docs, p d = false := by
  have hlen : findGreatest p key choice docs = none ↔ greatest p key docs = [] := by
    rw [findGreatest, List.getElem?_eq_none_iff]
    cases greatest p key docs with
    | nil => simp
    | cons x xs => simpa using (Nat.mod_lt choice (Nat.succ_pos xs.length))
  rw [hlen]
  constructor
  · intro hnil d hd
    by_contra hp
    obtain ⟨d', hd'⟩ := exists_mem_greatest key hd (by simpa using hp)
    simp [hnil] at hd'
  · intro hnone
    refine List.eq_nil_iff_forall_not_mem.mpr fun d hd => ?_
    obtain ⟨hd, hp, -⟩ := mem_greatest.mp hd
    simp [hnone d hd] at hp

/-- The store may choose any of the greatest matches. -/
theorem exists_findGreatest (hd : d ∈ docs) (hp : p d = true)
    (hmax : ∀ d' ∈ docs, p d' = true → key d' ≤ key d) :
    ∃ choice, findGreatest p key choice docs = some d := by
  obtain ⟨i, hi, hget⟩ := List.getElem_of_mem (mem_greatest.mpr ⟨hd, hp, hmax⟩)
  exact ⟨i, by rw [findGreatest, Nat.mod_eq_of_lt hi, List.getElem?_eq_getElem hi, hget]⟩

/-- A match whose key is greater than all others is the one that is found. -/
theorem findGreatest_eq_some (hd : d ∈ docs) (hp : p d = true)
    (hmax : ∀ d' ∈ docs, p d' = true → d' = d ∨ key d' < key d) :
    findGreatest p key choice docs = some d := by
  cases hfound : findGreatest p key choice docs with
  | none => simp [findGreatest_eq_none_iff.mp hfound d hd] at hp
  | some d' =>
    obtain ⟨hd', hp', hle⟩ := of_findGreatest hfound
    rcases hmax d' hd' hp' with rfl | hlt
    · rfl
    · exact absurd (hle d hd hp) (by omega)

end FindGreatest

/-! ## Sorting by a number -/

section Sorting

variable {rank : α → Int} {docs : List α} {d e : α}

/-- The first of the documents with the greatest number. -/
def IsFirstGreatest (rank : α → Int) (docs : List α) (d : α) : Prop :=
  ∃ l r, docs = l ++ d :: r ∧ (∀ x ∈ l, rank x < rank d) ∧ ∀ x ∈ r, rank x ≤ rank d

theorem IsFirstGreatest.mem (h : IsFirstGreatest rank docs d) : d ∈ docs := by
  obtain ⟨l, r, rfl, -, -⟩ := h
  simp

theorem IsFirstGreatest.le (h : IsFirstGreatest rank docs d) (he : e ∈ docs) : rank e ≤ rank d := by
  obtain ⟨l, r, rfl, hl, hr⟩ := h
  rcases List.mem_append.mp he with he | he
  · exact (hl e he).le
  · rcases List.mem_cons.mp he with rfl | he
    · exact Int.le_refl _
    · exact hr e he

/-- It comes before the others with that number. -/
theorem IsFirstGreatest.sublist (h : IsFirstGreatest rank docs d) (he : e ∈ docs) (hne : e ≠ d)
    (hrank : rank d ≤ rank e) : [d, e].Sublist docs := by
  obtain ⟨l, r, rfl, hl, hr⟩ := h
  have hr : e ∈ r := by
    rcases List.mem_append.mp he with he | he
    · exact absurd (hl e he) (Int.not_lt.mpr hrank)
    · exact (List.mem_cons.mp he).resolve_left hne
  have htail : [d, e].Sublist (d :: r) := (List.singleton_sublist.mpr hr).cons_cons d
  exact htail.trans (List.sublist_append_right l _)

variable (rank) in
theorem exists_isFirstGreatest (h : docs ≠ []) : ∃ d, IsFirstGreatest rank docs d := by
  induction docs with
  | nil => exact absurd rfl h
  | cons x xs ih =>
    by_cases hxs : xs = []
    · exact ⟨x, [], [], by simp [hxs], by simp, by simp⟩
    obtain ⟨d, l, r, rfl, hl, hr⟩ := ih hxs
    by_cases hx : rank x < rank d
    · exact ⟨d, x :: l, r, rfl, List.forall_mem_cons.mpr ⟨hx, hl⟩, hr⟩
    · have hle : rank d ≤ rank x := Int.not_lt.mp hx
      refine ⟨x, [], l ++ d :: r, rfl, by simp, fun y hy => ?_⟩
      rcases List.mem_append.mp hy with hy | hy
      · exact (hl y hy).le.trans hle
      · rcases List.mem_cons.mp hy with rfl | hy
        · exact hle
        · exact (hr y hy).trans hle

/-- The stable sort puts it in front. -/
theorem head?_mergeSort_iff (hdocs : docs.Nodup) :
    (docs.mergeSort fun a b => rank b ≤ rank a).head? = some d ↔ IsFirstGreatest rank docs d := by
  have htrans : ∀ a b c : α, decide (rank b ≤ rank a) = true → decide (rank c ≤ rank b) = true →
      decide (rank c ≤ rank a) = true := by
    simp only [decide_eq_true_eq]
    exact fun a b c hab hbc => hbc.trans hab
  have htotal : ∀ a b : α, (decide (rank b ≤ rank a) || decide (rank a ≤ rank b)) = true := by
    simp only [Bool.or_eq_true, decide_eq_true_eq]
    exact fun a b => le_total _ _
  have hperm := List.mergeSort_perm docs fun a b => rank b ≤ rank a
  have hfirst : ∀ d, IsFirstGreatest rank docs d →
      (docs.mergeSort fun a b => rank b ≤ rank a).head? = some d := by
    intro d h
    cases hsorted : docs.mergeSort fun a b => rank b ≤ rank a with
    | nil =>
      have hmem := hperm.mem_iff.mpr h.mem
      rw [hsorted] at hmem
      cases hmem
    | cons e rest =>
      rw [List.head?_cons, Option.some.injEq]
      by_contra hne
      have he : e ∈ docs := hperm.mem_iff.mp (by simp [hsorted])
      have hsort := List.pairwise_mergeSort htrans htotal docs
      have hnodup := hperm.nodup_iff.mpr hdocs
      have hd := hperm.mem_iff.mpr h.mem
      rw [hsorted] at hsort hnodup hd
      have hle : rank d ≤ rank e := by
        rcases List.mem_cons.mp hd with rfl | hd
        · exact absurd rfl hne
        · simpa using (List.pairwise_cons.mp hsort).1 d hd
      -- The sort keeps the order of two documents that it could leave as they are.
      have hpair := List.pair_sublist_mergeSort htrans htotal (by simpa using h.le he)
        (h.sublist he hne hle)
      rw [hsorted] at hpair
      rcases List.sublist_cons_iff.mp hpair with hpair | ⟨r, heq, -⟩
      · exact (List.nodup_cons.mp hnodup).1 (hpair.mem (by simp))
      · exact hne (List.cons.inj heq).1.symm
  refine ⟨fun h => ?_, hfirst d⟩
  have hne : docs ≠ [] := by
    rintro rfl
    simp at h
  obtain ⟨k, hk⟩ := exists_isFirstGreatest rank hne
  rw [hfirst k hk, Option.some.injEq] at h
  exact h ▸ hk

end Sorting

end Collection
