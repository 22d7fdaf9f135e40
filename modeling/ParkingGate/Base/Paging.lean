-- SUMMARY: Paging through a collection by queries that sort, skip and limit: when the pages show every document once, whatever order the queries put equal documents in.
import Mathlib.Data.List.Nodup
import Mathlib.Data.List.Perm.Basic

/-!
# Paging

A query returns a part of the collection in some order that agrees with a comparison. The
comparison need not tell all documents apart, and two queries may put equal ones in different
orders. Then the pages show every document exactly once if no group of equal documents extends
over two pages, and only then.
-/

namespace Paging

variable {α : Type*} (cmp : α → α → Ordering)

/-- An order in which a query may return the documents. -/
structure IsOrder (docs order : List α) : Prop where
  perm : order.Perm docs
  sorted : order.Pairwise fun a b => (cmp a b).isLE = true

/-- The page with this index, counted from 0: skip and limit. -/
def slice (order : List α) (limit k : Nat) : List α := (order.drop (k * limit)).take limit

/-- `Math.ceil(total / limit)` -/
def totalPages (total limit : Nat) : Nat := (total + limit - 1) / limit

/-- The pages one after the other, each from a query of its own. -/
def allPages (orders : Nat → List α) (limit total : Nat) : List α :=
  (List.range (totalPages total limit)).flatMap fun k => slice (orders k) limit k

/-- How many documents come before `x` in every order. -/
def before (docs : List α) (x : α) : Nat := docs.countP fun d => cmp d x == .lt

/-- How many documents may come before `x` or are `x`. -/
def upTo (docs : List α) (x : α) : Nat := docs.countP fun d => (cmp d x).isLE

/-- The first and the last place that `x` can have are on the same page. -/
def OnOnePage (docs : List α) (limit : Nat) (x : α) : Prop :=
  before cmp docs x / limit = (upTo cmp docs x - 1) / limit

instance (docs : List α) (limit : Nat) (x : α) : Decidable (OnOnePage cmp docs limit x) :=
  inferInstanceAs (Decidable (_ = _))

/-! ## Slices -/

section Slices

variable {order : List α} {limit k total : Nat} {x : α}

theorem le_totalPages_mul (hlimit : 0 < limit) : total ≤ totalPages total limit * limit := by
  have hdiv := Nat.div_add_mod (total + limit - 1) limit
  have hmod := Nat.mod_lt (total + limit - 1) hlimit
  rw [totalPages, Nat.mul_comm]
  omega

theorem div_lt_totalPages {i : Nat} (hlimit : 0 < limit) (hi : i < total) :
    i / limit < totalPages total limit :=
  Nat.div_lt_of_lt_mul (by
    rw [Nat.mul_comm]
    exact Nat.lt_of_lt_of_le hi (le_totalPages_mul hlimit))

theorem mem_slice (hlimit : 0 < limit) :
    x ∈ slice order limit k ↔ ∃ i, order[i]? = some x ∧ i / limit = k := by
  rw [List.mem_iff_getElem?]
  simp only [slice, List.getElem?_take, List.getElem?_drop, Option.ite_none_right_eq_some]
  constructor
  · rintro ⟨j, hj, hx⟩
    refine ⟨k * limit + j, hx, ?_⟩
    rw [Nat.mul_comm, Nat.mul_add_div hlimit, Nat.div_eq_of_lt hj, Nat.add_zero]
  · rintro ⟨i, hx, rfl⟩
    refine ⟨i % limit, Nat.mod_lt i hlimit, ?_⟩
    rwa [Nat.mul_comm, Nat.div_add_mod]

theorem slice_eq_nil (hlimit : 0 < limit) (hk : totalPages order.length limit ≤ k) :
    slice order limit k = [] := by
  have hlength : order.length ≤ k * limit :=
    Nat.le_trans (le_totalPages_mul hlimit) (Nat.mul_le_mul_right limit hk)
  rw [slice, List.drop_eq_nil_of_le hlength, List.take_nil]

/-- The pages of one order make up the order. -/
theorem flatMap_slice (n : Nat) :
    ((List.range n).flatMap fun k => slice order limit k) = order.take (n * limit) := by
  induction n with
  | zero => simp
  | succ n ih =>
    rw [List.range_succ, List.flatMap_append, ih, List.flatMap_singleton, Nat.succ_mul, List.take_add,
      slice]

end Slices

/-! ## Places -/

section Places

variable [Std.TransCmp cmp] {cmp} {docs order : List α} {limit k : Nat} {x : α}

/-- The place of a document in an order. -/
theorem IsOrder.place (h : IsOrder cmp docs order) {i : Nat} (hi : order[i]? = some x) :
    before cmp docs x ≤ i ∧ i < upTo cmp docs x := by
  obtain ⟨hlt, rfl⟩ := List.getElem?_eq_some_iff.mp hi
  obtain ⟨a, b, horder, rfl⟩ : ∃ a b, order = a ++ order[i] :: b ∧ a.length = i :=
    ⟨order.take i, order.drop (i + 1), by simp, by simp [Nat.le_of_lt hlt]⟩
  generalize order[a.length] = x at horder
  obtain ⟨-, hb, hab⟩ := List.pairwise_append.mp (horder ▸ h.sorted)
  have hself : (cmp x x) = .eq := Std.ReflCmp.compare_self
  rw [before, upTo, ← h.perm.countP_eq, ← h.perm.countP_eq, horder, List.countP_append,
    List.countP_append, List.countP_cons, List.countP_cons]
  have hafter : b.countP (fun d => cmp d x == .lt) = 0 := by
    refine List.countP_eq_zero.mpr fun d hd hlt => ?_
    exact Std.OrientedCmp.not_isLE_of_lt (beq_iff_eq.mp hlt) ((List.pairwise_cons.mp hb).1 d hd)
  have hbefore : a.countP (fun d => (cmp d x).isLE) = a.length :=
    List.countP_eq_length.mpr fun d hd => hab d hd x List.mem_cons_self
  have hle := a.countP_le_length (p := fun d => cmp d x == .lt)
  rw [hafter, hbefore, hself]
  simp
  omega

/-- When no group of equal documents extends over two pages, the place of a document in the
    order does not matter for the page it is on. -/
theorem IsOrder.mem_slice_iff (h : IsOrder cmp docs order) (hlimit : 0 < limit)
    (hone : ∀ x ∈ docs, OnOnePage cmp docs limit x) :
    x ∈ slice order limit k ↔ x ∈ docs ∧ before cmp docs x / limit = k := by
  have hpage : ∀ i, order[i]? = some x → i / limit = before cmp docs x / limit := by
    intro i hi
    obtain ⟨hlow, hhigh⟩ := h.place hi
    have hx := hone x (h.perm.mem_iff.mp (List.mem_of_getElem? hi))
    refine Nat.le_antisymm ?_ (Nat.div_le_div_right hlow)
    rw [hx]
    exact Nat.div_le_div_right (Nat.le_sub_one_of_lt hhigh)
  rw [mem_slice hlimit]
  constructor
  · rintro ⟨i, hi, rfl⟩
    exact ⟨h.perm.mem_iff.mp (List.mem_of_getElem? hi), (hpage i hi).symm⟩
  · rintro ⟨hx, rfl⟩
    obtain ⟨i, hi⟩ := List.mem_iff_getElem?.mp (h.perm.mem_iff.mpr hx)
    exact ⟨i, hi, hpage i hi⟩

/-- Then the pages show every document once. -/
theorem allPages_perm {orders : Nat → List α} (hnodup : docs.Nodup) (hlimit : 0 < limit)
    (horders : ∀ k, IsOrder cmp docs (orders k)) (hone : ∀ x ∈ docs, OnOnePage cmp docs limit x) :
    (allPages orders limit docs.length).Perm docs := by
  have hslice : ∀ k, (slice (orders k) limit k).Perm (slice (orders 0) limit k) := by
    intro k
    have hsub : ∀ {order}, IsOrder cmp docs order → (slice order limit k).Nodup := fun horder =>
      ((List.take_sublist _ _).trans (List.drop_sublist _ _)).nodup (horder.perm.nodup_iff.mpr hnodup)
    refine (List.perm_ext_iff_of_nodup (hsub (horders k)) (hsub (horders 0))).mpr fun x => ?_
    rw [(horders k).mem_slice_iff hlimit hone, (horders 0).mem_slice_iff hlimit hone]
  have hwhole : allPages (fun _ => orders 0) limit docs.length = orders 0 := by
    rw [allPages, flatMap_slice]
    apply List.take_of_length_le
    rw [(horders 0).perm.length_eq]
    exact le_totalPages_mul hlimit
  have hperm : (allPages orders limit docs.length).Perm
      (allPages (fun _ => orders 0) limit docs.length) :=
    List.Perm.flatMap_left _ fun k _ => hslice k
  rw [hwhole] at hperm
  exact hperm.trans (horders 0).perm

/-! ## Orders that disagree -/

variable (cmp) in
def sort (docs : List α) : List α := docs.mergeSort fun a b => (cmp a b).isLE

variable (cmp docs) in
theorem isOrder_sort : IsOrder cmp docs (sort cmp docs) where
  perm := List.mergeSort_perm _ _
  sorted := List.pairwise_mergeSort (fun _ _ _ => Std.TransCmp.isLE_trans) (fun a b => by
    have hswap : cmp b a = (cmp a b).swap := Std.OrientedCmp.eq_swap
    rw [hswap]
    cases cmp a b <;> rfl) docs

/-- A document with those that may come before it, and those that may come after it. -/
theorem isOrder_around {a b : List α} (hperm : (a ++ x :: b).Perm docs)
    (ha : ∀ d ∈ a, (cmp d x).isLE = true) (hb : ∀ d ∈ b, (cmp x d).isLE = true) :
    IsOrder cmp docs (sort cmp a ++ x :: sort cmp b) := by
  have hsorta := isOrder_sort cmp a
  have hsortb := isOrder_sort cmp b
  refine ⟨((hsorta.perm.append (hsortb.perm.cons x)).trans hperm), List.pairwise_append.mpr ?_⟩
  have hbefore : ∀ d ∈ sort cmp a, (cmp d x).isLE = true := fun d hd =>
    ha d (hsorta.perm.mem_iff.mp hd)
  have hafter : ∀ d ∈ sort cmp b, (cmp x d).isLE = true := fun d hd =>
    hb d (hsortb.perm.mem_iff.mp hd)
  refine ⟨hsorta.sorted, List.pairwise_cons.mpr ⟨hafter, hsortb.sorted⟩, fun d hd e he => ?_⟩
  rcases List.mem_cons.mp he with rfl | he
  · exact hbefore d hd
  · exact Std.TransCmp.isLE_trans (hbefore d hd) (hafter e he)

variable (cmp) in
/-- A document can be the first of the documents it is equal to. -/
theorem exists_first (hx : x ∈ docs) :
    ∃ order, IsOrder cmp docs order ∧ order[before cmp docs x]? = some x := by
  have hself : cmp x x = .eq := Std.ReflCmp.compare_self
  have hmem : x ∈ docs.filter fun d => !(cmp d x == .lt) := List.mem_filter.mpr ⟨hx, by simp [hself]⟩
  obtain ⟨b₁, b₂, hb⟩ := List.append_of_mem hmem
  have hperm : (docs.filter (fun d => cmp d x == .lt) ++ x :: (b₁ ++ b₂)).Perm docs := by
    have hrest : (x :: (b₁ ++ b₂)).Perm (docs.filter fun d => !(cmp d x == .lt)) := by
      rw [hb]
      exact List.perm_middle.symm
    exact (hrest.append_left _).trans (List.filter_append_perm _ _)
  refine ⟨_, isOrder_around hperm ?_ ?_, ?_⟩
  · intro d hd
    have hlt := beq_iff_eq.mp (List.mem_filter.mp hd).2
    rw [hlt]
    rfl
  · intro d hd
    have hd' : d ∈ docs.filter fun d => !(cmp d x == .lt) := by
      rw [hb]
      exact List.perm_middle.mem_iff.mpr (List.mem_cons_of_mem x hd)
    have hnot := (List.mem_filter.mp hd').2
    have hswap : cmp x d = (cmp d x).swap := Std.OrientedCmp.eq_swap
    rw [hswap]
    revert hnot
    cases cmp d x <;> simp
  · rw [List.getElem?_append_right (by simp [(isOrder_sort cmp _).perm.length_eq, before,
      List.countP_eq_length_filter])]
    simp [(isOrder_sort cmp _).perm.length_eq, before, List.countP_eq_length_filter]

variable (cmp) in
/-- A document can be the last of the documents it is equal to. -/
theorem exists_last (hx : x ∈ docs) :
    ∃ order, IsOrder cmp docs order ∧ order[upTo cmp docs x - 1]? = some x := by
  have hself : cmp x x = .eq := Std.ReflCmp.compare_self
  have hmem : x ∈ docs.filter fun d => (cmp d x).isLE := List.mem_filter.mpr ⟨hx, by simp [hself]⟩
  obtain ⟨a₁, a₂, ha⟩ := List.append_of_mem hmem
  have hperm : (a₁ ++ a₂ ++ x :: docs.filter fun d => !(cmp d x).isLE).Perm docs := by
    have hrest : (a₁ ++ a₂ ++ x :: docs.filter fun d => !(cmp d x).isLE).Perm
        (docs.filter (fun d => (cmp d x).isLE) ++ docs.filter fun d => !(cmp d x).isLE) := by
      rw [ha]
      exact List.perm_middle.trans (List.perm_middle.symm.append_right _)
    exact hrest.trans (List.filter_append_perm _ _)
  have hlength : (sort cmp (a₁ ++ a₂)).length = upTo cmp docs x - 1 := by
    have hcount := congrArg List.length ha
    rw [← List.countP_eq_length_filter] at hcount
    rw [(isOrder_sort cmp _).perm.length_eq, upTo, hcount]
    simp
  refine ⟨_, isOrder_around hperm ?_ ?_, ?_⟩
  · intro d hd
    have hd' : d ∈ docs.filter fun d => (cmp d x).isLE := by
      rw [ha]
      exact List.perm_middle.mem_iff.mpr (List.mem_cons_of_mem x hd)
    exact (List.mem_filter.mp hd').2
  · intro d hd
    have hnot := (List.mem_filter.mp hd).2
    have hswap : cmp x d = (cmp d x).swap := Std.OrientedCmp.eq_swap
    rw [hswap]
    revert hnot
    cases cmp d x <;> simp
  · rw [← hlength, List.getElem?_append_right (Nat.le_refl _), Nat.sub_self, List.getElem?_cons_zero]

/-- If the pages show every document once whatever orders the queries use, no group of equal
    documents extends over two pages. -/
theorem onOnePage_of_perm (hnodup : docs.Nodup) (hlimit : 0 < limit)
    (h : ∀ orders, (∀ k, IsOrder cmp docs (orders k)) →
      (allPages orders limit docs.length).Perm docs) (hx : x ∈ docs) : OnOnePage cmp docs limit x := by
  by_contra hone
  obtain ⟨first, hfirst, hplace⟩ := exists_first cmp hx
  obtain ⟨last, hlast, hplace'⟩ := exists_last cmp hx
  -- The document is on its first page there, and on its last page here.
  let orders k := if k = before cmp docs x / limit then first else last
  have horders : ∀ k, IsOrder cmp docs (orders k) := by
    intro k
    by_cases hk : k = before cmp docs x / limit
    · simpa only [orders, if_pos hk]
    · simpa only [orders, if_neg hk]
  have hpages : ∀ {order i}, IsOrder cmp docs order → order[i]? = some x →
      i / limit < totalPages docs.length limit := fun horder hi =>
    div_lt_totalPages hlimit (horder.perm.length_eq ▸ (List.getElem?_eq_some_iff.mp hi).1)
  have hmem : x ∈ slice (orders (before cmp docs x / limit)) limit (before cmp docs x / limit) := by
    simp only [orders, if_true]
    exact (mem_slice hlimit).mpr ⟨_, hplace, rfl⟩
  have hmem' : x ∈ slice (orders ((upTo cmp docs x - 1) / limit)) limit
      ((upTo cmp docs x - 1) / limit) := by
    simp only [orders, if_neg (Ne.symm hone)]
    exact (mem_slice hlimit).mpr ⟨_, hplace', rfl⟩
  have hlt : before cmp docs x / limit < (upTo cmp docs x - 1) / limit := by
    obtain ⟨hlow, -⟩ := hlast.place hplace'
    exact Nat.lt_of_le_of_ne (Nat.div_le_div_right hlow) hone
  have hpairwise := (List.nodup_flatMap.mp ((h orders horders).nodup_iff.mpr hnodup)).2
  have hdisjoint := List.pairwise_iff_getElem.mp hpairwise _ _
    (by simpa using hpages hfirst hplace) (by simpa using hpages hlast hplace') hlt
  simp only [List.getElem_range] at hdisjoint
  exact hdisjoint hmem hmem'

/-- The exact condition for the pages to show every document once. -/
theorem allPages_perm_iff (hnodup : docs.Nodup) (hlimit : 0 < limit) :
    (∀ orders, (∀ k, IsOrder cmp docs (orders k)) → (allPages orders limit docs.length).Perm docs) ↔
      ∀ x ∈ docs, OnOnePage cmp docs limit x :=
  ⟨fun h _ hx => onOnePage_of_perm hnodup hlimit h hx,
    fun hone _ horders => allPages_perm hnodup hlimit horders hone⟩

/-- The same for what is shown of the documents, if it tells them apart. -/
theorem shown_perm_iff {β : Type*} {f : α → β} (hnodup : (docs.map f).Nodup) (hlimit : 0 < limit) :
    (∀ orders : Nat → List α, (∀ k, IsOrder cmp docs (orders k)) →
      ((List.range (totalPages docs.length limit)).flatMap fun k =>
        (slice (orders k) limit k).map f).Perm (docs.map f)) ↔
      ∀ x ∈ docs, OnOnePage cmp docs limit x := by
  have hdocs := List.Nodup.of_map f hnodup
  rw [← allPages_perm_iff hdocs hlimit]
  refine forall_congr' fun orders => imp_congr_right fun horders => ?_
  have hshown : ((List.range (totalPages docs.length limit)).flatMap fun k =>
      (slice (orders k) limit k).map f) = (allPages orders limit docs.length).map f := by
    rw [allPages, List.map_flatMap]
  rw [hshown]
  refine ⟨fun h => ?_, fun h => h.map f⟩
  have hpages := List.Nodup.of_map f (h.nodup_iff.mpr hnodup)
  have hsub : ∀ x ∈ allPages orders limit docs.length, x ∈ docs := by
    intro x hx
    obtain ⟨k, -, hk⟩ := List.mem_flatMap.mp hx
    exact (horders k).perm.mem_iff.mp (List.mem_of_mem_drop (List.mem_of_mem_take hk))
  refine (List.perm_ext_iff_of_nodup hpages hdocs).mpr fun x => ⟨hsub x, fun hx => ?_⟩
  obtain ⟨y, hy, hf⟩ := List.mem_map.mp (h.mem_iff.mpr (List.mem_map_of_mem hx))
  obtain rfl := List.inj_on_of_nodup_map hnodup (hsub y hy) hx hf
  exact hy

end Places

end Paging
