-- SUMMARY: The bounded memory of a JSON document: an object that is filled member by member holds all its members exactly when they fit.
import Mathlib.Algebra.BigOperators.Group.Finset.Basic
import Mathlib.Algebra.Order.BigOperators.Group.Finset
import Mathlib.Algebra.Order.Ring.Nat
import ParkingGate.Firmware.Protocol

/-!
# Documents of bounded size

A `DynamicJsonDocument` has a fixed number of bytes. An object member or an array element
takes a slot, and a text that comes from a buffer is copied behind the texts that are
there already, unless it is one of them. What does not fit is left out, and nothing
reports it.

The library is a parameter. `contents` says what one of its pools holds, and the laws say
what is assumed of it.
-/

namespace Firmware

/-- The memory of the documents of ArduinoJson. -/
structure JsonMemory where
  Pool : Type
  /-- `DynamicJsonDocument(capacity)`. -/
  create : (capacity : Nat) → Pool
  /-- Take a slot; `none` when it does not fit. -/
  addSlot : Pool → Option Pool
  /-- Copy a text; `none` when it does not fit. -/
  saveString : Pool → CString → Option Pool

/-- The bytes of an object member or an array element on the ESP32. -/
def slotSize : Nat := 16

namespace JsonMemory

/-- What a pool holds. -/
structure Contents where
  capacity : Nat
  slots : Nat
  strings : Finset CString

namespace Contents

/-- Each text is followed by its terminator. -/
def bytes (c : Contents) : Nat :=
  slotSize * c.slots + ∑ t ∈ c.strings, (t.bytes.length + 1)

def Fits (c : Contents) : Prop := c.bytes ≤ c.capacity

instance (c : Contents) : Decidable c.Fits := inferInstanceAs (Decidable (_ ≤ _))

/-- With `n` more slots and the texts `T`. -/
def add (c : Contents) (n : Nat) (T : Finset CString) : Contents :=
  { c with slots := c.slots + n, strings := c.strings ∪ T }

/-- `c`, if it fits. -/
def ifFits (c : Contents) : Option Contents := if c.Fits then some c else none

theorem add_add (c : Contents) (n m : Nat) (T U : Finset CString) :
    (c.add n T).add m U = c.add (n + m) (T ∪ U) := by
  simp only [add, Nat.add_assoc, Finset.union_assoc]

@[simp] theorem add_zero (c : Contents) : c.add 0 ∅ = c := by
  simp [add]

theorem bytes_add_le (c : Contents) {n m : Nat} {T U : Finset CString} (hn : n ≤ m) (hT : T ⊆ U) :
    (c.add n T).bytes ≤ (c.add m U).bytes := by
  apply Nat.add_le_add
  · exact Nat.mul_le_mul_left _ (Nat.add_le_add_left hn _)
  · exact Finset.sum_le_sum_of_subset (Finset.union_subset_union_right hT)

/-- What fits, fits without a part of it. -/
theorem Fits.of_add {c : Contents} {n m : Nat} {T U : Finset CString} (h : (c.add m U).Fits)
    (hn : n ≤ m) (hT : T ⊆ U) : (c.add n T).Fits :=
  (c.bytes_add_le hn hT).trans h

end Contents

/-- What is assumed of the library: slots and texts take their bytes, an equal text takes
    none, and a request is refused exactly when it does not fit. -/
structure Lawful (lib : JsonMemory) (contents : lib.Pool → Contents) : Prop where
  create : ∀ capacity, contents (lib.create capacity) = ⟨capacity, 0, ∅⟩
  addSlot : ∀ p, (lib.addSlot p).map contents = ((contents p).add 1 ∅).ifFits
  saveString : ∀ p t, (lib.saveString p t).map contents = ((contents p).add 0 {t}).ifFits

/-- A library that behaves so. -/
def reference : JsonMemory where
  Pool       := Contents
  create     := fun capacity => ⟨capacity, 0, ∅⟩
  addSlot    := fun c => (c.add 1 ∅).ifFits
  saveString := fun c t => (c.add 0 {t}).ifFits

theorem reference_lawful : reference.Lawful id where
  create     := fun _ => rfl
  addSlot    := fun _ => Option.map_id_apply
  saveString := fun _ _ => Option.map_id_apply

/-! ## Filling an object -/

/-- The value of an assignment. -/
inductive Value where
  /-- A number, or a literal that is not copied. -/
  | linked (v : Json)
  /-- The text in a buffer. -/
  | copied (t : CString)

namespace Value

def json : Value → Json
  | .linked v => v
  | .copied t => .str t.bytes

/-- The texts it needs memory for. -/
def texts : Value → Finset CString
  | .linked _ => ∅
  | .copied t => {t}

end Value

/-- An assignment `object[key] = value`. -/
structure Field where
  key : String
  value : Value

/-- An object under construction, with the memory it takes its slots from. -/
structure Building (lib : JsonMemory) where
  pool : lib.Pool
  members : List (List UInt8 × Json)

namespace Building

variable {lib : JsonMemory}

def object (o : Building lib) : Json := .obj o.members

/-- `object[key] = value`, for a key that is not there yet. A member whose text does not fit
    stays null. -/
def assign (o : Building lib) (f : Field) : Building lib :=
  match lib.addSlot o.pool with
  | none => o
  | some pool =>
    match f.value with
    | .linked v => ⟨pool, o.members ++ [(ascii f.key, v)]⟩
    | .copied t =>
      match lib.saveString pool t with
      | none      => ⟨pool, o.members ++ [(ascii f.key, .null)]⟩
      | some pool => ⟨pool, o.members ++ [(ascii f.key, .str t.bytes)]⟩

def assignAll (o : Building lib) (fs : List Field) : Building lib := fs.foldl assign o

end Building

/-- The texts of some fields. -/
def texts (fs : List Field) : Finset CString := fs.foldr (fun f T => f.value.texts ∪ T) ∅

end JsonMemory

/-! ## Members of an object -/

theorem Json.member_append {members : List (List UInt8 × Json)} {key : String}
    (h : (Json.obj members).member key = none) (v : Json) :
    (Json.obj (members ++ [(ascii key, v)])).member key = some v := by
  have hnone : members.find? (fun m => m.1 = ascii key) = none := Option.map_eq_none_iff.mp h
  simp [Json.member, List.find?_append, hnone]

theorem Json.member_append_of_ne {members : List (List UInt8 × Json)} {key : String}
    {key' : List UInt8} (h : key' ≠ ascii key) (v : Json) :
    (Json.obj (members ++ [(key', v)])).member key = (Json.obj members).member key := by
  simp [Json.member, List.find?_append, h]

theorem Json.member_eq_none {members : List (List UInt8 × Json)} {key : String}
    (h : ascii key ∉ members.map (·.1)) : (Json.obj members).member key = none := by
  rw [Json.member, Option.map_eq_none_iff, List.find?_eq_none]
  intro m hm hkey
  exact h (List.mem_map.mpr ⟨m, hm, by simpa using hkey⟩)

/-! ## What an object holds -/

namespace JsonMemory

variable {lib : JsonMemory} {contents : lib.Pool → Contents}

/-- A request under one of the laws: it is met if it fits and refused if not. -/
theorem fits_or_refused {x : Option lib.Pool} {c : Contents} (h : x.map contents = c.ifFits) :
    (c.Fits ∧ ∃ p, x = some p ∧ contents p = c) ∨ (¬ c.Fits ∧ x = none) := by
  unfold Contents.ifFits at h
  split at h
  · rename_i hc
    exact .inl ⟨hc, Option.map_eq_some_iff.mp h⟩
  · rename_i hc
    exact .inr ⟨hc, Option.map_eq_none_iff.mp h⟩

/-- The text of a field takes its bytes after the slot. -/
theorem add_text {pool : lib.Pool} {c : Contents} (h : contents pool = c.add 1 ∅) (t : CString) :
    (contents pool).add 0 {t} = c.add 1 {t} := by
  rw [h, Contents.add_add, Finset.empty_union]

theorem add_fields_cons (c : Contents) (f : Field) (fs : List Field) :
    (c.add 1 f.value.texts).add fs.length (texts fs) =
      c.add (f :: fs).length (texts (f :: fs)) := by
  rw [Contents.add_add, Nat.add_comm]
  rfl

namespace Building

/-- A field that fits is added to the object. -/
theorem assign_of_fits (h : lib.Lawful contents) {o : Building lib} {f : Field}
    (hf : ((contents o.pool).add 1 f.value.texts).Fits) :
    ∃ pool, o.assign f = ⟨pool, o.members ++ [(ascii f.key, f.value.json)]⟩ ∧
      contents pool = (contents o.pool).add 1 f.value.texts := by
  have hslot := hf.of_add le_rfl (Finset.empty_subset _)
  obtain ⟨-, pool, hadd, hpool⟩ | ⟨hno, -⟩ := fits_or_refused (h.addSlot o.pool)
  swap
  · exact absurd hslot hno
  obtain ⟨key, v | t⟩ := f
  · refine ⟨pool, ?_, hpool⟩
    simp only [assign, hadd, Value.json]
  · have htext := add_text hpool t
    obtain ⟨-, pool', hsave, hpool'⟩ | ⟨hno, -⟩ := fits_or_refused (h.saveString pool t)
    · refine ⟨pool', ?_, hpool'.trans htext⟩
      simp only [assign, hadd, hsave, Value.json]
    · exact absurd (htext ▸ hf) hno

/-- A field that does not fit is missing, or null. -/
theorem assign_of_not_fits (h : lib.Lawful contents) {o : Building lib} {f : Field}
    (hf : ¬ ((contents o.pool).add 1 f.value.texts).Fits) :
    (o.assign f).members = o.members ∨
      (o.assign f).members = o.members ++ [(ascii f.key, .null)] := by
  obtain ⟨hslot, pool, hadd, hpool⟩ | ⟨-, hnone⟩ := fits_or_refused (h.addSlot o.pool)
  swap
  · exact .inl (by simp only [assign, hnone])
  obtain ⟨key, v | t⟩ := f
  · exact absurd hslot hf
  · have htext := add_text hpool t
    obtain ⟨hyes, -⟩ | ⟨-, hnone⟩ := fits_or_refused (h.saveString pool t)
    · exact absurd (htext ▸ hyes) hf
    · exact .inr (by simp only [assign, hadd, hnone])

/-- An assignment leaves the other members alone, whether it fits or not. -/
theorem member_assign_of_ne (o : Building lib) {f : Field} {key : String}
    (hkey : ascii f.key ≠ ascii key) : (o.assign f).object.member key = o.object.member key := by
  unfold assign
  split
  · rfl
  split
  · exact Json.member_append_of_ne hkey _
  split
  · exact Json.member_append_of_ne hkey _
  · exact Json.member_append_of_ne hkey _

theorem member_assignAll_of_notMem (o : Building lib) {fs : List Field} {key : String}
    (hkey : ascii key ∉ fs.map (ascii ·.key)) :
    (o.assignAll fs).object.member key = o.object.member key := by
  induction fs generalizing o with
  | nil => rfl
  | cons f fs ih =>
    rw [List.map_cons, List.mem_cons, not_or] at hkey
    exact (ih (o.assign f) hkey.2).trans (o.member_assign_of_ne (Ne.symm hkey.1))

theorem assignAll_of_fits (h : lib.Lawful contents) {o : Building lib} {fs : List Field}
    (hfits : ((contents o.pool).add fs.length (texts fs)).Fits) :
    contents (o.assignAll fs).pool = (contents o.pool).add fs.length (texts fs) := by
  induction fs generalizing o with
  | nil => exact (Contents.add_zero _).symm
  | cons f fs ih =>
    have hf := hfits.of_add (n := 1) (Nat.le_add_left 1 _) Finset.subset_union_left
    obtain ⟨pool, hassign, hpool⟩ := assign_of_fits h hf
    have hadd : (contents pool).add fs.length (texts fs) = _ :=
      hpool ▸ add_fields_cons (contents o.pool) f fs
    have hrest := ih (o := o.assign f) (by rw [hassign]; exact hadd ▸ hfits)
    rw [hassign] at hrest
    exact (congrArg (fun o => contents (assignAll o fs).pool) hassign).trans (hrest.trans hadd)

/-- What fits is added in the order of the assignments. -/
theorem members_assignAll (h : lib.Lawful contents) {o : Building lib} {fs : List Field}
    (hfits : ((contents o.pool).add fs.length (texts fs)).Fits) :
    (o.assignAll fs).members = o.members ++ fs.map fun f => (ascii f.key, f.value.json) := by
  induction fs generalizing o with
  | nil => exact (List.append_nil _).symm
  | cons f fs ih =>
    have hf := hfits.of_add (n := 1) (Nat.le_add_left 1 _) Finset.subset_union_left
    obtain ⟨pool, hassign, hpool⟩ := assign_of_fits h hf
    have hadd : (contents pool).add fs.length (texts fs) = _ :=
      hpool ▸ add_fields_cons (contents o.pool) f fs
    have hrest := ih (o := o.assign f) (by rw [hassign]; exact hadd ▸ hfits)
    have hmembers := congrArg Building.members hassign
    rw [hmembers, List.append_assoc] at hrest
    exact hrest

/-- An object that is filled with distinct keys holds every value exactly when all of it fits. -/
theorem holds_iff (h : lib.Lawful contents) {o : Building lib} {fs : List Field}
    (hpool : (contents o.pool).Fits)
    (hkeys : (o.members.map (·.1) ++ fs.map (ascii ·.key)).Nodup)
    (hnull : ∀ f ∈ fs, f.value.json ≠ .null) :
    (∀ f ∈ fs, (o.assignAll fs).object.member f.key = some f.value.json) ↔
      ((contents o.pool).add fs.length (texts fs)).Fits := by
  induction fs generalizing o with
  | nil => exact iff_of_true (fun f hf => absurd hf List.not_mem_nil) (by simpa [texts] using hpool)
  | cons f fs ih =>
    have hnew : o.object.member f.key = none := by
      refine Json.member_eq_none fun hmem => ?_
      exact (List.nodup_append.mp hkeys).2.2 _ hmem _ List.mem_cons_self rfl
    have hlater : ascii f.key ∉ fs.map (ascii ·.key) :=
      (List.nodup_cons.mp (List.nodup_append.mp hkeys).2.1).1
    -- The member is what this assignment left, whatever is assigned later.
    have hmember : (o.assignAll (f :: fs)).object.member f.key = (o.assign f).object.member f.key :=
      member_assignAll_of_notMem (o.assign f) hlater
    by_cases hf : ((contents o.pool).add 1 f.value.texts).Fits
    · obtain ⟨pool, hassign, hcontents⟩ := assign_of_fits h hf
      have hadd : (contents pool).add fs.length (texts fs) = _ :=
        hcontents ▸ add_fields_cons (contents o.pool) f fs
      have hfirst : (o.assign f).object.member f.key = some f.value.json := by
        rw [hassign]
        exact Json.member_append hnew _
      have hkeys' : ((o.assign f).members.map (·.1) ++ fs.map (ascii ·.key)).Nodup := by
        rw [hassign]
        simpa using hkeys
      have hrest := ih (o := o.assign f) (by rw [hassign]; exact hcontents ▸ hf) hkeys'
        (fun f' hf' => hnull f' (List.mem_cons_of_mem _ hf'))
      rw [List.forall_mem_cons, hmember]
      refine (and_iff_right hfirst).trans (hrest.trans ?_)
      rw [hassign, hadd]
    · refine iff_of_false (fun hall => ?_) fun hfits => ?_
      · have hvalue := hmember.symm.trans (hall f List.mem_cons_self)
        rcases assign_of_not_fits h hf with hmissing | hisNull
        · rw [object, hmissing] at hvalue
          cases hnew.symm.trans hvalue
        · rw [object, hisNull, Json.member_append hnew] at hvalue
          exact hnull f List.mem_cons_self (Option.some.inj hvalue).symm
      · exact hf (hfits.of_add (Nat.le_add_left 1 _) Finset.subset_union_left)

end Building

end JsonMemory

end Firmware
