-- SUMMARY: The history of a bounded queue that drops its oldest element when it is full: what was put in, what was taken out, and what can have been lost.
import Mathlib.Data.List.Basic

/-!
# The ledger of a bounded queue

Elements are put in at the end and taken out at the front. A queue that is full makes room by
dropping its front. The ledger relates everything that was ever put in to what was taken out
and what is still there: the order is kept, nothing is taken twice, and an element that was
dropped is followed by as many others as the queue holds.
-/

variable {α : Type*} {capacity : Nat} {recorded taken queue : List α}

/-- What has left the queue, and whether it was taken. -/
structure Ledger.Left (capacity : Nat) (recorded taken queue : List α) (left : List (α × Bool)) : Prop where
  all : recorded = left.map (·.1) ++ queue
  removed : taken = (left.filter (·.2)).map (·.1)
  /-- A whole queue was put in after an element that was dropped. -/
  dropped : ∀ i x, left[i]? = some (x, false) → i + capacity < recorded.length

/-- `recorded` was put in and `taken` taken out, in this order, and `queue` is left. -/
def Ledger (capacity : Nat) (recorded taken queue : List α) : Prop :=
  ∃ left, Ledger.Left capacity recorded taken queue left

namespace Ledger

/-! ## Steps -/

theorem empty : Ledger capacity ([] : List α) [] [] := by
  refine ⟨[], rfl, rfl, fun i x h => ?_⟩
  cases h

/-- Putting an element into a queue with room for it. -/
theorem push (h : Ledger capacity recorded taken queue) (x : α) :
    Ledger capacity (recorded ++ [x]) taken (queue ++ [x]) := by
  obtain ⟨left, hleft⟩ := h
  refine ⟨left, ?_, hleft.removed, fun i y hi => ?_⟩
  · rw [hleft.all, List.append_assoc]
  · rw [List.length_append]
    exact Nat.lt_add_right _ (hleft.dropped i y hi)

/-- The front of a queue that holds more than its capacity is dropped. -/
theorem drop (h : Ledger capacity recorded taken queue) (hlen : capacity < queue.length) :
    Ledger capacity recorded taken queue.tail := by
  obtain ⟨left, hleft⟩ := h
  obtain ⟨x, rest, rfl⟩ := List.exists_cons_of_length_pos (Nat.zero_lt_of_lt hlen)
  refine ⟨left ++ [(x, false)], ?_, ?_, fun i y hi => ?_⟩
  · rw [hleft.all, List.map_append, List.append_assoc]
    rfl
  · rw [hleft.removed, List.filter_append, List.map_append]
    exact (List.append_nil _).symm
  · rcases Nat.lt_or_ge i left.length with hlt | hge
    · rw [List.getElem?_append_left hlt] at hi
      exact hleft.dropped i y hi
    · have hi : i < (left ++ [(x, false)]).length := (List.getElem?_eq_some_iff.mp hi).1
      have hrecorded := congrArg List.length hleft.all
      rw [List.length_append, List.length_map] at hrecorded
      rw [List.length_append, List.length_singleton] at hi
      omega

/-- Taking the first `n` elements. -/
theorem take (h : Ledger capacity recorded taken queue) (n : Nat) :
    Ledger capacity recorded (taken ++ queue.take n) (queue.drop n) := by
  obtain ⟨left, hleft⟩ := h
  let front := (queue.take n).map fun x => (x, true)
  have hall : ∀ p ∈ front, p.2 = true := by
    intro p hp
    obtain ⟨x, -, rfl⟩ := List.mem_map.mp hp
    rfl
  have hfst : front.map (·.1) = queue.take n := by
    rw [List.map_map]
    exact List.map_id _
  refine ⟨left ++ front, ?_, ?_, fun i y hi => ?_⟩
  · rw [List.map_append, hfst, List.append_assoc, List.take_append_drop, hleft.all]
  · rw [List.filter_append, List.filter_eq_self.mpr hall, List.map_append, hfst, hleft.removed]
  · rcases Nat.lt_or_ge i left.length with hlt | hge
    · rw [List.getElem?_append_left hlt] at hi
      exact hleft.dropped i y hi
    · rw [List.getElem?_append_right hge] at hi
      exact absurd (hall _ (List.mem_of_getElem? hi)) Bool.false_ne_true

/-! ## What a ledger says -/

/-- Nothing is made up, taken twice or out of order. -/
theorem sublist (h : Ledger capacity recorded taken queue) : (taken ++ queue).Sublist recorded := by
  obtain ⟨left, hleft⟩ := h
  rw [hleft.all, hleft.removed]
  exact (List.filter_sublist.map _).append (List.Sublist.refl _)

/-- The latest elements, as many as the queue holds, were taken or are still there. -/
theorem recent (h : Ledger capacity recorded taken queue) :
    recorded.drop (recorded.length - capacity) <:+ taken ++ queue := by
  obtain ⟨left, hleft⟩ := h
  let k := recorded.length - capacity
  have hlate : ∀ p ∈ left.drop k, p.2 = true := by
    intro p hp
    obtain ⟨i, hi⟩ := List.mem_iff_getElem?.mp hp
    rw [List.getElem?_drop] at hi
    cases hp2 : p.2 with
    | true => rfl
    | false =>
      have hdropped := hleft.dropped (k + i) p.1 (by rw [hi, ← hp2])
      omega
  rcases Nat.lt_or_ge left.length k with hlt | hge
  · -- What is asked for is a part of the queue.
    have hpart : recorded.drop k <:+ queue := by
      rw [hleft.all, List.drop_append, List.drop_eq_nil_of_le, List.nil_append]
      · exact List.drop_suffix _ _
      · rw [List.length_map]
        exact Nat.le_of_lt hlt
    exact hpart.trans (List.suffix_append _ _)
  · have hsplit : taken = ((left.take k).filter (·.2)).map (·.1) ++ (left.drop k).map (·.1) := by
      rw [hleft.removed, ← List.filter_eq_self.mpr hlate, ← List.map_append, ← List.filter_append,
        List.take_append_drop]
    have hdrop : recorded.drop k = (left.drop k).map (·.1) ++ queue := by
      have hzero : k - left.length = 0 := Nat.sub_eq_zero_of_le hge
      rw [hleft.all, List.drop_append, List.length_map, hzero, List.map_drop]
      rfl
    refine ⟨((left.take k).filter (·.2)).map (·.1), ?_⟩
    rw [hsplit, List.append_assoc]
    exact congrArg _ hdrop

end Ledger
