-- SUMMARY: Ring buffers over a fixed array, the queue they hold, and the sliding window of a history that only grows.
import Mathlib.Data.List.DropRight
import Mathlib.Data.List.Rotate

/-!
# Ring buffers

A ring buffer is an array with the position of the next write and a count of the
live entries. Reading the array from the next write position on, with wrap-around,
lists the slots from the oldest to the newest, and the live entries are the last
`count` of that list. Pushing then drops the head of the rotated array and appends
the new entry, which is all the later lemmas need.

The second half is about histories: a list that grows at its end and the window of
its last `n` entries.
-/

/-- A ring buffer of capacity `cap`. -/
structure RingBuffer (α : Type*) (cap : Nat) where
  slots : Vector α cap
  /-- The position of the next write. -/
  head : Fin cap
  count : Fin (cap + 1)

namespace RingBuffer

variable {α : Type*} {cap : Nat}

/-- The position after `i`, wrapping from the last slot to the first. -/
def next (i : Fin cap) : Fin cap := ⟨(i + 1) % cap, Nat.mod_lt _ i.pos⟩

/-- The count after one more write, which saturates at the capacity. -/
def grow (n : Fin (cap + 1)) : Fin (cap + 1) :=
  ⟨if n.val < cap then n + 1 else n, by split <;> omega⟩

/-- Write an entry at the head, over the oldest one when the ring is full. -/
def push (r : RingBuffer α cap) (x : α) : RingBuffer α cap where
  slots := r.slots.set r.head x
  head := next r.head
  count := grow r.count

/-- The slots from the oldest write position to the newest. -/
def rotated (r : RingBuffer α cap) : List α := r.slots.toList.rotate r.head

/-- The live entries, oldest first. -/
def contents (r : RingBuffer α cap) : List α := r.rotated.rtake r.count

@[simp] theorem length_rotated (r : RingBuffer α cap) : r.rotated.length = cap := by
  simp [rotated]

@[simp] theorem length_contents (r : RingBuffer α cap) : r.contents.length = r.count := by
  have := r.count.is_le
  simp only [contents, List.rtake, List.length_drop, length_rotated]
  omega

theorem val_grow (n : Fin (cap + 1)) : (grow n).val = min (n.val + 1) cap := by
  have := n.is_le
  simp only [grow]
  split <;> omega

/-- Writing at position `n` and advancing past it, seen on the rotated list. -/
private theorem rotate_succ_set {l : List α} {n : Nat} (h : n < l.length) (x : α) :
    (l.set n x).rotate (n + 1) = (l.rotate n).tail ++ [x] := by
  obtain ⟨a, b, rfl, rfl⟩ : ∃ a b, l = a ++ b ∧ a.length = n :=
    ⟨l.take n, l.drop n, (List.take_append_drop n l).symm, by simp; omega⟩
  cases b with
  | nil => simp at h
  | cons y b =>
    have hset : (a ++ y :: b).set a.length x = (a ++ [x]) ++ b := by simp
    have hlen : a.length + 1 = (a ++ [x]).length := by simp
    rw [hset, hlen, List.rotate_append_length_eq, List.rotate_append_length_eq]
    simp

theorem rotated_push (r : RingBuffer α cap) (x : α) :
    (r.push x).rotated = r.rotated.tail ++ [x] := by
  have hlen : r.head.val < r.slots.toList.length := by simp
  have hmod : (r.head + 1) % cap = (r.head + 1) % (r.slots.toList.set r.head x).length := by
    simp
  simp only [rotated, push, next, Vector.toList_set]
  rw [hmod, List.rotate_mod]
  exact rotate_succ_set hlen x

/-- Pushing appends to the queue and drops its oldest entry when the ring is full. -/
theorem contents_push (r : RingBuffer α cap) (x : α) :
    (r.push x).contents = (r.contents ++ [x]).rtake cap := by
  have hc := r.count.is_le
  have hpos := r.head.pos
  simp only [contents, rotated_push]
  have hcount : (r.push x).count.val = min (r.count.val + 1) cap := val_grow r.count
  rw [hcount]
  simp only [List.rtake, List.length_append, List.length_tail, length_rotated,
    List.length_drop, List.length_singleton]
  rw [List.drop_append_of_le_length (by simp; omega), ← List.drop_one, List.drop_drop,
    List.drop_append_of_le_length (by simp; omega), List.drop_drop]
  congr 2
  omega

/-- The same as a bounded queue: append, and drop the oldest entry on overflow. -/
theorem contents_push_eq (r : RingBuffer α cap) (x : α) :
    (r.push x).contents =
      if (r.contents ++ [x]).length > cap then (r.contents ++ [x]).tail else r.contents ++ [x] := by
  have hc := r.count.is_le
  rw [contents_push, List.rtake]
  split
  · rename_i hfull
    have hone : (r.contents ++ [x]).length - cap = 1 := by simp at hfull ⊢; omega
    rw [hone, List.drop_one]
  · rename_i hfits
    rw [Nat.sub_eq_zero_of_le (by omega), List.drop_zero]

/-- Drop the `n` oldest entries. Only the count changes: the slots stay where they are. -/
def dropOldest (r : RingBuffer α cap) (n : Nat) : RingBuffer α cap :=
  { r with count := ⟨r.count - n, by have := r.count.is_lt; omega⟩ }

theorem contents_dropOldest (r : RingBuffer α cap) (n : Nat) :
    (r.dropOldest n).contents = r.contents.drop n := by
  have hrotated : (r.dropOldest n).rotated = r.rotated := rfl
  have hcount : (r.dropOldest n).count.val = r.count - n := rfl
  have hc := r.count.is_le
  simp only [contents, hrotated, hcount, List.rtake, length_rotated, List.drop_drop]
  by_cases hn : n ≤ r.count
  · congr 1
    omega
  · -- Both sides are empty: everything is dropped.
    have hle : r.rotated.length ≤ cap := (length_rotated r).le
    rw [List.drop_eq_nil_of_le (by omega), List.drop_eq_nil_of_le (by omega)]

/-- The position of the `i`-th oldest entry. -/
theorem getElem?_contents (r : RingBuffer α cap) {i : Nat} (hi : i < r.count.val) :
    r.contents[i]? = r.slots.toList[(r.head + cap - r.count + i) % cap]? := by
  have hc := r.count.is_le
  have hidx : cap - r.count.val + i < r.slots.toList.length := by simp; omega
  have hpos : cap - r.count.val + i + r.head.val = r.head + cap - r.count + i := by omega
  simp only [contents, rotated, List.rtake, List.length_rotate, Vector.length_toList,
    List.getElem?_drop]
  rw [List.getElem?_rotate hidx, Vector.length_toList, hpos]

/-- A ring nothing was ever removed from: until it is full, the writes fill the array
    from its first slot on. -/
def Filling (r : RingBuffer α cap) : Prop := r.count.val < cap → r.head.val = r.count.val

theorem Filling.push {r : RingBuffer α cap} (h : r.Filling) (x : α) : (r.push x).Filling := by
  intro hlt
  have hcount : (r.push x).count.val = min (r.count.val + 1) cap := val_grow r.count
  have hhead : (r.push x).head.val = (r.head + 1) % cap := rfl
  rw [hcount] at hlt ⊢
  have hr : r.head.val = r.count.val := h (by omega)
  rw [hhead, hr, Nat.mod_eq_of_lt (by omega)]
  omega

/-- On such a ring, scanning the first `count` slots of the array finds exactly the
    live entries. -/
theorem Filling.mem_take_iff {r : RingBuffer α cap} (h : r.Filling) {x : α} :
    x ∈ r.slots.toList.take r.count ↔ x ∈ r.contents := by
  by_cases hlt : r.count.val < cap
  · have hle : r.count.val ≤ r.slots.toList.length := by simp; omega
    have hdrop : cap - r.count = (r.slots.toList.drop r.count).length := by simp
    rw [contents, rotated, h hlt, List.rotate_eq_drop_append_take hle]
    simp only [List.rtake, List.length_append, List.length_drop, List.length_take,
      Vector.length_toList]
    rw [show cap - r.count + min (r.count : Nat) cap - r.count = cap - r.count by omega, hdrop,
      List.drop_left]
  · have hfull : (r.count : Nat) = cap := by have := r.count.is_le; omega
    have htake : r.slots.toList.take cap = r.slots.toList := List.take_of_length_le (by simp)
    simp [contents, rotated, hfull, List.rtake, htake]

end RingBuffer

/-! ## Windows of a history -/

namespace History

variable {α : Type*}

/-- The window of a longer history only depends on the window before. -/
theorem rtake_append_singleton (l : List α) (n : Nat) (x : α) :
    (l.rtake n ++ [x]).rtake n = (l ++ [x]).rtake n := by
  by_cases h : l.length ≤ n
  · simp [List.rtake, Nat.sub_eq_zero_of_le h]
  · simp only [List.rtake, List.length_append, List.length_drop, List.length_singleton]
    cases n with
    | zero => simp
    | succ n =>
      rw [List.drop_append_of_le_length (by simp), List.drop_drop,
        List.drop_append_of_le_length (by omega)]
      congr 2
      omega

/-- No entry of the history repeats one of the `n` entries before it. -/
def Spaced (n : Nat) (l : List α) : Prop :=
  ∀ pre x post, l = pre ++ x :: post → x ∉ pre.rtake n

theorem spaced_nil (n : Nat) : Spaced n ([] : List α) := by
  intro pre x post h
  simp at h

theorem Spaced.snoc {n : Nat} {l : List α} {x : α} (h : Spaced n l) (hx : x ∉ l.rtake n) :
    Spaced n (l ++ [x]) := by
  intro pre y post heq
  rcases List.eq_nil_or_concat post with rfl | ⟨post, z, rfl⟩
  · obtain ⟨rfl, hy⟩ := List.append_inj' heq rfl
    obtain rfl : x = y := by simpa using hy
    exact hx
  · rw [List.concat_eq_append, ← List.cons_append, ← List.append_assoc] at heq
    exact h pre y post (List.append_inj' heq rfl).1

theorem Spaced.of_append {n : Nat} {l l' : List α} (h : Spaced n (l ++ l')) : Spaced n l := by
  intro pre x post heq
  exact h pre x (post ++ l') (by simp [heq])

/-- The entries of the window are pairwise distinct. -/
theorem Spaced.nodup_rtake {n : Nat} {l : List α} (h : Spaced n l) : (l.rtake n).Nodup := by
  induction l using List.reverseRecOn with
  | nil => simp
  | append_singleton l x ih =>
    rw [← rtake_append_singleton]
    have hx : x ∉ l.rtake n := h l x [] rfl
    have hnodup : (l.rtake n ++ [x]).Nodup :=
      List.nodup_append.mpr ⟨ih h.of_append, List.nodup_singleton x, by
        rintro a ha b hb rfl
        exact hx (List.mem_singleton.mp hb ▸ ha)⟩
    exact hnodup.sublist (List.drop_sublist _ _)

/-- Between two occurrences of an entry there are at least `n` other entries. -/
theorem Spaced.between [DecidableEq α] {n : Nat} {a b c : List α} {x : α}
    (h : Spaced n (a ++ x :: (b ++ x :: c))) : n ≤ (b.filter (· ≠ x)).length := by
  -- The stretch up to the first repetition of `x` already has `n` entries, none of them `x`.
  obtain ⟨b₁, b₂, c', hb, hx, hsplit⟩ : ∃ b₁ b₂ c',
      b = b₁ ++ b₂ ∧ x ∉ b₁ ∧ b ++ x :: c = b₁ ++ x :: c' := by
    by_cases hmem : x ∈ b
    · obtain ⟨b₁, b₂, rfl, hx⟩ := List.eq_append_cons_of_mem hmem
      exact ⟨b₁, x :: b₂, b₂ ++ x :: c, rfl, hx, by simp⟩
    · exact ⟨b, [], c, by simp, hmem, rfl⟩
  have hlen : n ≤ b₁.length := by
    by_contra hlt
    apply h (a ++ x :: b₁) x c' (by simp [hsplit])
    have hdrop : (a ++ x :: b₁).length - n ≤ a.length := by simp; omega
    rw [List.rtake, List.drop_append_of_le_length hdrop]
    simp
  have hfilter : b₁.filter (· ≠ x) = b₁ := by
    refine List.filter_eq_self.mpr fun y hy => ?_
    have : y ≠ x := fun heq => hx (heq ▸ hy)
    simpa using this
  calc n ≤ b₁.length := hlen
    _ = (b₁.filter (· ≠ x)).length := by rw [hfilter]
    _ ≤ (b.filter (· ≠ x)).length := by rw [hb, List.filter_append, List.length_append]; omega

end History
