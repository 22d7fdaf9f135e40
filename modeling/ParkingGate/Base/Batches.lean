-- SUMMARY: Sending a queue in batches until it is empty or an attempt fails: what was sent, what is left, and how the two make up the queue.
import Mathlib.Data.List.Basic

/-!
# Batches of a queue

A queue is sent from its front, a bounded number of elements at a time. A batch that
is sent leaves the queue; the first one that is not ends the sending.
-/

namespace Batches

variable {α β : Type*}

/-- A batch that was tried, and whether it was sent. -/
structure Attempt (α : Type*) where
  batch : List α
  sent : Bool

def Attempt.map (f : α → β) (a : Attempt α) : Attempt β := ⟨a.batch.map f, a.sent⟩

/-- The batches that were sent, in order. -/
def sent (as : List (Attempt α)) : List (List α) := (as.filter (·.sent)).map (·.batch)

/-- `Sends size q as rest`: the queue `q` is sent by the attempts `as` and `rest` is left. -/
inductive Sends (size : Nat) : List α → List (Attempt α) → List α → Prop where
  | done : Sends size [] [] []
  | failed {q : List α} (hq : q ≠ []) : Sends size q [⟨q.take size, false⟩] q
  | sent {q rest : List α} {as : List (Attempt α)} (hq : q ≠ [])
      (hrest : Sends size (q.drop size) as rest) :
      Sends size q (⟨q.take size, true⟩ :: as) rest

@[simp] theorem sent_cons_sent (b : List α) (as : List (Attempt α)) :
    sent (⟨b, true⟩ :: as) = b :: sent as := rfl

theorem sent_map (f : α → β) (as : List (Attempt α)) :
    sent (as.map (Attempt.map f)) = (sent as).map (List.map f) := by
  induction as with
  | nil => rfl
  | cons a as ih =>
    obtain ⟨b, ok⟩ := a
    cases ok with
    | true => exact congrArg (b.map f :: ·) ih
    | false => exact ih

namespace Sends

variable {size : Nat} {q rest : List α} {as : List (Attempt α)}

theorem map (f : α → β) (h : Sends size q as rest) :
    Sends size (q.map f) (as.map (Attempt.map f)) (rest.map f) := by
  induction h with
  | done => exact .done
  | failed hq =>
    have hne : List.map f _ ≠ [] := mt List.map_eq_nil_iff.mp hq
    simpa [Attempt.map, List.map_take] using @failed _ size _ hne
  | sent hq _ ih =>
    have hne : List.map f _ ≠ [] := mt List.map_eq_nil_iff.mp hq
    rw [List.map_drop] at ih
    simpa [Attempt.map, List.map_take] using Sends.sent hne ih

/-- What was sent and what is left make up the queue. -/
theorem sent_append_rest (h : Sends size q as rest) : (Batches.sent as).flatten ++ rest = q := by
  induction h with
  | done => rfl
  | failed hq => rfl
  | sent hq _ ih =>
    rw [sent_cons_sent, List.flatten_cons, List.append_assoc, ih]
    exact List.take_append_drop _ _

theorem rest_eq_drop (h : Sends size q as rest) :
    rest = q.drop (Batches.sent as).flatten.length := by
  rw [← h.sent_append_rest]
  exact List.drop_left.symm

/-- Either everything was sent, or one more batch was tried, the front of what is left. -/
theorem stops (h : Sends size q as rest) :
    as.map (·.batch) = Batches.sent as ∧ rest = [] ∨
      as.map (·.batch) = Batches.sent as ++ [rest.take size] ∧ rest ≠ [] := by
  induction h with
  | done => exact .inl ⟨rfl, rfl⟩
  | failed hq => exact .inr ⟨rfl, hq⟩
  | sent hq _ ih =>
    apply ih.imp
    · rintro ⟨has, hrest⟩
      exact ⟨congrArg (List.take size _ :: ·) has, hrest⟩
    · rintro ⟨has, hrest⟩
      exact ⟨congrArg (List.take size _ :: ·) has, hrest⟩

/-- The batches are consecutive pieces of the queue, from its front on. -/
theorem batches_prefix (h : Sends size q as rest) : (as.map (·.batch)).flatten <+: q := by
  rcases h.stops with ⟨has, hrest⟩ | ⟨has, hrest⟩
  · exact ⟨rest, by rw [has, h.sent_append_rest]⟩
  · refine ⟨rest.drop size, ?_⟩
    rw [has, List.flatten_append, List.append_assoc, List.flatten_singleton,
      List.take_append_drop, h.sent_append_rest]

/-- A batch that was tried is a piece of the queue. -/
theorem batch_eq (h : Sends size q as rest) {b : List α} (hb : b ∈ as.map (·.batch)) :
    ∃ k, b = (q.drop k).take size := by
  induction h with
  | done => exact absurd hb List.not_mem_nil
  | failed hq =>
    obtain rfl := List.mem_singleton.mp hb
    exact ⟨0, rfl⟩
  | sent hq _ ih =>
    rcases List.mem_cons.mp hb with rfl | hb
    · exact ⟨0, rfl⟩
    · obtain ⟨k, hk⟩ := ih hb
      exact ⟨size + k, by rw [hk, List.drop_drop]⟩

theorem length_batch (hsize : 0 < size) (h : Sends size q as rest) {b : List α}
    (hb : b ∈ as.map (·.batch)) : 0 < b.length ∧ b.length ≤ size := by
  have htake : ∀ {q : List α}, q ≠ [] → 0 < (q.take size).length ∧ (q.take size).length ≤ size := by
    intro q hq
    have hpos := List.length_pos_of_ne_nil hq
    rw [List.length_take]
    omega
  induction h with
  | done => exact absurd hb List.not_mem_nil
  | failed hq =>
    obtain rfl := List.mem_singleton.mp hb
    exact htake hq
  | sent hq _ ih =>
    rcases List.mem_cons.mp hb with rfl | hb
    · exact htake hq
    · exact ih hb

end Sends

end Batches
