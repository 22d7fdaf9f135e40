-- SUMMARY: Waiting for a prompt in a stream that is read element by element and arrives in pieces: the verdict does not depend on how the stream is cut.
import Mathlib.Data.List.Basic

/-!
# Waiting for a prompt

A reader keeps what it has read so far and judges it after every element, until a verdict is
reached. The elements come in pieces, one piece for each look at the source; the pieces that come
before the reader gives up are what it gets to see.
-/

namespace Prompt

variable {α β : Type} (judge : List α → Option β)

/-- Read a piece: the verdict, or all that has been read so far. -/
def read : List α → List α → β ⊕ List α
  | seen, []        => .inr seen
  | seen, a :: rest =>
    match judge (seen ++ [a]) with
    | some verdict => .inl verdict
    | none         => read (seen ++ [a]) rest

/-- Read piece after piece; `none` if the pieces end without a verdict. -/
def await : List α → List (List α) → Option β
  | _, []                => none
  | seen, piece :: pieces =>
    match read judge seen piece with
    | .inl verdict => some verdict
    | .inr seen    => await seen pieces

theorem read_append (seen piece rest : List α) :
    read judge seen (piece ++ rest) =
      match read judge seen piece with
      | .inl verdict => .inl verdict
      | .inr seen    => read judge seen rest := by
  induction piece generalizing seen with
  | nil => rfl
  | cons a piece ih =>
    simp only [List.cons_append, read]
    cases judge (seen ++ [a]) with
    | some verdict => rfl
    | none => exact ih (seen ++ [a])

/-- The cuts between the pieces do not matter. -/
theorem await_eq_read_flatten (seen : List α) (pieces : List (List α)) :
    await judge seen pieces = (read judge seen pieces.flatten).getLeft? := by
  induction pieces generalizing seen with
  | nil => rfl
  | cons piece pieces ih =>
    rw [List.flatten_cons, read_append, await]
    cases read judge seen piece with
    | inl verdict => rfl
    | inr seen => exact ih seen

/-- The verdict is that of the first prefix that has one. -/
theorem read_eq_inl_iff {seen stream : List α} {verdict : β} :
    read judge seen stream = .inl verdict ↔
      ∃ n < stream.length, judge (seen ++ stream.take (n + 1)) = some verdict ∧
        ∀ m < n, judge (seen ++ stream.take (m + 1)) = none := by
  induction stream generalizing seen with
  | nil => simp [read]
  | cons a rest ih =>
    rw [read]
    cases hjudge : judge (seen ++ [a]) with
    | some verdict' =>
      constructor
      · intro h
        exact ⟨0, Nat.succ_pos _, by simpa [hjudge] using h, fun m hm => absurd hm (Nat.not_lt_zero m)⟩
      · rintro ⟨n, -, hverdict, hbefore⟩
        cases n with
        | zero => simpa [hjudge] using hverdict
        | succ n =>
          have hzero := hbefore 0 (Nat.succ_pos n)
          simp [hjudge] at hzero
    | none =>
      dsimp only
      rw [ih]
      constructor
      · rintro ⟨n, hn, hverdict, hbefore⟩
        refine ⟨n + 1, Nat.succ_lt_succ hn, by simpa using hverdict, fun m hm => ?_⟩
        cases m with
        | zero => simpa using hjudge
        | succ m => simpa using hbefore m (Nat.lt_of_succ_lt_succ hm)
      · rintro ⟨n, hn, hverdict, hbefore⟩
        cases n with
        | zero => simp [hjudge] at hverdict
        | succ n =>
          refine ⟨n, Nat.lt_of_succ_lt_succ hn, by simpa using hverdict, fun m hm => ?_⟩
          simpa using hbefore (m + 1) (Nat.succ_lt_succ hm)

end Prompt
