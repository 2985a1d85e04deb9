/-
  A log of bounded length that leaves out repetitions, as a shell keeps its command lines.

  What is in such a log after many additions is a question about two lists at once.  Which entries
  are added depends on the last entry of the log; which are still there depends on the room.  The
  two do not disturb each other: with room for one entry at least, the last entry of the log is the
  last one that was added, however much was dropped in front of it.  So the log can be computed from
  the whole sequence, in closed form, as what remains when the repetitions are struck out and all
  but the last few entries cut off.

  1. **The last entries** -- `List.rtake`, and what is left of them when another entry is added
     (`make_room`).

  2. **push** -- what is like the last entry is not added; in a full log the oldest entry makes
     room.

  3. **Repetitions** -- `unrepeated` is `List.destutter` for inequality.  It is the recursion from
     the left that Mathlib has; a log grows on the right, so the lemma that is needed is the one for
     a list with an entry behind it (`unrepeated_concat`).

  4. **The log** -- of a sequence it keeps the last entries, as many as there is room for, of those
     that differ from the one before (`foldl_push`).  The induction is on the sequence from its end.
-/
import Mathlib.Data.List.Destutter
import Mathlib.Data.List.DropRight

namespace Lib

namespace BoundedLog

variable {α : Type}

/-! ## The last entries -/

/-- The last entry is among the last ones, if there are any. -/
theorem getLast?_rtake {xs : List α} {n : Nat} (hn : 0 < n) :
    (xs.rtake n).getLast? = xs.getLast? := by
  rcases List.eq_nil_or_concat xs with rfl | ⟨ys, y, rfl⟩
  · rw [List.rtake_nil]
  · obtain ⟨n, rfl⟩ := Nat.exists_eq_succ_of_ne_zero (Nat.pos_iff_ne_zero.mp hn)
    rw [List.concat_eq_append, List.rtake_concat_succ, List.getLast?_concat, List.getLast?_concat]

theorem length_rtake (xs : List α) (n : Nat) : (xs.rtake n).length = min n xs.length := by
  rw [List.rtake, List.length_drop]
  omega

/-- A full log makes room for one entry. -/
theorem make_room (xs : List α) (n : Nat) :
    (if (xs.rtake (n + 1)).length = n + 1 then (xs.rtake (n + 1)).drop 1 else xs.rtake (n + 1)) =
      xs.rtake n := by
  rw [length_rtake]
  split
  · rw [List.rtake, List.rtake, List.drop_drop]
    congr 1
    omega
  · rw [List.rtake, List.rtake]
    congr 1
    omega

/-! ## Repetitions -/

variable [DecidableEq α]

/-- An entry is added to a log with room for `room`, unless it repeats the last one. -/
def push (room : Nat) (log : List α) (a : α) : List α :=
  if log.getLast? = some a then log
  else (if log.length = room then log.drop 1 else log) ++ [a]

/-- A sequence without its repetitions. -/
def unrepeated (xs : List α) : List α := xs.destutter (· ≠ ·)

theorem getLast?_destutter' : ∀ (xs : List α) (a : α),
    (xs.destutter' (· ≠ ·) a).getLast? = (a :: xs).getLast?
  | [], a => rfl
  | x :: xs, a => by
      by_cases hx : a = x
      · subst hx
        rw [List.destutter'_cons_neg _ (not_not.mpr rfl), getLast?_destutter' xs a,
          List.getLast?_cons_cons]
      · obtain ⟨y, ys, hys⟩ :=
          List.exists_cons_of_ne_nil (List.destutter'_ne_nil (R := (· ≠ ·)) xs (a := x))
        have hlast := getLast?_destutter' xs x
        rw [List.destutter'_cons_pos _ hx, hys, List.getLast?_cons_cons, ← hys, hlast,
          List.getLast?_cons_cons]

/-- The last entry stays. -/
theorem getLast?_unrepeated (xs : List α) : (unrepeated xs).getLast? = xs.getLast? := by
  cases xs with
  | nil => rfl
  | cons a xs => exact getLast?_destutter' xs a

/-- An entry behind the others is struck out exactly if it repeats the last of them. -/
theorem destutter'_concat : ∀ (xs : List α) (a b : α), (xs ++ [b]).destutter' (· ≠ ·) a =
    if (a :: xs).getLast? = some b then xs.destutter' (· ≠ ·) a
    else xs.destutter' (· ≠ ·) a ++ [b]
  | [], a, b => by
      rw [List.nil_append, List.destutter'_singleton, List.destutter'_nil, List.getLast?_singleton]
      by_cases hab : a = b
      · rw [if_neg (not_not.mpr hab), if_pos (congrArg some hab)]
      · rw [if_pos hab, if_neg fun h => hab (Option.some.inj h)]
        rfl
  | x :: xs, a, b => by
      rw [List.cons_append, List.getLast?_cons_cons]
      by_cases hx : a = x
      · subst hx
        rw [List.destutter'_cons_neg _ (not_not.mpr rfl),
          List.destutter'_cons_neg _ (not_not.mpr rfl),
          destutter'_concat xs a b]
      · rw [List.destutter'_cons_pos _ hx, List.destutter'_cons_pos _ hx, destutter'_concat xs x b]
        split <;> rfl

/-- Another entry, unless it repeats the last one. -/
theorem unrepeated_concat (xs : List α) (a : α) : unrepeated (xs ++ [a]) =
    if xs.getLast? = some a then unrepeated xs else unrepeated xs ++ [a] := by
  cases xs with
  | nil => rfl
  | cons x xs => exact destutter'_concat xs x a

/-- **The log of a sequence**: its last entries without the repetitions. -/
theorem foldl_push {room : Nat} (hroom : 0 < room) (xs : List α) :
    xs.foldl (push room) [] = (unrepeated xs).rtake room := by
  obtain ⟨n, rfl⟩ := Nat.exists_eq_succ_of_ne_zero (Nat.pos_iff_ne_zero.mp hroom)
  induction xs using List.reverseRecOn with
  | nil => exact (List.rtake_nil _).symm
  | append_singleton xs a ih =>
    rw [List.foldl_append, ih, List.foldl_cons, List.foldl_nil, push, getLast?_rtake hroom,
      getLast?_unrepeated, unrepeated_concat]
    split
    · rfl
    · rw [make_room, List.rtake_concat_succ]

end BoundedLog

end Lib
