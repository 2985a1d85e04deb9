/-
  Two threads that write to one sink: the ways in which their writes can come in between each other.

  A write is atomic, and each thread makes its writes in order; a scheduler decides between any two
  writes which of the threads comes next.  `Interleave as bs cs` says that the sink can get `cs`
  from a thread that writes `as` and one that writes `bs`.  A property of the sink that is to hold
  under every schedule is a property of all such `cs`.

  1. **Interleave** -- the relation, by the thread that writes first.

  2. **alone** -- a thread that has the sink for itself leaves its writes, and nothing else
     (`eq_of_alone`).

  3. **length** -- no write is lost, and none is made twice.
-/

namespace Lib

variable {α : Type}

/-- `cs` is an interleaving of `as` and `bs`. -/
inductive Interleave : List α → List α → List α → Prop where
  | nil : Interleave [] [] []
  | left {a : α} {as bs cs : List α} (h : Interleave as bs cs) : Interleave (a :: as) bs (a :: cs)
  | right {b : α} {as bs cs : List α} (h : Interleave as bs cs) : Interleave as (b :: bs) (b :: cs)

namespace Interleave

/-- One thread alone. -/
theorem alone (as : List α) : Interleave as [] as := by
  induction as with
  | nil => exact .nil
  | cons a as ih => exact ih.left

/-- Where nobody else writes, the sink gets the writes in their order. -/
theorem eq_of_alone {as cs : List α} (h : Interleave as [] cs) : cs = as := by
  induction as generalizing cs with
  | nil => cases h; rfl
  | cons a as ih =>
    cases h with
    | left h => rw [ih h]

/-- No write is lost and none is added. -/
theorem length {as bs cs : List α} (h : Interleave as bs cs) :
    cs.length = as.length + bs.length := by
  induction h with
  | nil => rfl
  | left _ ih => simp only [List.length_cons]; omega
  | right _ ih => simp only [List.length_cons]; omega

end Interleave

end Lib
