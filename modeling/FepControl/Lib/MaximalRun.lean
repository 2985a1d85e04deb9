/-
  Maximal runs of one element in a list.

  `MaximalRun a l pre k rest` says that `l` holds `k` times `a` behind `pre`, and that the run
  cannot be extended on either side: `pre` does not end with `a`, and `rest` does not begin with it.
  Every run of `a` lies in exactly one such run, and its length is what matters where a character
  has an effect on the next one by how often it stands in front of it, as a backslash has.

  A reader that goes from the left does not know where a run ends.  But it knows how many `a` there
  are at the end of what it has read: behind a maximal run that is the length of the run
  (`trailing`), which is how such a reader can count it.
-/

namespace Lib

variable {α : Type}

/-- `l` is `pre`, a run of `k` times `a`, and `rest`, and neither side goes on with `a`. -/
structure MaximalRun (a : α) (l pre : List α) (k : Nat) (rest : List α) : Prop where
  split : l = pre ++ (List.replicate k a ++ rest)
  before : pre.getLast? ≠ some a
  behind : rest.head? ≠ some a

namespace MaximalRun

variable [BEq α] [LawfulBEq α] {a : α} {l pre rest : List α} {k : Nat}

/-- The length of the run, counted from its end. -/
theorem trailing (h : MaximalRun a l pre k rest) :
    ((pre ++ List.replicate k a).reverse.takeWhile (· == a)).length = k := by
  have hpre : pre.reverse.takeWhile (· == a) = [] := by
    have hbefore := h.before
    rw [← List.head?_reverse] at hbefore
    cases hreverse : pre.reverse with
    | nil => rfl
    | cons b bs =>
      rw [hreverse] at hbefore
      have hb : (b == a) = false := beq_eq_false_iff_ne.mpr fun heq => hbefore (congrArg some heq)
      rw [List.takeWhile_cons, hb]
      rfl
  have hrun : ∀ b ∈ List.replicate k a, (b == a) = true := by
    intro b hb
    rw [List.eq_of_mem_replicate hb]
    exact beq_self_eq_true a
  rw [List.reverse_append, List.reverse_replicate, List.takeWhile_append_of_pos hrun, hpre,
    List.append_nil, List.length_replicate]

end MaximalRun

end Lib
