/-
  Reading one quoted name back.

  `Quoting` follows a whole command line through the scanner, which does not give every name back.
  That is a fault of the scanner and not of the spelling.  Here a name is read back without the
  scanner, as its inverse would do it: the added quotes are taken off and the rest goes through
  `unEscape`.  So the spelling says which name it is, whatever the name.

  1. **Quotes** -- a spelling starts with a double quote only if quotes are added around it, so a
     reader can tell (`head?_quoteNameIfNecessary`), and what is between them is the escaped name.
     A name that starts with a double quote itself is spelled with a backslash in front.

  2. **Backslashes** -- in an escaped name a run of backslashes has an odd length exactly in front
     of a double quote (`escape_run`).  The induction goes along the name, where an escape and its
     character are one step: behind both of them nothing is escaped.

  3. **When quotes are added** -- around the empty name, and around a name with whitespace
     (`needQuotes_iff`).

  4. **quoteNameIfNecessary_reversible** -- so every name comes back, and no two names have one
     spelling.
-/
import FepControl.Lib.MaximalRun
import FepControl.Escapes

namespace FepControl

open Lib

/-! ## Runs of backslashes -/

/-- Behind a part that escapes nothing a reader starts afresh. -/
theorem escaped_append_iff {start : List Char} (hstart : ¬ Escaped start) (pre : List Char) :
    Escaped (start ++ pre) ↔ Escaped pre := by
  induction pre using forall_prefix with
  | hnil =>
    rw [List.append_nil]
    exact iff_of_false hstart (by decide)
  | happend pre c ih => rw [← List.append_assoc, escaped_append, escaped_append, ih]

/-- Where a run of backslashes of an escaped name ends, a double quote is escaped, and nothing else
    is. -/
theorem escaped_in_escape : ∀ {n pre rest : List Char}, escape n = pre ++ rest →
    rest.head? ≠ some '\\' → (Escaped pre ↔ rest.head? = some '"') := by
  intro n
  induction n with
  | nil =>
    intro pre rest hsplit _
    obtain ⟨rfl, rfl⟩ := List.append_eq_nil_iff.mp hsplit.symm
    exact iff_of_false (by decide) nofun
  | cons c n ih =>
    intro pre rest hsplit hrest
    cases pre with
    | nil =>
      -- no escaped name starts with a double quote
      have hhead := head?_escape_ne (c :: n)
      rw [hsplit, List.nil_append] at hhead
      exact iff_of_false (by decide) hhead
    | cons d pre =>
      by_cases hneeds : needsBackslash c = true
      · rw [escape_cons_of_needs hneeds, List.cons_append] at hsplit
        obtain ⟨rfl, htail⟩ := List.cons.inj hsplit
        cases pre with
        | nil =>
          -- the character that the backslash is for: no other backslash, so a quote
          obtain rfl : c :: escape n = rest := htail
          have hquote : c = '"' := by
            have hor : c = '"' ∨ c = '\\' := by simpa [needsBackslash] using hneeds
            exact hor.resolve_right fun h => hrest (congrArg some h)
          exact iff_of_true (by decide) (congrArg some hquote)
        | cons e pre =>
          obtain ⟨rfl, hbehind⟩ := List.cons.inj htail
          have hpair : ¬ Escaped ['\\', c] := fun h =>
            ((escaped_append ['\\'] c).mp h).1 (by decide)
          exact (escaped_append_iff hpair pre).trans (ih hbehind hrest)
      · have hplain : needsBackslash c = false := Bool.eq_false_iff.mpr hneeds
        rw [escape_cons_of_not hplain, List.cons_append] at hsplit
        obtain ⟨rfl, htail⟩ := List.cons.inj hsplit
        have hsingle : ¬ Escaped [c] := by
          intro h
          obtain ⟨-, rfl⟩ := (escaped_append [] c).mp h
          exact hneeds (by decide)
        exact (escaped_append_iff hsingle pre).trans (ih htail hrest)

/-- **The runs of backslashes of an escaped name** are even, but for those in front of a double
    quote; and no double quote is without one. -/
theorem escape_run {n pre rest : List Char} {k : Nat}
    (h : MaximalRun '\\' (escape n) pre k rest) : k % 2 = 1 ↔ rest.head? = some '"' := by
  have hcount : backslashes (pre ++ List.replicate k '\\') = k := h.trailing
  have hescaped : Escaped (pre ++ List.replicate k '\\') ↔ k % 2 = 1 := by
    unfold Escaped
    rw [hcount]
  have hsplit : escape n = (pre ++ List.replicate k '\\') ++ rest := by
    rw [h.split, List.append_assoc]
  exact hescaped.symm.trans (escaped_in_escape hsplit h.behind)

/-! ## One name -/

/-- What is asked of the spelling of a name. -/
structure Reversible (name : String) : Prop where
  /-- It starts with a double quote exactly if the name is empty or has whitespace, -/
  opens : (quoteNameIfNecessary name).toList.head? = some '"' ↔
    name = "" ∨ ∃ c ∈ name.toList, isspace c = true
  /-- and then it ends with another one. -/
  closes : (quoteNameIfNecessary name).toList.head? = some '"' →
    (quoteNameIfNecessary name).toList =
      '"' :: (withoutQuotes (quoteNameIfNecessary name).toList ++ ['"'])
  /-- Without these two it is unescaped to the name. -/
  unquoted : unquote (quoteNameIfNecessary name) = name
  /-- Its runs of backslashes are odd in front of a double quote only, which is escaped then. -/
  runs : ∀ pre k rest,
    MaximalRun '\\' (withoutQuotes (quoteNameIfNecessary name).toList) pre k rest →
      (k % 2 = 1 ↔ rest.head? = some '"')

/-- Quotes are added around the empty name and around a name with whitespace. -/
theorem needQuotes_iff (name : String) :
    needQuotes name.toList = true ↔ name = "" ∨ ∃ c ∈ name.toList, isspace c = true := by
  unfold needQuotes
  rw [Bool.or_eq_true, List.isEmpty_iff, List.any_eq_true, String.toList_eq_nil_iff]

/-- **Every name can be read back from its spelling**, and different names are spelled
    differently. -/
theorem quoteNameIfNecessary_reversible :
    (∀ name, Reversible name) ∧ Function.Injective quoteNameIfNecessary := by
  refine ⟨fun name => ?_, quoteNameIfNecessary_injective⟩
  constructor
  · rw [head?_quoteNameIfNecessary, needQuotes_iff]
  · intro hopens
    have hq := (head?_quoteNameIfNecessary name).mp hopens
    rw [withoutQuotes_quoteNameIfNecessary, toList_quoteNameIfNecessary, if_pos hq]
  · exact unquote_quoteNameIfNecessary name
  · intro pre k rest hrun
    rw [withoutQuotes_quoteNameIfNecessary] at hrun
    exact escape_run hrun

end FepControl
