/-
  What the editing keys do to the line, and that the branches of `linenoiseEdit` do it.

  The `switch` of the source has a branch for each key, and a branch is a few calls of the functions
  in `Buffer` with positions that it works out itself.  A draft knows no positions: its text is a
  zipper, cut in two at the cursor, and a key takes from one half, adds to it, or moves a character
  over.

  1. **Draft** -- the line as its user sees it: the text with the cursor, and what was cut last.
     `Draft.press` says what a key does to it, in terms of the text only.

  2. **Shows, Turns** -- a line buffer that is that of a draft, and a step that turns it into
     another one, with nothing read on the way.

  3. **The simulation of a key** -- a branch of the `switch` that edits stays inside its arrays and
     turns the line into the draft after the key, one lemma for each branch.  The lemma for all of
     them is put together from these (`processLabel_edits`).

  4. **Transposing** -- the branch of `ctrl-t` removes one of the two characters and inserts it
     again, and the insertion may find no room: then the character is gone (`transpose_takes`,
     `transpose_puts`).
-/
import FepControl.Linenoise.Editor

namespace FepControl

namespace Linenoise

open Lib

/-! ## Drafts -/

/-- The text with its cursor, and the cut buffer. -/
structure Draft where
  zipper : Zipper UInt8
  /-- what `ctrl-w`, `ctrl-u` or `ctrl-k` took away last -/
  cut : Option (List UInt8)
  deriving DecidableEq, Repr

namespace Draft

/-- The last `n` characters before the cursor are cut; cutting nothing keeps what was cut before. -/
def cutBefore (n : Nat) (d : Draft) : Draft :=
  let removed := d.zipper.before.drop (d.zipper.before.length - n)
  ⟨d.zipper.removeBefore n, if removed = [] then d.cut else some removed⟩

/-- The same for the first `n` behind it. -/
def cutAfter (n : Nat) (d : Draft) : Draft :=
  let removed := d.zipper.after.take n
  ⟨d.zipper.removeAfter n, if removed = [] then d.cut else some removed⟩

/-- A string is inserted as far as there is room. -/
def insertAll (bufmax : Int) (s : List UInt8) (d : Draft) : Draft :=
  { d with zipper := d.zipper.insertAll (s.take (freeRoom bufmax d.zipper)) }

/-- What was cut last is inserted, up to a NUL. -/
def yank (bufmax : Int) (d : Draft) : Draft :=
  match d.cut with
  | some s => d.insertAll bufmax (s.takeWhile (· ≠ 0))
  | none => d

/-- Where the two characters are that change places: on the two sides of the cursor, or before it
    if it is behind the text. -/
def transposed (d : Draft) : Zipper UInt8 :=
  if d.zipper.after = [] then d.zipper.left else d.zipper

/-- Two characters change places; the second one is lost where it finds no place. -/
def transpose (bufmax : Int) (d : Draft) : Draft :=
  if d.zipper.before = [] then d
  else { d with zipper :=
    if d.transposed.before ≠ [] ∧ d.transposed.text.length + 1 < bufmax then d.transposed.transpose
    else d.transposed.removeAfter 1 }

/-- What a key does that edits. -/
def press (bufmax : Int) (c : Key) (d : Draft) : Label → Draft
  | .backspace => { d with zipper := d.zipper.removeBefore 1 }
  | .ctrlD => { d with zipper := d.zipper.removeAfter 1 }
  | .delete => { d with zipper := d.zipper.removeAfter 1 }
  | .ctrlW => d.cutBefore (d.zipper.wordBefore (· == byte ' '))
  | .ctrlT => d.transpose bufmax
  | .left => { d with zipper := d.zipper.left }
  | .right => { d with zipper := d.zipper.right }
  | .home => { d with zipper := d.zipper.home }
  | .lineEnd => { d with zipper := .atEnd d.zipper.text }
  | .ctrlU => d.cutBefore d.zipper.before.length
  | .ctrlK => d.cutAfter d.zipper.after.length
  | .ctrlY => d.yank bufmax
  | .other =>
    match c with
    | .char ch => if ch = byte '\t' ∨ byte ' ' ≤ ch then d.insertAll bufmax [ch] else d
    | _ => d
  | _ => d

end Draft

/-- The keys that change nothing but the line, and read nothing further; `ctrl-l` does, where the
    width of the window is not reported. -/
def Label.edits : Label → Bool
  | .enter | .ctrlC | .ctrlR | .ctrlV | .pageUp | .pageDown | .up | .down => false
  | _ => true

/-! ## The simulation of a key -/

/-- The line buffer and the cut buffer are those of a draft. -/
structure Current.Shows (current : Current) (d : Draft) : Prop where
  holds : current.Holds d.zipper
  capture : current.capture = d.cut.map (· ++ [0])

/-- The line was turned into a draft; nothing was read for that. -/
def Current.Turns (current : Current) (d : Draft) (current' : Current) : Prop :=
  current.Becomes d.zipper (d.cut.map (· ++ [0])) current'

section Branches

variable {c : Current} {d : Draft}

/-- The buffer after the step is that of the draft. -/
theorem Current.Turns.shows {c' : Current} (h : c.Turns d c') : c'.Shows d := ⟨h.holds, h.capture⟩

/-- A step that does nothing. -/
theorem Current.Shows.turns (h : c.Shows d) : c.Turns d c :=
  ⟨h.holds, h.capture, rfl, rfl, rfl, rfl⟩

/-- An edit of the text alone. -/
theorem Current.Shows.turns_of {c' : Current} {z : Zipper UInt8} (h : c.Shows d)
    (hc : c.Becomes z c.capture c') : c.Turns { d with zipper := z } c' := by
  rw [Current.Turns, ← h.capture]
  exact hc

/-- To show the line again changes nothing about it. -/
theorem refreshLine_turns {c' : Current} (h : c.Turns d c') (prompt : List UInt8) :
    ∃ c'', refreshLine prompt c' = .ok c'' ∧ c.Turns d c'' := by
  obtain ⟨c'', hrefresh, hc''⟩ := refreshLine_becomes h.holds prompt
  rw [h.capture] at hc''
  exact ⟨c'', hrefresh, h.trans hc''⟩

/-- Showing the line again if an edit has returned 1. -/
theorem refreshIfOne_turns {c' : Current} {ret : Int} {edit : Checked (Int × Current)}
    (hedit : edit = .ok (ret, c')) (h : c.Turns d c') :
    ∃ c'', refreshIfOne edit = .ok c'' ∧ c.Turns d c'' := by
  rw [refreshIfOne, hedit, ok_bind]
  by_cases hret : ret = 1
  · simp only [if_pos hret]
    exact refreshLine_turns h _
  · simp only [if_neg hret]
    exact ⟨c', rfl, h⟩

/-- Showing the line again if an edit has returned anything but 0. -/
theorem refreshIfAny_turns {c' : Current} {ret : Int} {edit : Checked (Int × Current)}
    (hedit : edit = .ok (ret, c')) (h : c.Turns d c') :
    ∃ c'', refreshIfAny edit = .ok c'' ∧ c.Turns d c'' := by
  rw [refreshIfAny, hedit, ok_bind]
  by_cases hret : ret ≠ 0
  · simp only [if_pos hret]
    exact refreshLine_turns h _
  · simp only [if_neg hret]
    exact ⟨c', rfl, h⟩

/-- Backspace. -/
theorem backspace_turns (h : c.Shows d) :
    ∃ c', refreshIfOne (remove_char c (c.pos - 1)) = .ok c' ∧
      c.Turns { d with zipper := d.zipper.removeBefore 1 } c' := by
  rcases List.eq_nil_or_concat d.zipper.before with hnil | ⟨xs, x, hbefore⟩
  · have hpos : c.pos - 1 < 0 := by rw [h.holds.pos, hnil]; decide
    have hnone := remove_char_none h.holds (.inl hpos)
    have hsame : d.zipper.removeBefore 1 = d.zipper := by
      rw [Zipper.removeBefore, hnil, List.take_nil, ← hnil]
    rw [hsame]
    exact refreshIfOne_turns hnone h.turns
  · rw [List.concat_eq_append] at hbefore
    have hpos : c.pos - 1 = xs.length := by
      rw [h.holds.pos, hbefore, List.length_append, List.length_singleton]; omega
    obtain ⟨ret, c', hremove, -, hc'⟩ := remove_char_before h.holds hbefore
    have hz : d.zipper.removeBefore 1 = ⟨xs ++ [], d.zipper.after⟩ := by
      rw [Zipper.removeBefore, hbefore]
      simp
    rw [hpos, hz]
    exact refreshIfOne_turns hremove (h.turns_of hc')

/-- `SPECIAL_DELETE`, and `ctrl-d` on a line that is not empty. -/
theorem delete_turns (h : c.Shows d) :
    ∃ c', refreshIfOne (remove_char c c.pos) = .ok c' ∧
      c.Turns { d with zipper := d.zipper.removeAfter 1 } c' := by
  cases hafter : d.zipper.after with
  | nil =>
    have hpos : c.pos = d.zipper.text.length := by
      rw [h.holds.pos, Zipper.text, hafter, List.append_nil]
    have hnone := remove_char_none h.holds (.inr (Int.le_of_eq hpos.symm))
    have hsame : d.zipper.removeAfter 1 = d.zipper := by
      rw [Zipper.removeAfter, hafter, List.drop_nil, ← hafter]
    rw [hsame]
    exact refreshIfOne_turns hnone h.turns
  | cons x ys =>
    obtain ⟨ret, c', hremove, -, hc'⟩ := remove_char_after h.holds hafter
    have hz : d.zipper.removeAfter 1 = ⟨d.zipper.before, ys⟩ := by
      rw [Zipper.removeAfter, hafter, List.drop_one, List.tail_cons]
    rw [hz]
    exact refreshIfOne_turns hremove (h.turns_of hc')

/-- The two capture conventions: with the NUL, and without. -/
theorem captured_eq (xs : List UInt8) (cut : Option (List UInt8)) :
    captured xs (cut.map (· ++ [0])) = (if xs = [] then cut else some xs).map (· ++ [0]) := by
  rw [captured]
  split <;> rfl

/-- To cut what is before the cursor. -/
theorem cutBefore_turns (h : c.Shows d) {n : Nat} (hn : n ≤ d.zipper.before.length) :
    ∃ c', refreshIfAny (remove_chars c (c.pos - n) n) = .ok c' ∧ c.Turns (d.cutBefore n) c' := by
  obtain ⟨removed, c', hremove, hc'⟩ := remove_chars_before h.holds hn
  rw [h.capture, captured_eq] at hc'
  exact refreshIfAny_turns hremove hc'

/-- To cut what is behind the cursor. -/
theorem cutAfter_turns (h : c.Shows d) {n : Nat} (hn : n ≤ d.zipper.after.length) :
    ∃ c', refreshIfAny (remove_chars c c.pos n) = .ok c' ∧ c.Turns (d.cutAfter n) c' := by
  obtain ⟨removed, c', hremove, hc'⟩ := remove_chars_after h.holds hn
  rw [h.capture, captured_eq] at hc'
  exact refreshIfAny_turns hremove hc'

/-- The loops of `ctrl-w` step back over what `takeWhile` takes from the end. -/
theorem eat_eq {z : Zipper UInt8} (h : c.Holds z) (spaces : Bool) : ∀ n ≤ z.before.length,
    eat spaces c n = .ok (n - ((z.before.take n).reverse.takeWhile
      fun x => (x == byte ' ') == spaces).length)
  | 0, _ => rfl
  | n + 1, hn => by
      have hlt : n < z.before.length := by omega
      have hsplit : z.text = z.before.take n ++
          z.before[n] :: (z.before.drop (n + 1) ++ z.after) := by
        rw [Zipper.text, ← List.cons_append, List.getElem_cons_drop, ← List.append_assoc,
          List.take_append_drop]
      have hlen : (z.before.take n).length = n := by rw [List.length_take]; omega
      have hget := get_char_at h hsplit
      rw [hlen] at hget
      have htake : (z.before.take (n + 1)).reverse = z.before[n] :: (z.before.take n).reverse := by
        rw [List.take_add_one, List.getElem?_eq_getElem hlt, Option.toList_some,
          List.reverse_append, List.reverse_singleton, List.singleton_append]
      rw [eat, hget, ok_bind, htake, List.takeWhile_cons]
      rw [show (some z.before[n] == some (byte ' ')) = (z.before[n] == byte ' ') from rfl]
      by_cases hx : ((z.before[n] == byte ' ') == spaces) = true
      · rw [if_pos hx, if_pos hx, eat_eq h spaces n (by omega), List.length_cons]
        congr 1
        omega
      · rw [if_neg hx, if_neg hx]
        rfl

/-- The two loops of `ctrl-w` after each other. -/
theorem eat_word {z : Zipper UInt8} (h : c.Holds z) :
    ∃ pos, eat true c z.before.length = .ok pos ∧
      eat false c pos = .ok (z.before.length - z.wordBefore (· == byte ' ')) := by
  have hspaces : (fun x : UInt8 => (x == byte ' ') == true) = (· == byte ' ') := by
    funext x; cases x == byte ' ' <;> rfl
  have hword : (fun x : UInt8 => (x == byte ' ') == false) = fun x => !(x == byte ' ') := by
    funext x; cases x == byte ' ' <;> rfl
  have heat := eat_eq h true z.before.length (Nat.le_refl _)
  have heat' := eat_eq h false
    (z.before.length - (z.before.reverse.takeWhile (· == byte ' ')).length) (Nat.sub_le _ _)
  have hblanks := (List.takeWhile_sublist (l := z.before.reverse) (· == byte ' ')).length_le
  rw [List.length_reverse] at hblanks
  rw [List.take_length, hspaces] at heat
  rw [List.reverse_take, Nat.sub_sub_self hblanks, hword] at heat'
  refine ⟨_, heat, ?_⟩
  rw [heat', Zipper.wordBefore, Nat.sub_sub]

/-- `ctrl-w`: the spaces before the cursor, and the word before them. -/
theorem deleteWord_turns (h : c.Shows d) :
    ∃ c', deleteWord c = .ok c' ∧
      c.Turns (d.cutBefore (d.zipper.wordBefore (· == byte ' '))) c' := by
  have hpos : c.pos.toNat = d.zipper.before.length := by rw [h.holds.pos, Int.toNat_natCast]
  have hle := Zipper.wordBefore_le (· == byte ' ') d.zipper
  obtain ⟨pos, heat, heat'⟩ := eat_word h.holds
  obtain ⟨c', hrun, hc'⟩ := cutBefore_turns h hle
  refine ⟨c', ?_, hc'⟩
  have hstart : ((d.zipper.before.length - d.zipper.wordBefore (· == byte ' ') : Nat) : Int) =
      c.pos - d.zipper.wordBefore (· == byte ' ') := by rw [h.holds.pos]; omega
  rw [deleteWord, hpos, heat, ok_bind, heat', ok_bind, hstart, Int.sub_sub_self, hrun]

/-- `ctrl-t` takes out the character that moves. -/
theorem transpose_takes (h : c.Shows d) (hbefore : d.zipper.before ≠ []) :
    ∃ x ys, d.transposed.after = x :: ys ∧
      get_char c (c.pos - if c.pos = c.chars then 1 else 0) = .ok (some x) ∧
      ∃ ret c', remove_char c (c.pos - if c.pos = c.chars then 1 else 0) = .ok (ret, c') ∧
        c.Becomes ⟨d.transposed.before, ys⟩ c.capture c' := by
  have hsize : d.zipper.text.length = d.zipper.before.length + d.zipper.after.length :=
    List.length_append
  rw [Draft.transposed]
  cases hafter : d.zipper.after with
  | nil =>
    -- the cursor is behind the text, and the character before it moves
    obtain ⟨xs, x, hx⟩ := List.eq_nil_or_concat d.zipper.before |>.resolve_left hbefore
    rw [List.concat_eq_append] at hx
    have hleft : d.zipper.left = ⟨xs, [x]⟩ := by
      have : d.zipper = .atEnd (xs ++ [x]) := by rw [← hx, Zipper.atEnd, ← hafter]
      rw [this, Zipper.left_atEnd]
    have hpos : c.pos - 1 = xs.length := by
      rw [h.holds.pos, hx, List.length_append, List.length_singleton]; omega
    obtain ⟨ret, c', hremove, -, hc'⟩ := remove_char_before h.holds hx
    rw [List.append_nil, hafter] at hc'
    rw [if_pos rfl, hleft, if_pos (by rw [h.holds.pos, h.holds.chars, hsize, hafter]; simp), hpos]
    have htext : d.zipper.text = xs ++ [x] := by rw [Zipper.text, hx, hafter, List.append_nil]
    have hget := get_char_at h.holds htext
    exact ⟨x, [], rfl, hget, ret, c', hremove, hc'⟩
  | cons x ys =>
    obtain ⟨ret, c', hremove, -, hc'⟩ := remove_char_after h.holds hafter
    have hne : ¬ c.pos = c.chars := by
      rw [h.holds.pos, h.holds.chars, hsize, hafter, List.length_cons]; omega
    have hget := get_char_cursor h.holds
    rw [hafter] at hget
    rw [if_neg (List.cons_ne_nil x ys), hafter, if_neg hne, Int.sub_zero]
    exact ⟨x, ys, rfl, hget, ret, c', hremove, hc'⟩

/-- `ctrl-t` puts it back one place further to the left, if there is such a place. -/
theorem transpose_puts {z : Zipper UInt8} (h : c.Holds z) (x : UInt8) :
    ∃ ret c', insert_char c (c.pos - 1) x = .ok (ret, c') ∧
      c.Becomes (if z.before ≠ [] ∧ z.text.length + 2 < c.bufmax
        then ⟨z.before.dropLast ++ [x] ++ z.before.drop (z.before.length - 1), z.after⟩ else z)
        c.capture c' := by
  by_cases hfits : z.before ≠ [] ∧ (z.text.length : Int) + 2 < c.bufmax
  · obtain ⟨xs, y, hy⟩ := List.eq_nil_or_concat z.before |>.resolve_left hfits.1
    rw [List.concat_eq_append] at hy
    have hpos : c.pos - 1 = xs.length := by
      rw [h.pos, hy, List.length_append, List.length_singleton]; omega
    obtain ⟨ret, c', hinsert, -, hc'⟩ := insert_char_at h hy hfits.2 x
    refine ⟨ret, c', hpos ▸ hinsert, ?_⟩
    rw [if_pos hfits, hy, List.dropLast_concat, List.length_append, List.length_singleton,
      Nat.add_sub_cancel, List.drop_left, List.append_assoc, List.singleton_append]
    exact hc'
  · have hnone : insert_char c (c.pos - 1) x = .ok (0, c) := by
      refine insert_char_none h ?_ x
      by_cases hbefore : z.before = []
      · exact .inr (.inl (by rw [h.pos, hbefore]; decide))
      · exact .inl (by
          have : ¬ (z.text.length : Int) + 2 < c.bufmax := fun hroom => hfits ⟨hbefore, hroom⟩
          omega)
    rw [if_neg hfits]
    exact ⟨0, c, hnone, h.becomes⟩

/-- `ctrl-t`. -/
theorem transposeChars_turns (h : c.Shows d) :
    ∃ c', transposeChars c = .ok c' ∧ c.Turns (d.transpose c.bufmax) c' := by
  have hsize : d.zipper.text.length = d.zipper.before.length + d.zipper.after.length :=
    List.length_append
  rw [transposeChars, Draft.transpose]
  by_cases hbefore : d.zipper.before = []
  · rw [if_pos hbefore, if_neg (by rw [h.holds.pos, hbefore]; simp)]
    exact ⟨c, rfl, h.turns⟩
  · have hpos : c.pos > 0 ∧ c.pos ≤ c.chars := by
      have := List.length_pos_iff.mpr hbefore
      rw [h.holds.pos, h.holds.chars, hsize]
      omega
    obtain ⟨x, ys, hafter, hget, ret, c₁, hremove, h₁⟩ := transpose_takes h hbefore
    obtain ⟨ret', c₂, hinsert, h₂⟩ := transpose_puts h₁.holds x
    have hlen : (d.transposed.before ++ ys).length + 1 = d.transposed.text.length := by
      rw [Zipper.text, hafter, List.length_append, List.length_append, List.length_cons]
      omega
    have hz : (if (⟨d.transposed.before, ys⟩ : Zipper UInt8).before ≠ [] ∧
          ((⟨d.transposed.before, ys⟩ : Zipper UInt8).text.length : Int) + 2 < c₁.bufmax then
          (⟨d.transposed.before.dropLast ++ [x] ++
            d.transposed.before.drop (d.transposed.before.length - 1), ys⟩ : Zipper UInt8)
        else ⟨d.transposed.before, ys⟩) =
        if d.transposed.before ≠ [] ∧ (d.transposed.text.length : Int) + 1 < c.bufmax then
          d.transposed.transpose else d.transposed.removeAfter 1 := by
      have hiff : ((d.transposed.before ++ ys).length : Int) + 2 < c₁.bufmax ↔
          (d.transposed.text.length : Int) + 1 < c.bufmax := by
        rw [h₁.bufmax, ← hlen]; omega
      rw [Zipper.transpose, Zipper.removeAfter, hafter]
      simp only [Zipper.text] at hiff ⊢
      simp only [hiff, List.take_succ_cons, List.take_zero, List.drop_succ_cons, List.drop_zero]
    rw [hz] at h₂
    rw [h₁.capture] at h₂
    rw [if_pos hpos, if_neg hbefore]
    simp only [hget, hremove, hinsert, ok_bind, Option.getD_some]
    exact refreshLine_turns (h.turns_of (h₁.trans h₂)) _

/-- A move of the cursor: only `pos` changes. -/
theorem move_turns (h : c.Shows d) {z : Zipper UInt8} (hz : z.text = d.zipper.text) {pos : Int}
    (hpos : pos = z.before.length) :
    ∃ c', refreshLine c.prompt { c with pos } = .ok c' ∧ c.Turns { d with zipper := z } c' := by
  have hmoved : ({ c with pos } : Current).Holds z :=
    ⟨hz ▸ h.holds.buf, hz ▸ h.holds.room, hz ▸ h.holds.len, hz ▸ h.holds.chars, hpos,
      h.holds.sized⟩
  exact refreshLine_turns (h.turns_of ⟨hmoved, rfl, rfl, rfl, rfl, rfl⟩) c.prompt

/-- The cursor to the left. -/
theorem moveLeft_turns (h : c.Shows d) :
    ∃ c', moveLeft c = .ok c' ∧ c.Turns { d with zipper := d.zipper.left } c' := by
  rw [moveLeft]
  by_cases hbefore : d.zipper.before = []
  · have hsame : d.zipper.left = d.zipper := by
      rw [Zipper.left, Zipper.text, hbefore, List.nil_append, List.length_nil, Zipper.split,
        List.take_zero, List.drop_zero, ← hbefore]
    rw [if_neg (by rw [h.holds.pos, hbefore]; decide), hsame]
    exact ⟨c, rfl, h.turns⟩
  · have hpos := List.length_pos_iff.mpr hbefore
    rw [if_pos (by rw [h.holds.pos]; omega)]
    refine move_turns h d.zipper.text_left ?_
    rw [h.holds.pos, Zipper.left, Zipper.split, List.length_take, Zipper.text, List.length_append]
    omega

/-- The cursor to the right. -/
theorem moveRight_turns (h : c.Shows d) :
    ∃ c', moveRight c = .ok c' ∧ c.Turns { d with zipper := d.zipper.right } c' := by
  have hsize : d.zipper.text.length = d.zipper.before.length + d.zipper.after.length :=
    List.length_append
  rw [moveRight]
  by_cases hafter : d.zipper.after = []
  · have hsame : d.zipper.right = d.zipper := by
      rw [Zipper.right, Zipper.text, hafter, List.append_nil, Zipper.split,
        List.take_of_length_le (Nat.le_succ _), List.drop_of_length_le (Nat.le_succ _), ← hafter]
    rw [if_neg (by rw [h.holds.pos, h.holds.chars, hsize, hafter, List.length_nil]; omega), hsame]
    exact ⟨c, rfl, h.turns⟩
  · have hpos := List.length_pos_iff.mpr hafter
    rw [if_pos (by rw [h.holds.pos, h.holds.chars, hsize]; omega)]
    refine move_turns h d.zipper.text_right ?_
    rw [h.holds.pos, Zipper.right, Zipper.split, List.length_take, hsize]
    omega

/-- `ctrl-y`. -/
theorem yank_turns (h : c.Shows d) :
    ∃ c', Linenoise.yank c = .ok c' ∧ c.Turns (d.yank c.bufmax) c' := by
  rw [Linenoise.yank, Draft.yank, h.capture]
  cases d.cut with
  | none => exact ⟨c, rfl, h.turns⟩
  | some s =>
    obtain ⟨hnul, zs, hs⟩ := takeWhile_nul 0 s
    obtain ⟨inserted, c', hinsert, hc'⟩ := insert_chars_cursor zs h.holds hnul
    rw [← hs] at hinsert
    exact refreshIfAny_turns hinsert (h.turns_of hc')

/-- `ctrl-l` forgets the width of the window, which is then reported again. -/
theorem clear_turns (h : c.Shows d) (hws : c.fd.ws_col ≠ 0) :
    ∃ c', clear c = .ok c' ∧ c.Turns d c' := by
  have hclear : c.Turns d { c with fd := c.fd.write .clearScreen } :=
    ⟨⟨h.holds.buf, h.holds.room, h.holds.len, h.holds.chars, h.holds.pos, h.holds.sized⟩, h.capture,
      rfl, rfl, rfl, rfl⟩
  have hcols := refreshLine_cols (c := { c with fd := c.fd.write .clearScreen }) hws c.prompt 0
  rw [clear, hcols]
  exact refreshLine_turns hclear c.prompt

/-- One character is inserted, if there is room. -/
theorem insert_turns (h : c.Shows d) (ch : UInt8) :
    ∃ ret c', insert_char c c.pos ch = .ok (ret, c') ∧ c.Turns (d.insertAll c.bufmax [ch]) c' := by
  rw [Draft.insertAll, freeRoom]
  by_cases hfits : (d.zipper.text.length : Int) + 2 < c.bufmax
  · obtain ⟨ret, c', hinsert, -, hc'⟩ := insert_char_cursor h.holds hfits ch
    have htake : [ch].take (c.bufmax - 2 - d.zipper.text.length).toNat = [ch] :=
      List.take_of_length_le (by rw [List.length_singleton]; omega)
    rw [htake]
    exact ⟨ret, c', hinsert, h.turns_of hc'⟩
  · have htake : [ch].take (c.bufmax - 2 - d.zipper.text.length).toNat = [] := by
      rw [show (c.bufmax - 2 - d.zipper.text.length).toNat = 0 by omega, List.take_zero]
    rw [htake, Zipper.insertAll, List.append_nil]
    exact ⟨0, c, insert_char_none h.holds (.inl (by omega)) ch, h.turns⟩

/-- A character that is typed; what is no character does nothing. -/
theorem insertKey_turns (h : c.Shows d) (key : Key) :
    ∃ c', insertKey key c = .ok c' ∧ c.Turns (d.press c.bufmax key .other) c' := by
  cases key with
  | eof => exact ⟨c, rfl, h.turns⟩
  | special s => exact ⟨c, rfl, h.turns⟩
  | char ch =>
    rw [insertKey, Draft.press]
    by_cases hch : ch = byte '\t' ∨ byte ' ' ≤ ch
    · obtain ⟨ret, c', hinsert, hc'⟩ := insert_turns h ch
      simp only [if_pos hch]
      exact refreshIfOne_turns hinsert hc'
    · simp only [if_neg hch]
      exact ⟨c, rfl, h.turns⟩

end Branches

/-- The branch is run on the line of the editor. -/
theorem Editor.edit_of_ok {e : Editor} {f : Current → Checked Current} {c' : Current}
    (h : f e.current = .ok c') : e.edit f = .ok (.again { e with current := c' }) := by
  rw [Editor.edit, h]
  rfl

/-- **A key that edits** does to the line what `Draft.press` says, and to nothing else. -/
theorem processLabel_edits {e : Editor} {d : Draft} {l : Label} (h : e.current.Shows d)
    (hl : l.edits = true) (hD : l = .ctrlD → d.zipper.text ≠ [])
    (hL : l = .ctrlL → e.current.fd.ws_col ≠ 0) (key : Key) :
    ∃ c', processLabel key e l = .ok (.again { e with current := c' }) ∧
      e.current.Turns (d.press e.current.bufmax key l) c' := by
  have hedit : ∀ {f : Current → Checked Current} {d' : Draft},
      (∃ c', f e.current = .ok c' ∧ e.current.Turns d' c') →
        ∃ c', e.edit f = .ok (.again { e with current := c' }) ∧ e.current.Turns d' c' := by
    rintro f d' ⟨c', hrun, hc'⟩
    exact ⟨c', Editor.edit_of_ok hrun, hc'⟩
  cases l with
  | enter => cases hl
  | ctrlC => cases hl
  | ctrlR => cases hl
  | ctrlV => cases hl
  | pageUp => cases hl
  | pageDown => cases hl
  | up => cases hl
  | down => cases hl
  | backspace =>
    rw [processLabel]
    refine hedit ?_
    exact backspace_turns h
  | ctrlD =>
    have hlen : ¬ e.current.len = 0 := by
      have := List.length_pos_iff.mpr (hD rfl)
      rw [h.holds.len]
      omega
    rw [processLabel, if_neg hlen]
    refine hedit ?_
    exact delete_turns h
  | delete =>
    rw [processLabel]
    refine hedit ?_
    exact delete_turns h
  | insert => exact ⟨e.current, rfl, h.turns⟩
  | ctrlW => exact hedit (deleteWord_turns h)
  | ctrlT => exact hedit (transposeChars_turns h)
  | left => exact hedit (moveLeft_turns h)
  | right => exact hedit (moveRight_turns h)
  | home =>
    rw [processLabel]
    refine hedit ?_
    exact move_turns h (z := d.zipper.home) rfl rfl
  | lineEnd =>
    rw [processLabel]
    refine hedit ?_
    exact move_turns h (List.append_nil _) h.holds.chars
  | ctrlU =>
    have hstart : (0 : Int) = e.current.pos - d.zipper.before.length := by rw [h.holds.pos]; omega
    have hcut := cutBefore_turns h (Nat.le_refl d.zipper.before.length)
    rw [← hstart, ← h.holds.pos] at hcut
    rw [processLabel]
    refine hedit ?_
    exact hcut
  | ctrlK =>
    have hsize : d.zipper.text.length = d.zipper.before.length + d.zipper.after.length :=
      List.length_append
    have hrest : e.current.chars - e.current.pos = d.zipper.after.length := by
      rw [h.holds.chars, h.holds.pos, hsize]; omega
    have hcut := cutAfter_turns h (Nat.le_refl d.zipper.after.length)
    rw [← hrest] at hcut
    rw [processLabel]
    refine hedit ?_
    exact hcut
  | ctrlY => exact hedit (yank_turns h)
  | ctrlL => exact hedit (clear_turns h (hL rfl))
  | other => exact hedit (insertKey_turns h key)

end Linenoise

end FepControl
