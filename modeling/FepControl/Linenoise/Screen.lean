/-
  What `refreshLine` writes.

  The source does not know what is on the screen.  It counts columns, one for a byte and two for a
  control character, and writes: to the left edge, the prompt, a part of the text, and then the
  cursor to its place.  What a terminal makes of that is the terminal's affair.  But which part of
  the text is written, and to which column the cursor is sent, is the source's own, and this file
  says it.

  1. **Columns** -- how many of them the source counts for a prompt, and for a text.

  2. **The part** -- characters are left off at the front as long as the row would be full, and at
     the end where no more fit.  `Displays` says which part of a text is the right one.

  3. **hidden, visible** -- the two decisions of the source, as functions of the text: how many
     characters go at the front, and what is left at the end.  The first leaves off as few as it can
     (`hidden_enough`, `hidden_least`), and the second keeps as many (`visible_most`).

  4. **The loops** -- the two loops of the source find this part, and write nothing else (`Spells`).

  5. **The line** -- for every prompt, every text, every cursor and every width that is known,
     `refreshLine` writes the part that `Displays` asks for (`refreshLine_displays`).
-/
import FepControl.Linenoise.Search

namespace FepControl

namespace Linenoise

open Lib

/-! ## Columns -/

/-- The columns that the source counts for a text. -/
def columns : List UInt8 → Int
  | [] => 0
  | ch :: text => width ch + columns text

/-- The columns that it counts for a prompt: colour sequences take none. -/
def promptColumns (prompt : List UInt8) : Int := prompt.length - countColorControlChars prompt

@[simp] theorem columns_nil : columns [] = 0 := rfl

theorem columns_cons (ch : UInt8) (text : List UInt8) :
    columns (ch :: text) = width ch + columns text := rfl

/-- The columns of two texts add up. -/
theorem columns_append (xs ys : List UInt8) : columns (xs ++ ys) = columns xs + columns ys := by
  induction xs with
  | nil => rw [columns_nil, Int.zero_add, List.nil_append]
  | cons ch xs ih => rw [List.cons_append, columns_cons, columns_cons, ih, Int.add_assoc]

/-- A character takes a column or two. -/
theorem width_pos (ch : UInt8) : 1 ≤ width ch ∧ width ch ≤ 2 := by
  rw [width]
  split <;> decide

/-- No text takes less than no columns. -/
theorem columns_nonneg : ∀ text : List UInt8, 0 ≤ columns text
  | [] => Int.le_refl 0
  | ch :: text => by
      have hpos := width_pos ch
      have hrest := columns_nonneg text
      rw [columns_cons]
      omega

/-- A control character needs an extra column. -/
theorem columns_eq : ∀ text : List UInt8, columns text = text.length + text.countP isControl
  | [] => rfl
  | ch :: text => by
      rw [columns_cons, columns_eq text, width, List.length_cons, List.countP_cons]
      split <;> omega

/-! ## The part -/

/-- The columns that the source counts for the row, with `k` characters left off at the front: what
    stands before the cursor with its control characters, what stands behind it as so many
    characters, and one more for a control character at the cursor. -/
def rowColumns (prompt : List UInt8) (z : Zipper UInt8) (k : Nat) : Int :=
  promptColumns prompt + columns (z.before.drop k) + z.after.length +
    if z.after.head?.any isControl then 1 else 0

/-- **The part of the text to be shown** in `cols` columns: `m` characters, after `k` that are left
    off. -/
structure Displays (prompt : List UInt8) (cols : Int) (z : Zipper UInt8) (k m : Nat) : Prop where
  /-- only characters before the cursor are left off -/
  before : k ≤ z.before.length
  /-- each of them had to be -/
  least : ∀ j < k, cols ≤ rowColumns prompt z j
  /-- and they are enough, if there are others -/
  enough : k < z.before.length → rowColumns prompt z k < cols
  /-- all that is written fits, behind a prompt that does -/
  fits : promptColumns prompt + columns ((z.text.drop k).take m) ≤ max cols (promptColumns prompt)
  /-- and no further character would -/
  most : ∀ ch, z.text[k + m]? = some ch →
    cols < promptColumns prompt + columns ((z.text.drop k).take m) + width ch
  /-- what stands before the cursor is written, if it is not left off -/
  reaches : z.before.length ≤ k + m
  /-- so is the character at the cursor, if the prompt leaves room for it -/
  cursor : ∀ ch, z.after.head? = some ch →
    (z.before.length < k + m ↔ promptColumns prompt + width ch ≤ cols)

/-- How many characters are left off at the front, of those before the cursor. -/
def hidden (cols : Int) : (n : Int) → List UInt8 → Nat
  | _, [] => 0
  | n, ch :: before => if n ≥ cols then hidden cols (n - width ch) before + 1 else 0

/-- The part of a text that fits into the row, from the column `x` on. -/
def visible (cols : Int) : (x : Int) → List UInt8 → List UInt8
  | _, [] => []
  | x, ch :: buf => if x + width ch ≤ cols then ch :: visible cols (x + width ch) buf else []

/-- What fits is kept, and the rest looked at from there. -/
theorem visible_append (cols : Int) : ∀ (xs ys : List UInt8) (x : Int), x + columns xs ≤ cols →
    visible cols x (xs ++ ys) = xs ++ visible cols (x + columns xs) ys
  | [], ys, x, _ => by rw [columns_nil, Int.add_zero]; rfl
  | ch :: xs, ys, x, h => by
      have hrest := columns_nonneg xs
      rw [columns_cons] at h ⊢
      rw [List.cons_append, visible, if_pos (by omega), visible_append cols xs ys _ (by omega),
        Int.add_assoc]
      rfl

/-- What is kept is the beginning of the text. -/
theorem visible_initial (cols : Int) : ∀ (text : List UInt8) (x : Int),
    visible cols x text <+: text
  | [], _ => List.prefix_refl []
  | ch :: text, x => by
      rw [visible]
      split
      · exact (List.prefix_cons_inj ch).mpr (visible_initial cols text _)
      · exact List.nil_prefix

/-- It fits into the row. -/
theorem columns_visible (cols : Int) : ∀ (text : List UInt8) (x : Int),
    x + columns (visible cols x text) ≤ max cols x
  | [], x => by rw [visible, columns_nil]; omega
  | ch :: text, x => by
      rw [visible]
      split
      · rename_i hfits
        have hrest := columns_visible cols text (x + width ch)
        rw [columns_cons]
        omega
      · rw [columns_nil]
        omega

/-- The first character that is not written would not have fitted. -/
theorem visible_most (cols : Int) : ∀ (text : List UInt8) (x : Int) (ch : UInt8),
    text[(visible cols x text).length]? = some ch →
      cols < x + columns (visible cols x text) + width ch
  | [], x, ch, h => by cases h
  | ch' :: text, x, ch, h => by
      rw [visible] at h ⊢
      by_cases hfits : x + width ch' ≤ cols
      · rw [if_pos hfits, List.length_cons, List.getElem?_cons_succ] at h
        have hrest := visible_most cols text (x + width ch') ch h
        rw [if_pos hfits, columns_cons]
        omega
      · rw [if_neg hfits, List.length_nil, List.getElem?_cons_zero] at h
        cases h
        rw [if_neg hfits, columns_nil]
        omega

/-- No more is left off than is before the cursor. -/
theorem hidden_le (cols : Int) : ∀ (before : List UInt8) (n : Int),
    hidden cols n before ≤ before.length
  | [], _ => Nat.le_refl 0
  | ch :: before, n => by
      rw [hidden]
      split
      · exact Nat.succ_le_succ (hidden_le cols before _)
      · exact Nat.zero_le _

/-- Characters are left off until the line fits, or the cursor is at the left end. -/
theorem hidden_enough (cols : Int) : ∀ (before : List UInt8) (n : Int),
    hidden cols n before < before.length →
      n - columns (before.take (hidden cols n before)) < cols
  | [], n, h => absurd h (Nat.not_lt_zero _)
  | ch :: before, n, h => by
      rw [hidden] at h ⊢
      by_cases hn : n ≥ cols
      · rw [if_pos hn, List.length_cons] at h
        have hrest := hidden_enough cols before (n - width ch) (Nat.lt_of_succ_lt_succ h)
        rw [if_pos hn, List.take_succ_cons, columns_cons]
        omega
      · rw [if_neg hn, List.take_zero, columns_nil]
        omega

/-- And no more of them. -/
theorem hidden_least (cols : Int) : ∀ (before : List UInt8) (n : Int) (j : Nat),
    j < hidden cols n before → cols ≤ n - columns (before.take j)
  | [], n, j, h => absurd h (Nat.not_lt_zero j)
  | ch :: before, n, j, h => by
      rw [hidden] at h
      by_cases hn : n ≥ cols
      · rw [if_pos hn] at h
        cases j with
        | zero => rw [List.take_zero, columns_nil]; omega
        | succ j =>
          have hrest := hidden_least cols before (n - width ch) j (by omega)
          rw [List.take_succ_cons, columns_cons]
          omega
      · rw [if_neg hn] at h
        exact absurd h (Nat.not_lt_zero j)

/-! ## The loops -/

/-- The outputs are the characters of a text, one after the other, the control characters among them
    by `outputControlChar`; and nothing else. -/
inductive Spells : List Output → List UInt8 → Prop where
  | nil : Spells [] []
  | chars {written : List Output} {text buf : List UInt8} (hbuf : ∀ ch ∈ buf, isControl ch = false)
      (h : Spells written text) : Spells (.chars buf :: written) (buf ++ text)
  | control {written : List Output} {text : List UInt8} {ch : UInt8} (hch : isControl ch = true)
      (h : Spells written text) :
      Spells (.outputControlChar (ch + byte '@') :: written) (ch :: text)

/-- The characters that were passed over, and nothing behind them. -/
theorem Spells.last {unwritten : List UInt8} (h : ∀ ch ∈ unwritten, isControl ch = false) :
    Spells [.chars unwritten] unwritten := by
  have hlast := Spells.chars h .nil
  rwa [List.append_nil] at hlast

/-- The loop of the source that leaves characters off. -/
theorem strip_eq (cols : Int) (after : List UInt8) : ∀ (before : List UInt8) (n : Int),
    strip cols n before.length (before ++ after) =
      (((before.drop (hidden cols n before)).length : Int),
        before.drop (hidden cols n before) ++ after)
  | [], n => by
      cases after with
      | nil => rfl
      | cons ch after => exact if_neg (by simp)
  | ch :: before, n => by
      rw [List.cons_append, strip, hidden]
      by_cases hn : n ≥ cols
      · have hlen : (((ch :: before).length : Nat) : Int) - 1 = before.length := by
          rw [List.length_cons]
          omega
        rw [if_pos ⟨hn, by rw [List.length_cons]; omega⟩, if_pos hn, hlen,
          strip_eq cols after before]
        rfl
      · rw [if_neg (fun h => hn h.1), if_neg hn]
        rfl

/-- The loop of the source that writes the text: it writes the part that fits. -/
theorem spells_putChars (pchars cols pos : Int) : ∀ (buf unwritten : List UInt8) (i n : Int),
    (∀ ch ∈ unwritten, isControl ch = false) →
      Spells (putChars pchars cols pos i n unwritten buf).1
        (unwritten ++ visible cols (pchars + i + n) buf)
  | [], unwritten, i, n, h => by
      rw [visible, List.append_nil]
      exact .last h
  | ch :: buf, unwritten, i, n, h => by
      rw [putChars, visible, width]
      by_cases hch : isControl ch = true
      · simp only [if_pos hch]
        by_cases hfull : pchars + i + (n + 1) ≥ cols
        · rw [if_pos hfull, if_neg (by omega), List.append_nil]
          exact .last h
        · have hx : pchars + (i + 1) + (n + 1) = pchars + i + n + 2 := by omega
          have hrest := spells_putChars pchars cols pos buf [] (i + 1) (n + 1)
            fun ch hin => absurd hin List.not_mem_nil
          have hroom : pchars + i + n + 2 ≤ cols := by omega
          rw [hx, List.nil_append] at hrest
          rw [if_neg hfull, if_pos hroom]
          exact .chars h (.control hch hrest)
      · simp only [if_neg hch]
        by_cases hfull : pchars + i + n ≥ cols
        · rw [if_pos hfull, if_neg (by omega), List.append_nil]
          exact .last h
        · have hx : pchars + (i + 1) + n = pchars + i + n + 1 := by omega
          have hplain : ∀ ch' ∈ unwritten ++ [ch], isControl ch' = false := by
            intro ch' hin
            rcases List.mem_append.mp hin with hin | hin
            · exact h ch' hin
            · rw [List.mem_singleton.mp hin]
              exact Bool.eq_false_iff.mpr hch
          have hrest := spells_putChars pchars cols pos buf (unwritten ++ [ch]) (i + 1) n hplain
          rw [hx, List.append_assoc] at hrest
          rw [if_neg hfull, if_pos (by omega)]
          exact hrest

/-- `backup` counts the control characters before the cursor that are written. -/
theorem backup_putChars (pchars cols pos : Int) : ∀ (buf unwritten : List UInt8) (i n : Int),
    (putChars pchars cols pos i n unwritten buf).2 =
      ((visible cols (pchars + i + n) buf).take (pos - i).toNat).countP isControl
  | [], unwritten, i, n => by
      rw [visible, List.take_nil]
      rfl
  | ch :: buf, unwritten, i, n => by
      have hleft : i < pos → (pos - i).toNat = (pos - (i + 1)).toNat + 1 := by omega
      have hright : ¬ i < pos → (pos - i).toNat = 0 ∧ (pos - (i + 1)).toNat = 0 := by omega
      rw [putChars, visible, width]
      by_cases hch : isControl ch = true
      · simp only [if_pos hch]
        by_cases hfull : pchars + i + (n + 1) ≥ cols
        · rw [if_pos hfull, if_neg (by omega), List.take_nil]
          rfl
        · have hx : pchars + (i + 1) + (n + 1) = pchars + i + n + 2 := by omega
          have hroom : pchars + i + n + 2 ≤ cols := by omega
          rw [if_neg hfull, if_pos hroom]
          show (if i < pos then (putChars pchars cols pos (i + 1) (n + 1) [] buf).2 + 1 else
            (putChars pchars cols pos (i + 1) (n + 1) [] buf).2) = _
          rw [backup_putChars pchars cols pos buf [] (i + 1) (n + 1), hx]
          by_cases hi : i < pos
          · rw [if_pos hi, hleft hi, List.take_succ_cons, List.countP_cons, if_pos hch]
            rfl
          · obtain ⟨h₁, h₂⟩ := hright hi
            rw [if_neg hi, h₁, h₂, List.take_zero, List.take_zero]
      · simp only [if_neg hch]
        by_cases hfull : pchars + i + n ≥ cols
        · rw [if_pos hfull, if_neg (by omega), List.take_nil]
          rfl
        · have hx : pchars + (i + 1) + n = pchars + i + n + 1 := by omega
          rw [if_neg hfull, if_pos (by omega), backup_putChars pchars cols pos buf, hx]
          by_cases hi : i < pos
          · rw [hleft hi, List.take_succ_cons, List.countP_cons, if_neg hch, Nat.add_zero]
          · obtain ⟨h₁, h₂⟩ := hright hi
            rw [h₁, h₂, List.take_zero, List.take_zero]

/-! ## The line -/

section Line

variable {c : Current} {z : Zipper UInt8} (prompt : List UInt8) (cols : Int)

/-- How many characters `refreshLine` leaves off. -/
def leftOff (z : Zipper UInt8) : Nat := hidden cols (rowColumns prompt z 0) z.before

/-- The part that it writes. -/
def shown (z : Zipper UInt8) : List UInt8 :=
  visible cols (promptColumns prompt) (z.text.drop (leftOff prompt cols z))

/-- The columns of the row, once characters were left off. -/
theorem rowColumns_sub (z : Zipper UInt8) (k : Nat) :
    rowColumns prompt z 0 - columns (z.before.take k) = rowColumns prompt z k := by
  have hsplit := columns_append (z.before.take k) (z.before.drop k)
  rw [List.take_append_drop] at hsplit
  rw [rowColumns, rowColumns, List.drop_zero]
  omega

/-- What is left off is before the cursor. -/
theorem text_leftOff (z : Zipper UInt8) : z.text.drop (leftOff prompt cols z) =
    z.before.drop (leftOff prompt cols z) ++ z.after :=
  List.drop_append_of_le_length (hidden_le _ _ _)

/-- What stands before the cursor is written, but for what is left off. -/
theorem shown_eq (z : Zipper UInt8) : shown prompt cols z = z.before.drop (leftOff prompt cols z) ++
    visible cols (promptColumns prompt + columns (z.before.drop (leftOff prompt cols z)))
      z.after := by
  rw [shown, text_leftOff]
  rcases Nat.lt_or_ge (leftOff prompt cols z) z.before.length with hlt | hge
  · have henough := hidden_enough cols z.before (rowColumns prompt z 0) hlt
    rw [rowColumns_sub, rowColumns] at henough
    refine visible_append cols _ z.after _ ?_
    show promptColumns prompt + columns (z.before.drop (hidden _ _ _)) ≤ cols
    split at henough <;> omega
  · rw [List.drop_of_length_le hge, columns_nil, Int.add_zero]
    rfl

/-- **Room for the character at the cursor** there is exactly if there is behind the
    prompt alone. -/
theorem room_at_cursor {z : Zipper UInt8} {ch : UInt8} (hch : z.after.head? = some ch) :
    promptColumns prompt + columns (z.before.drop (leftOff prompt cols z)) + width ch ≤ cols ↔
      promptColumns prompt + width ch ≤ cols := by
  have hrest := columns_nonneg (z.before.drop (leftOff prompt cols z))
  constructor
  · intro h
    omega
  · intro h
    rcases Nat.lt_or_ge (leftOff prompt cols z) z.before.length with hlt | hge
    · have henough := hidden_enough cols z.before (rowColumns prompt z 0) hlt
      have hafter : 1 ≤ z.after.length := by
        cases hz : z.after with
        | nil => rw [hz] at hch; cases hch
        | cons x ys => exact Nat.succ_pos _
      rw [rowColumns_sub, rowColumns, hch, Option.any_some] at henough
      show promptColumns prompt + columns (z.before.drop (hidden _ _ _)) + width ch ≤ cols
      rw [width]
      split at henough
      · rename_i hcontrol
        rw [if_pos hcontrol]
        omega
      · rename_i hcontrol
        rw [if_neg hcontrol]
        omega
    · rw [List.drop_of_length_le hge, columns_nil, Int.add_zero]
      exact h

/-- **The part that is written is the one to be shown.** -/
theorem displays_shown (z : Zipper UInt8) :
    Displays prompt cols z (leftOff prompt cols z) (shown prompt cols z).length := by
  have hle : leftOff prompt cols z ≤ z.before.length := hidden_le _ _ _
  have hpart : (z.text.drop (leftOff prompt cols z)).take (shown prompt cols z).length =
      shown prompt cols z := (List.prefix_iff_eq_take.mp (visible_initial _ _ _)).symm
  have hlength := congrArg List.length (shown_eq prompt cols z)
  rw [List.length_append, List.length_drop] at hlength
  constructor
  · exact hle
  · intro j hj
    rw [← rowColumns_sub]
    exact hidden_least cols z.before _ j hj
  · intro hlt
    rw [← rowColumns_sub]
    exact hidden_enough cols z.before _ hlt
  · rw [hpart]
    exact columns_visible cols _ _
  · intro ch hch
    rw [hpart]
    refine visible_most cols _ _ ch ?_
    rw [List.getElem?_drop]
    exact hch
  · omega
  · intro ch hch
    rw [← room_at_cursor prompt cols hch]
    obtain ⟨ys, hys⟩ : ∃ ys, z.after = ch :: ys := by
      cases hz : z.after with
      | nil => rw [hz] at hch; cases hch
      | cons x ys => rw [hz] at hch; cases hch; exact ⟨ys, rfl⟩
    rw [hys, visible] at hlength
    split at hlength
    · rename_i hroom
      rw [List.length_cons] at hlength
      exact ⟨fun _ => hroom, fun _ => by omega⟩
    · rename_i hroom
      rw [List.length_nil] at hlength
      exact ⟨fun hlt => absurd hlt (by omega), fun hroom' => absurd hroom' hroom⟩

/-- What `refreshLine` writes once `getWindowSize` has found out the width. -/
theorem refreshLine_writes {c₁ : Current} (hsize : getWindowSize c = .ok c₁) (h : c₁.Holds z) :
    ∃ written k m, refreshLine prompt c = .ok { c₁ with
        fd := c₁.fd.writes ([.cursorToLeft, .chars prompt] ++ written ++
          [.eraseEol, .setCursorPos (promptColumns prompt + columns (z.before.drop k))]) } ∧
      Spells written ((z.text.drop k).take m) ∧ Displays prompt c₁.cols z k m := by
  let k := leftOff prompt c₁.cols z
  have hbefore : z.text.take ((z.before.length : Int)).toNat = z.before := by
    rw [Int.toNat_natCast]
    exact List.take_left
  have hstrip : strip c₁.cols (rowColumns prompt z 0) z.before.length z.text =
      (((z.before.drop k).length : Int), z.before.drop k ++ z.after) :=
    strip_eq c₁.cols z.after z.before _
  -- the columns that are counted before the first loop are those of the whole row
  have hrow : (prompt.length : Int) - countColorControlChars prompt + c₁.len +
      (z.before.countP isControl : Nat) + (if z.after.head?.any isControl then 1 else 0) =
        rowColumns prompt z 0 := by
    have htext : z.text.length = z.before.length + z.after.length := List.length_append
    rw [rowColumns, promptColumns, List.drop_zero, columns_eq, h.len, htext]
    omega
  -- and the control characters that are counted in the second loop are those before the cursor
  have hbackup : (putChars (promptColumns prompt) c₁.cols (z.before.drop k).length 0 0 []
      (z.before.drop k ++ z.after)).2 = ((z.before.drop k).countP isControl : Nat) := by
    have hshown := shown_eq prompt c₁.cols z
    rw [shown, text_leftOff] at hshown
    rw [backup_putChars, Int.add_zero, Int.add_zero, hshown, Int.sub_zero, Int.toNat_natCast,
      List.take_left]
  have hcursor : ((z.before.drop k).length : Int) + promptColumns prompt +
      ((z.before.drop k).countP isControl : Nat) =
        promptColumns prompt + columns (z.before.drop k) := by
    rw [columns_eq]
    omega
  have hspells : Spells (putChars (promptColumns prompt) c₁.cols (z.before.drop k).length 0 0 []
      (z.before.drop k ++ z.after)).1 ((z.text.drop k).take (shown prompt c₁.cols z).length) := by
    have hpart : visible c₁.cols (promptColumns prompt) (z.text.drop k) =
        (z.text.drop k).take (shown prompt c₁.cols z).length :=
      List.prefix_iff_eq_take.mp (visible_initial _ _ _)
    have hall := spells_putChars (promptColumns prompt) c₁.cols (z.before.drop k).length
      (z.before.drop k ++ z.after) [] 0 0 fun ch hin => absurd hin List.not_mem_nil
    rw [Int.add_zero, Int.add_zero, List.nil_append] at hall
    rw [← hpart, show z.text.drop k = _ from text_leftOff prompt c₁.cols z]
    exact hall
  refine ⟨_, k, (shown prompt c₁.cols z).length, ?_, hspells, displays_shown prompt c₁.cols z⟩
  rw [refreshLine, hsize, ok_bind, h.load_text, checked_some, ok_bind, get_char_cursor h, ok_bind]
  simp only [h.pos, hbefore, hrow, hstrip]
  rw [← promptColumns, hbackup, hcursor]
  rfl

/-- **The line is written anew**: to the left edge, the prompt, the part of the text that is to be
    shown, blanks to the right, and the cursor to its column.  Nothing else is written, and nothing
    about the line changes.  The width has to be known, from `ioctl` or from before. -/
theorem refreshLine_displays (h : c.Holds z) (hknown : c.fd.ws_col ≠ 0 ∨ cols ≠ 0) :
    ∃ width written k m, width = Current.knownCols { c with cols } ∧
      refreshLine prompt { c with cols } = .ok { c with
        cols := width
        fd := c.fd.writes ([.cursorToLeft, .chars prompt] ++ written ++
          [.eraseEol, .setCursorPos (promptColumns prompt + columns (z.before.drop k))]) } ∧
      Spells written ((z.text.drop k).take m) ∧ Displays prompt width z k m := by
  have hsize : getWindowSize { c with cols } = .ok { c with cols := Current.knownCols _ } :=
    getWindowSize_known hknown
  have hholds : ({ c with cols := Current.knownCols { c with cols } } : Current).Holds z :=
    ⟨h.buf, h.room, h.len, h.chars, h.pos, knownCols_ne_zero hknown⟩
  obtain ⟨written, k, m, hrun, hspells, hdisplays⟩ := refreshLine_writes prompt hsize hholds
  exact ⟨_, written, k, m, rfl, hrun, hspells, hdisplays⟩

/-- A line of eight characters with the cursor on a tab. -/
def tabLine : Current :=
  ⟨bytes "ab\tcdefg" ++ [0, 0], 10, 8, 8, 2, 80, bytes "fep> ", none, ⟨[], 0, []⟩⟩

/-- The buffer holds the text with the tab. -/
theorem tabLine_holds : tabLine.Holds ⟨bytes "ab", bytes "\tcdefg"⟩ :=
  ⟨rfl, by decide, rfl, rfl, rfl, by decide⟩

/-- Behind a coloured prompt, in 14 columns that were found out before: the tab is written, with
    what fits beside it. -/
theorem refreshLine_displays_tab : ∃ written k m,
    refreshLine (27 :: bytes "[32mfep> " ++ 27 :: bytes "[0m") { tabLine with cols := 14 } =
      .ok { tabLine with
        cols := 14
        fd := ⟨[], 0, [.cursorToLeft, .chars (27 :: bytes "[32mfep> " ++ 27 :: bytes "[0m")] ++
          written ++ [.eraseEol, .setCursorPos (5 + columns ((bytes "ab").drop k))]⟩ } ∧
      Spells written (((bytes "ab\tcdefg").drop k).take m) ∧ 2 < k + m := by
  have hknown : tabLine.fd.ws_col ≠ 0 ∨ (14 : Int) ≠ 0 := .inr (by decide)
  obtain ⟨width, written, k, m, rfl, hrun, hspells, hdisplays⟩ :=
    refreshLine_displays (27 :: bytes "[32mfep> " ++ 27 :: bytes "[0m") 14 tabLine_holds hknown
  have hcursor := (hdisplays.cursor (byte '\t') rfl).mpr (by decide)
  exact ⟨written, k, m, hrun, hspells, hcursor⟩

end Line

end Linenoise

end FepControl
