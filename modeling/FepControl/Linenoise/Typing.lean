/-
  What typed text does at the desk.

  The simulation is about any moves (`linenoise_plays`).  Most of what is said about the editor
  later is about one kind of them, keys that are pressed one after the other, and often these are
  the characters of a text.  For such keys the desk is a fold of `Desk.press`, and nothing can
  overrun.

  1. **Typing** -- printable characters behind the text are put there, as far as there is room
     (`Desk.typed`).  `Desk.ending` is the desk with a text that was typed in place of the draft.

  2. **Moves that press keys** -- they press them one after the other, whatever comes next: a key
     has no neighbour that could be taken for a part of it, so such moves always fit.

  3. **Pressed and entered** -- what `linenoise` returns for such keys and enter
     (`linenoise_pressed`), and for a text and enter: the text, if it fits (`linenoise_typed`).
-/
import FepControl.Linenoise.Play
import Mathlib.Data.List.TakeWhile

namespace FepControl

namespace Linenoise

open Lib

/-! ## Typing -/

/-- The characters that stand for themselves on the keyboard. -/
def Printable (c : UInt8) : Prop := byte ' ' ≤ c ∧ c ≠ 127

instance : DecidablePred Printable := fun _ => inferInstanceAs (Decidable (_ ∧ _))

/-- They are not control characters. -/
theorem Printable.ne_control {c x : UInt8} (h : Printable c) (hx : x < byte ' ') : c ≠ x := by
  rintro rfl
  exact absurd (UInt8.lt_of_lt_of_le hx h.1) (UInt8.lt_irrefl _)

/-- Such a character has no branch of its own. -/
theorem labelOfChar_printable {c : UInt8} (h : Printable c) : labelOfChar c = .other := by
  have hne : ∀ x : UInt8, x < byte ' ' → c ≠ x := fun x hx => h.ne_control hx
  have hback : ¬ (c = 127 ∨ c = ctrl 'H') := fun hc => hc.elim h.2 (hne _ (by decide))
  simp only [labelOfChar, hback, if_false, hne (byte '\r') (by decide), hne (ctrl 'C') (by decide),
    hne (ctrl 'D') (by decide), hne (ctrl 'W') (by decide), hne (ctrl 'R') (by decide),
    hne (ctrl 'T') (by decide), hne (ctrl 'V') (by decide), hne (ctrl 'B') (by decide),
    hne (ctrl 'F') (by decide), hne (ctrl 'P') (by decide), hne (ctrl 'N') (by decide),
    hne (ctrl 'A') (by decide), hne (ctrl 'E') (by decide), hne (ctrl 'U') (by decide),
    hne (ctrl 'K') (by decide), hne (ctrl 'Y') (by decide), hne (ctrl 'L') (by decide)]

/-- It neither ends the line nor starts a dialogue. -/
theorem plain_printable {c : UInt8} (h : Printable c) : (Key.char c).plain = true := by
  have htab : c ≠ byte '\t' := by
    rintro rfl
    exact absurd h.1 (by decide)
  simp only [Key.plain, labelOfChar_printable h, Bool.and_eq_true, bne_iff_ne]
  exact ⟨htab, rfl⟩

namespace Desk

variable {bufmax : Int}

/-- A printable character is inserted, if there is room for it. -/
theorem press_printable {c : UInt8} (h : Printable c) (k : Desk) :
    k.press bufmax (.char c) = { k with draft := k.draft.insertAll bufmax [c] } := by
  rw [press, show labelOf (.char c) = .other from labelOfChar_printable h]
  show { k with draft := if c = byte '\t' ∨ byte ' ' ≤ c then _ else _ } = _
  rw [if_pos (.inr h.1)]

/-- The desk with a text, and the cursor behind it. -/
def ending (text : List UInt8) (k : Desk) : Desk := k.withText (.atEnd text)

/-- A text without a NUL is all there is. -/
theorem text_of_clean {k : Desk} (h : 0 ∉ k.draft.zipper.text) : k.text = k.draft.zipper.text :=
  takeWhile_of_not_mem h

/-- The text is the one that was typed. -/
theorem text_ending {text : List UInt8} (h : 0 ∉ text) (k : Desk) :
    (k.ending text).text = text := by
  have htext : (k.ending text).draft.zipper.text = text := List.append_nil text
  rw [text_of_clean (by rw [htext]; exact h), htext]

/-- Text is typed behind the text there is, as far as there is room. -/
theorem foldl_press_printable (k : Desk) :
    ∀ (w xs : List UInt8), (∀ c ∈ w, Printable c) → (xs.length : Int) ≤ bufmax - 2 →
      (w.map Key.char).foldl (press bufmax) (k.ending xs) =
        k.ending ((xs ++ w).take (bufmax - 2).toNat)
  | [], xs, _, hroom => by
      rw [List.append_nil, List.take_of_length_le (by omega)]
      rfl
  | c :: w, xs, hw, hroom => by
      have hc := hw c List.mem_cons_self
      have hrest := fun c' hin => hw c' (List.mem_cons_of_mem c hin)
      have hpress : (k.ending xs).press bufmax (.char c) =
          k.ending (xs ++ [c].take ((bufmax - 2).toNat - xs.length)) := by
        have hfree : freeRoom bufmax (.atEnd xs) = (bufmax - 2).toNat - xs.length := by
          have htext : (Zipper.atEnd xs).text = xs := List.append_nil xs
          rw [freeRoom, htext]
          omega
        rw [press_printable hc, ← hfree]
        rfl
      rw [List.map_cons, List.foldl_cons, hpress]
      by_cases hfull : (bufmax - 2).toNat = xs.length
      · rw [hfull, Nat.sub_self, List.take_zero, List.append_nil,
          foldl_press_printable k w xs hrest hroom, hfull, List.take_left, List.take_left]
      · have hone : [c].take ((bufmax - 2).toNat - xs.length) = [c] :=
          List.take_of_length_le (by rw [List.length_singleton]; omega)
        have hroom' : ((xs ++ [c]).length : Int) ≤ bufmax - 2 := by
          rw [List.length_append, List.length_singleton]
          omega
        rw [hone, foldl_press_printable k w (xs ++ [c]) hrest hroom', List.append_assoc]
        rfl

/-- A text that fits is typed into the new line. -/
theorem typed {w : List UInt8} (hw : ∀ c ∈ w, Printable c)
    (hroom : w.length + 1 < LINENOISE_MAX_LINE)
    (history : History) : (w.map Key.char).foldl (press LINENOISE_MAX_LINE) (start history) =
      (start history).ending w := by
  have h : (w.map Key.char).foldl (press LINENOISE_MAX_LINE) ((start history).ending []) = _ :=
    foldl_press_printable (start history) w [] hw (by decide)
  have hall : w.take ((LINENOISE_MAX_LINE : Int) - 2).toNat = w := by
    refine List.take_of_length_le ?_
    simp only [LINENOISE_MAX_LINE] at *
    omega
  rw [List.nil_append, hall] at h
  exact h

end Desk

/-! ## Moves that press keys -/

/-- Moves that press keys, and moves behind them. -/
theorem play_presses (completionCallback : Option Callback) (bufmax : Int) (ending : Ending)
    (moves : List Move) : ∀ (keys : List Key) (k : Desk),
      k.play completionCallback bufmax ending (keys.map .press ++ moves) =
        (keys.foldl (Desk.press bufmax) k).play completionCallback bufmax ending moves
  | [], _ => rfl
  | key :: keys, k => play_presses completionCallback bufmax ending moves keys (k.press bufmax key)

/-- Keys that are pressed can always be made. -/
theorem fits_presses {keys : List Key} (h : ∀ key ∈ keys, key.plain = true) (moves : List Move)
    (ending : Ending) : fits (keys.map .press ++ moves) ending = fits moves ending := by
  induction keys with
  | nil => rfl
  | cons key keys ih =>
    have hkey : (Move.press key).fits (leading (keys.map .press ++ moves) ending) = true :=
      h key List.mem_cons_self
    rw [List.map_cons, List.cons_append, fits, hkey, Bool.true_and]
    exact ih fun key' hin => h key' (List.mem_cons_of_mem key hin)

/-- The characters of a text are such keys. -/
theorem plain_typed {w : List UInt8} (hw : ∀ c ∈ w, Printable c) :
    ∀ key ∈ w.map Key.char, key.plain = true := by
  intro key hin
  obtain ⟨c, hc, rfl⟩ := List.mem_map.mp hin
  exact plain_printable (hw c hc)

/-- The keys of moves that press keys. -/
theorem flatMap_keys_presses (keys : List Key) :
    (keys.map Move.press).flatMap Move.keys = keys := by
  rw [List.flatMap_map]
  exact List.flatMap_singleton' keys

/-- The keys of the line are these, and the ending. -/
theorem lineKeys_presses (keys : List Key) (ending : Ending) :
    lineKeys (keys.map .press) ending = keys ++ [ending.key] := by
  rw [lineKeys, flatMap_keys_presses]

/-! ## Pressed and entered -/

/-- Enter can end any line. -/
theorem fits_enter (k : Desk) (rest : List Event) : Ending.enter.Fits k rest :=
  ⟨fun heq => (by cases heq), fun heq => (by cases heq)⟩

/-- What was typed before a key is not nothing. -/
theorem input_ne_nil {keys : List Key} {key : Key} (heof : key ≠ .eof) {events rest : List Event}
    (htyped : Typed (keys ++ [key]) events) {fd : Terminal} (hinput : fd.input = events ++ rest) :
    fd.input ≠ [] := by
  obtain ⟨before, _, rfl, -, n, _, rfl, -⟩ := typed_append.mp htyped
  obtain ⟨ch, bs, hevents, -⟩ := key.events_first heof
  rw [hinput, hevents]
  simp

/-- **Keys that are pressed**, and enter: `linenoise` returns the text of the desk, and leaves its
    entries without the new line. -/
theorem linenoise_pressed (completionCallback : Option Callback) {history : History}
    (h : history.Sound LINENOISE_MAX_LINE) {buf : List UInt8}
    (hbuf : buf.length = LINENOISE_MAX_LINE) (prompt : List UInt8) {keys : List Key}
    (hkeys : ∀ key ∈ keys, key.plain = true) {fd : Terminal} (hfd : fd.Reports)
    {events rest : List Event} (htyped : Typed (keys ++ [.char (byte '\r')]) events)
    (hinput : fd.input = events ++ rest) {k : Desk}
    (hk : keys.foldl (Desk.press LINENOISE_MAX_LINE) (.start history) = k) :
    ∃ fd', linenoise completionCallback history buf prompt fd =
        .ok (.line k.text, { history with lines := k.lines.dropLast }, fd') ∧ fd'.input = rest := by
  have hfits := fits_presses hkeys [] .enter
  have hplay := play_presses completionCallback LINENOISE_MAX_LINE .enter [] keys (.start history)
  rw [List.append_nil] at hfits hplay
  have hline : Typed (lineKeys (keys.map .press) .enter) events := by
    rw [lineKeys_presses]
    exact htyped
  have hup := input_ne_nil (Key.char_ne_eof _) htyped hinput
  obtain ⟨fd', hrun, hrest, -⟩ := (linenoise_plays completionCallback h hbuf prompt hfits hfd hup
    hline hinput).2 _ hplay (fits_enter _ rest)
  rw [hk] at hrun
  exact ⟨fd', hrun, hrest⟩

/-- **A text that is typed**, and enter: it is returned as it is, if it fits into the line. -/
theorem linenoise_typed (completionCallback : Option Callback) {history : History}
    (h : history.Sound LINENOISE_MAX_LINE) {buf : List UInt8}
    (hbuf : buf.length = LINENOISE_MAX_LINE) (prompt : List UInt8) {w : List UInt8}
    (hw : ∀ c ∈ w, Printable c) (hroom : w.length + 1 < LINENOISE_MAX_LINE) {fd : Terminal}
    (hfd : fd.Reports) {events rest : List Event}
    (htyped : Typed (w.map .char ++ [.char (byte '\r')]) events)
    (hinput : fd.input = events ++ rest) :
    ∃ fd', linenoise completionCallback history buf prompt fd =
        .ok (.line w, { history with lines := history.opened.dropLast }, fd') ∧
      fd'.input = rest := by
  have hnul : 0 ∉ w := fun hin => absurd (hw 0 hin).1 (by decide)
  obtain ⟨fd', hrun, hrest⟩ :=
    linenoise_pressed completionCallback h hbuf prompt (plain_typed hw) hfd
    htyped hinput (Desk.typed hw hroom history)
  rw [Desk.text_ending hnul] at hrun
  exact ⟨fd', hrun, hrest⟩

end Linenoise

end FepControl
