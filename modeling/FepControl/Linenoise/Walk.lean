/-
  The keys that go to other entries.

  The arrows up and down, with `ctrl-p` and `ctrl-n` for the same, and page up and page down walk
  through the history.  Every step of such a walk writes the draft back to its entry first; so a
  walk that edits nothing should leave the history as it was, and end with the entry that one would
  count to.

  1. **Steps** -- from the new line up and down again, to the oldest entry and back; at the ends
     there is no further step (`Label.walk`).  The entries are counted from the newest one.

  2. **At** -- the desk shows the entry `i` of some entries, and writing it back gives these entries
     again.  A step keeps that, with the entry that it goes to (`Desk.At.press`); what is written
     back is what was shown, since entries are strings without a NUL.

  3. **Walking** -- it changes no entry, and enter returns the one that is shown
     (`linenoise_walks`).  The new line takes part in it with the text that was typed before.
-/
import FepControl.Linenoise.Typing
import Mathlib.Data.List.GetD

namespace FepControl

namespace Linenoise

open Lib

/-! ## Steps -/

/-- The key goes to another entry. -/
def Key.navigates (key : Key) : Bool :=
  match labelOf key with
  | .up | .down | .pageUp | .pageDown => true
  | _ => false

/-- Where a key goes from the entry `i` of `n`, counted from the newest one. -/
def Label.walk (n i : Nat) : Label → Nat
  | .up => min (i + 1) (n - 1)
  | .down => i - 1
  | .pageUp => n - 1
  | .pageDown => 0
  | _ => i

/-- Where some keys go from the new line. -/
def walk (n : Nat) (keys : List Key) : Nat := keys.foldl (fun i key => (labelOf key).walk n i) 0

/-- The desk shows the entry `i` of `entries` as it is. -/
structure Desk.At (entries : List (List UInt8)) (k : Desk) (i : Nat) : Prop where
  saved : k.saved = entries
  length : k.lines.length = entries.length
  older : k.lines.dropLast = entries.dropLast
  index : k.index = i ∧ i < entries.length
  text : k.draft.zipper.text = entries.getD (entries.length - 1 - i) []

/-- To put an entry where it is changes nothing. -/
theorem set_getD (entries : List (List UInt8)) (i : Nat) :
    entries.set i (entries.getD i []) = entries := by
  by_cases hi : i < entries.length
  · rw [List.getD_eq_getElem _ _ hi, List.set_getElem_self]
  · exact List.set_eq_of_length_le (by omega)

/-- An entry of strings is a string. -/
theorem not_mem_getD {entries : List (List UInt8)} (h : ∀ line ∈ entries, 0 ∉ line) (n : Nat) :
    0 ∉ entries.getD n [] := by
  rw [List.getD_eq_getElem?_getD]
  cases hline : entries[n]? with
  | none => exact List.not_mem_nil
  | some line => exact h line (List.mem_of_getElem? hline)

/-- **A step** to another entry leaves all of them as they are. -/
theorem Desk.At.navigate {entries : List (List UInt8)} (hentries : ∀ line ∈ entries, 0 ∉ line)
    {k : Desk} {i : Nat} (h : k.At entries i) {dir : Int} {j : Nat} (hj : j < entries.length)
    (hgo : 0 ≤ (i : Int) + dir ∧ (i : Int) + dir < entries.length → (j : Int) = i + dir)
    (hstay : ¬ (0 ≤ (i : Int) + dir ∧ (i : Int) + dir < entries.length) →
      j = i ∧ (navigated i dir entries.length).toNat = i) : (k.navigate dir).At entries j := by
  obtain ⟨hindex, hi⟩ := h.index
  have hclean : ∀ n, (entries.getD n []).takeWhile (· ≠ 0) = entries.getD n [] :=
    fun n => takeWhile_of_not_mem (not_mem_getD hentries n)
  rw [Desk.navigate, h.length, h.saved, hindex]
  by_cases hone : entries.length ≤ 1
  · obtain rfl : j = i := by omega
    rw [if_pos hone]
    exact h
  · rw [if_neg hone]
    by_cases hin : 0 ≤ (i : Int) + dir ∧ (i : Int) + dir < entries.length
    · have hto : (navigated i dir entries.length).toNat = j := by
        have := hgo hin
        rw [navigated, if_neg (by omega), if_neg (by omega)]
        omega
      simp only [if_pos hin, hto]
      refine ⟨?_, rfl, rfl, ⟨rfl, hj⟩, List.append_nil _⟩
      have htext : (entries.getD (entries.length - 1 - j) [] ++ []).takeWhile (· ≠ 0) =
          entries.getD (entries.length - 1 - j) [] := by rw [List.append_nil, hclean]
      show entries.set (entries.length - 1 - j)
        ((entries.getD (entries.length - 1 - j) [] ++ []).takeWhile (· ≠ 0)) = entries
      rw [htext, set_getD]
    · obtain ⟨rfl, hto⟩ := hstay hin
      simp only [if_neg hin, hto]
      refine ⟨?_, rfl, rfl, ⟨rfl, hj⟩, h.text⟩
      show entries.set (entries.length - 1 - j) (k.draft.zipper.text.takeWhile (· ≠ 0)) = entries
      rw [h.text, hclean, set_getD]

/-- **A key that walks.** -/
theorem Desk.At.press {entries : List (List UInt8)} (hentries : ∀ line ∈ entries, 0 ∉ line)
    {k : Desk} {i : Nat} (h : k.At entries i) {key : Key} (hkey : key.navigates = true)
    (bufmax : Int) : (k.press bufmax key).At entries ((labelOf key).walk entries.length i) := by
  obtain ⟨hindex, hi⟩ := h.index
  rw [Key.navigates] at hkey
  rw [Desk.press]
  generalize labelOf key = l at hkey
  cases l with
  | up =>
    refine h.navigate hentries ?_ ?_ ?_
    · show min (i + 1) (entries.length - 1) < _
      omega
    · intro hin
      show ((min (i + 1) (entries.length - 1) : Nat) : Int) = i + 1
      omega
    · intro hout
      show min (i + 1) (entries.length - 1) = i ∧ _
      rw [navigated, if_neg (by omega), if_pos (by omega)]
      omega
  | down =>
    refine h.navigate hentries ?_ ?_ ?_
    · show i - 1 < _
      omega
    · intro hin
      show ((i - 1 : Nat) : Int) = i + -1
      omega
    · intro hout
      show i - 1 = i ∧ _
      rw [navigated, if_pos (by omega)]
      omega
  | pageUp =>
    rw [h.length, hindex]
    refine h.navigate hentries ?_ ?_ ?_
    · show entries.length - 1 < _
      omega
    · intro hin
      show ((entries.length - 1 : Nat) : Int) = i + (entries.length - i - 1)
      omega
    · intro hout
      omega
  | pageDown =>
    rw [hindex]
    refine h.navigate hentries ?_ ?_ ?_
    · show 0 < _
      omega
    · intro hin
      show ((0 : Nat) : Int) = i + -i
      omega
    · intro hout
      omega
  | _ => cases hkey

/-- **Some keys that walk.** -/
theorem Desk.At.presses {entries : List (List UInt8)} (hentries : ∀ line ∈ entries, 0 ∉ line)
    (bufmax : Int) : ∀ (keys : List Key) {k : Desk} {i : Nat}, k.At entries i →
      (∀ key ∈ keys, key.navigates = true) → (keys.foldl (Desk.press bufmax) k).At entries
        (keys.foldl (fun i key => (labelOf key).walk entries.length i) i)
  | [], _, _, h, _ => h
  | key :: keys, _, _, h, hkeys =>
      Desk.At.presses hentries bufmax keys (h.press hentries (hkeys key List.mem_cons_self) bufmax)
        fun key' hin => hkeys key' (List.mem_cons_of_mem key hin)

/-! ## Walking -/

/-- A key that walks neither ends the line nor starts a dialogue. -/
theorem Key.plain_of_navigates {key : Key} (h : key.navigates = true) : key.plain = true := by
  cases key with
  | eof => cases h
  | special s => rfl
  | char c =>
    rw [Key.navigates] at h
    have htab : c ≠ byte '\t' := by
      rintro rfl
      cases h
    have hlabel : (labelOfChar c).plain = true := by
      rw [show labelOf (.char c) = labelOfChar c from rfl] at h
      generalize labelOfChar c = l at h
      cases l <;> first | rfl | cases h
    simp only [Key.plain, Bool.and_eq_true, bne_iff_ne]
    exact ⟨htab, hlabel⟩

/-- The new line is the last of the entries. -/
theorem History.opened_eq (history : History) :
    history.opened = history.opened.dropLast ++ [[]] := by
  obtain ⟨ys, hys⟩ := List.getLast?_eq_some_iff.mp (history.getLast?_added [])
  rw [History.opened, hys, List.dropLast_concat]

/-- The new line with a text that was typed. -/
theorem Desk.at_typed {history : History} {w : List UInt8} (hw : 0 ∉ w) :
    ((Desk.start history).ending w).At (history.opened.dropLast ++ [w]) 0 := by
  have hlines : ((Desk.start history).ending w).lines = history.opened.dropLast ++ [[]] :=
    history.opened_eq
  have hlength : (history.opened.dropLast ++ [w]).length = history.opened.dropLast.length + 1 := by
    rw [List.length_append, List.length_singleton]
  have htext : ((Desk.start history).ending w).draft.zipper.text = w := List.append_nil w
  refine ⟨?_, ?_, ?_, ⟨rfl, by omega⟩, ?_⟩
  · rw [Desk.saved, Desk.text_ending hw, hlines, List.length_append, List.length_singleton]
    show (_ ++ [[]]).set (history.opened.dropLast.length + 1 - 1 - 0) w = _
    rw [Nat.add_sub_cancel, Nat.sub_zero, List.set_append_right _ _ (Nat.le_refl _), Nat.sub_self]
    rfl
  · rw [hlines, hlength, List.length_append, List.length_singleton]
  · rw [hlines, List.dropLast_concat, List.dropLast_concat]
  · rw [htext, hlength, Nat.add_sub_cancel, Nat.sub_zero,
      List.getD_append_right _ _ _ _ (Nat.le_refl _), Nat.sub_self]
    rfl

/-- The text that was typed, then the entries from the newest one on. -/
theorem getD_newest (older : List (List UInt8)) (w : List UInt8) {i : Nat} (hi : i ≤ older.length) :
    (older ++ [w]).getD (older.length - i) [] = (w :: older.reverse).getD i [] := by
  cases i with
  | zero =>
    rw [Nat.sub_zero, List.getD_append_right _ _ _ _ (Nat.le_refl _), Nat.sub_self]
    rfl
  | succ i =>
    rw [List.getD_cons_succ, List.getD_append _ _ _ _ (by omega), List.getD_eq_getElem?_getD,
      List.getD_eq_getElem?_getD, List.getElem?_reverse (by omega)]
    congr 2
    omega

/-- The entries are strings. -/
theorem History.strings_older {history : History} (h : ∀ line ∈ history.lines, 0 ∉ line) :
    ∀ line ∈ history.opened.dropLast, 0 ∉ line := by
  intro line hin
  rcases History.mem_added (List.dropLast_subset _ hin) with hin | rfl
  · exact h line hin
  · exact List.not_mem_nil

/-- **Walking at the desk**: a text, and keys that go to other entries. -/
theorem Desk.walked {history : History} {w : List UInt8} (hw : ∀ c ∈ w, Printable c)
    (hroom : w.length + 1 < LINENOISE_MAX_LINE) {keys : List Key}
    (hkeys : ∀ key ∈ keys, key.navigates = true) (hold : ∀ line ∈ history.lines, 0 ∉ line) :
    ((w.map Key.char ++ keys).foldl (Desk.press LINENOISE_MAX_LINE) (Desk.start history)).At
      (history.opened.dropLast ++ [w]) (walk history.opened.length keys) := by
  have hnul : 0 ∉ w := fun hin => absurd (hw 0 hin).1 (by decide)
  have hclean : ∀ line ∈ history.opened.dropLast ++ [w], 0 ∉ line := by
    intro line hin
    rcases List.mem_append.mp hin with hin | hin
    · exact History.strings_older hold line hin
    · rw [List.mem_singleton.mp hin]
      exact hnul
  have hlength : (history.opened.dropLast ++ [w]).length = history.opened.length := by
    have hlen := congrArg List.length history.opened_eq
    rw [List.length_append, List.length_singleton] at hlen ⊢
    exact hlen.symm
  have hstart : ((Desk.start history).ending w).At (history.opened.dropLast ++ [w]) 0 :=
    Desk.at_typed hnul
  have h := hstart.presses hclean LINENOISE_MAX_LINE keys hkeys
  rw [hlength] at h
  rw [List.foldl_append, Desk.typed hw hroom]
  exact h

/-- **Walking**: a text is typed, and some keys pressed that go to other entries.  Enter returns the
    entry that is shown then, the text being the newest one; the history is the one before. -/
theorem linenoise_walks (completionCallback : Option Callback) {history : History}
    (h : history.Sound LINENOISE_MAX_LINE) {buf : List UInt8}
    (hbuf : buf.length = LINENOISE_MAX_LINE) (prompt : List UInt8) {w : List UInt8}
    (hw : ∀ c ∈ w, Printable c) (hroom : w.length + 1 < LINENOISE_MAX_LINE) {keys : List Key}
    (hkeys : ∀ key ∈ keys, key.navigates = true) {fd : Terminal} (hfd : fd.Reports)
    {events rest : List Event}
    (htyped : Typed (w.map .char ++ keys ++ [.char (byte '\r')]) events)
    (hinput : fd.input = events ++ rest) :
    ∃ fd', linenoise completionCallback history buf prompt fd =
        .ok (.line ((w :: history.opened.dropLast.reverse).getD
            (walk history.opened.length keys) []),
          { history with lines := history.opened.dropLast }, fd') ∧ fd'.input = rest := by
  have hat := Desk.walked hw hroom hkeys h.strings
  have hplain : ∀ key ∈ w.map Key.char ++ keys, key.plain = true := by
    intro key hin
    rcases List.mem_append.mp hin with hin | hin
    · exact plain_typed hw key hin
    · exact Key.plain_of_navigates (hkeys key hin)
  obtain ⟨fd', hrun, hrest⟩ :=
    linenoise_pressed completionCallback h hbuf prompt hplain hfd htyped hinput rfl
  have hshown := hat.text
  have hindex := hat.index.2
  rw [List.length_append, List.length_singleton] at hshown hindex
  rw [Nat.add_sub_cancel, getD_newest _ _ (Nat.le_of_lt_succ hindex)] at hshown
  have hclean :
      0 ∉ (w :: history.opened.dropLast.reverse).getD (walk history.opened.length keys) [] := by
    refine not_mem_getD (fun line hin => ?_) _
    rcases List.mem_cons.mp hin with rfl | hin
    · exact fun hnul => absurd (hw 0 hnul).1 (by decide)
    · exact History.strings_older h.strings line (List.mem_reverse.mp hin)
  refine ⟨fd', ?_, hrest⟩
  rw [hrun, Desk.text_of_clean (by rw [hshown]; exact hclean), hshown, hat.older,
    List.dropLast_concat]

/-- Two lines were read before. -/
def twoLines : History := ⟨[bytes "help", bytes "exit"], 100⟩

/-- The history with the two lines is sound. -/
theorem twoLines_sound : twoLines.Sound LINENOISE_MAX_LINE :=
  ⟨by decide, by decide, by decide, by decide⟩

/-- The keys to the oldest entry, and one down again. -/
def upAndDown : List Key := [.special .SPECIAL_PAGE_UP, .char (ctrl 'N')]

/-- Up to an entry and down again, from a line with one letter. -/
theorem linenoise_walks_down : ∃ fd',
    linenoise none twoLines (List.replicate 4096 0) (bytes "fep> ")
        (.typing ([byte 's'].map .char ++ upAndDown ++ [.char (byte '\r')])) =
      .ok (.line (bytes "exit"), twoLines, fd') ∧ fd'.input = [] := by
  have hprintable : ∀ c ∈ [byte 's'], Printable c := List.forall_mem_singleton.mpr (by decide)
  have hkeys : ∀ key ∈ upAndDown, key.navigates = true := by decide
  exact linenoise_walks none twoLines_sound List.length_replicate (bytes "fep> ") hprintable
    (by decide) hkeys (Terminal.typing_reports _) (typed_events _) (Terminal.typing_input _)

end Linenoise

end FepControl
