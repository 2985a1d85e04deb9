/-
  What holds of the line editor before every round of its loop, whatever is typed.

  `Draft` speaks of keys that change the line and read nothing.  Others do read: `ctrl-v` a byte,
  the completions and the searches whole dialogues, and the terminal may be asked for its width.
  What remains of a step then is that there is a line in the buffer, and that the input has become
  shorter at its front.

  1. **Reaches** -- the line has become a draft, and some of the input was read for that.  A step
     that reads nothing is one of this kind, and the steps compose.

  2. **Sound** -- the line is a draft, the history is one of strings that fit into the line, and
     `history_index` is an index of it.  A new line without older ones is never written back, so its
     entry is the empty one for as long as it is edited.

  3. **The history** -- what the operations on the history keep of that, and what navigation does:
     the line is written back to its entry before another one is shown.  The C string that is copied
     from an entry to the line and back is the text up to a NUL, so entries are strings always.
-/
import FepControl.Linenoise.Draft

namespace FepControl

namespace Linenoise

open Lib

/-! ## Sound -/

/-- The line has become the draft `d`, and some of the input was read. -/
structure Current.Reaches (current : Current) (d : Draft) (current' : Current) : Prop where
  shows : current'.Shows d
  bufmax : current'.bufmax = current.bufmax
  prompt : current'.prompt = current.prompt
  reads : current.fd.Reads current'.fd

/-- What is left of the input is its end. -/
theorem Current.Reaches.input {c c' : Current} {d : Draft} (h : c.Reaches d c') :
    c'.fd.input <:+ c.fd.input := h.reads.input

/-- The entries are strings that fit into the line buffer, and they fit into the array. -/
structure History.Sound (bufmax : Int) (history : History) : Prop where
  pos : 0 < history.max_len
  fits : history.lines.length ≤ history.max_len
  strings : ∀ line ∈ history.lines, 0 ∉ line
  short : ∀ line ∈ history.lines, (line.length : Int) < bufmax

/-- The history is sound when the process starts. -/
theorem History.initial_sound : History.initial.Sound LINENOISE_MAX_LINE where
  pos := by decide
  fits := Nat.zero_le _
  strings := fun _ h => absurd h List.not_mem_nil
  short := fun _ h => absurd h List.not_mem_nil

/-- What holds before every round of the loop; a new line without older ones is never written to
    its entry. -/
structure Editor.Sound (e : Editor) : Prop where
  shows : ∃ d, e.current.Shows d
  history : e.history.Sound e.current.bufmax
  index : 0 ≤ e.history_index ∧ e.history_index < e.history.len
  alone : e.history.len ≤ 1 → e.history.lines = [[]]

section Sound

variable {c c' c'' : Current} {d d' : Draft}

/-- A step that reads nothing. -/
theorem Current.Turns.reaches (h : c.Turns d c') : c.Reaches d c' :=
  ⟨h.shows, h.bufmax, h.prompt, .of_same h.input h.ws_col⟩

/-- Two steps, one after the other. -/
theorem Current.Reaches.trans (h : c.Reaches d c') (h' : c'.Reaches d' c'') : c.Reaches d' c'' :=
  ⟨h'.shows, h'.bufmax.trans h.bufmax, h'.prompt.trans h.prompt, h.reads.trans h'.reads⟩

/-- A read changes nothing about the line. -/
theorem Current.Shows.reads (h : c.Shows d) {fd : Terminal} (hfd : c.fd.Reads fd) :
    c.Reaches d { c with fd } := by
  refine ⟨⟨⟨?_, ?_, ?_, ?_, ?_, ?_⟩, h.capture⟩, rfl, rfl, hfd⟩
  · exact h.holds.buf
  · exact h.holds.room
  · exact h.holds.len
  · exact h.holds.chars
  · exact h.holds.pos
  · exact h.holds.sized

/-- A step that does nothing. -/
theorem Current.Shows.reaches (h : c.Shows d) : c.Reaches d c :=
  h.turns.reaches

/-- There is room for the terminating NUL. -/
theorem Current.Shows.bufmax_pos (h : c.Shows d) : 0 < c.bufmax := by
  have := h.holds.room
  omega

/-- A string put into the line, with the cursor behind it. -/
theorem set_current_turns (h : c.Shows d) {str : List UInt8} (hstr : 0 ∉ str) :
    ∃ c', set_current c str = .ok c' ∧
      c.Turns { d with zipper := .atEnd (str.take (c.bufmax - 1).toNat) } c' := by
  obtain ⟨c', hrun, hc', -⟩ := set_current_holds h.holds.length_buf h.bufmax_pos h.holds.sized hstr
  exact ⟨c', hrun, h.turns_of hc'⟩

/-- What fits into the line is not cut. -/
theorem take_of_short {str : List UInt8} {bufmax : Int} (h : (str.length : Int) < bufmax) :
    str.take (bufmax - 1).toNat = str := List.take_of_length_le (by omega)

/-- Where `ctrl-v` finds no room it does nothing; else it inserts the next byte as it is. -/
theorem quotedInsert_reaches (h : c.Shows d) (ctrlV : UInt8) :
    ∃ d' c', quotedInsert ctrlV c = .ok c' ∧ c.Reaches d' c' := by
  rw [quotedInsert]
  by_cases hroom : has_room c 3 = true
  · rw [if_pos hroom]
    have hfits : (d.zipper.text.length : Int) + 2 < c.bufmax := by
      have := of_decide_eq_true hroom
      rw [h.holds.len] at this
      omega
    obtain ⟨ret, c₁, hinsert, hret, h₁⟩ := insert_char_cursor h.holds hfits ctrlV
    obtain ⟨c₂, hrefresh, h₂⟩ := refreshLine_turns (h.turns_of h₁) c₁.prompt
    have h₃ := h₂.shows.reads (fd_read_reads c₂.fd).1
    -- the `^V` stands before the cursor, and goes again
    have hpos : c₂.pos - 1 = d.zipper.before.length := by
      rw [h₂.holds.pos, Zipper.insert, Zipper.insertAll, List.length_append,
        List.length_singleton]
      omega
    have hlast : (d.zipper.insert ctrlV).before = d.zipper.before ++ ctrlV :: [] := rfl
    obtain ⟨ret', c₄, hremove, -, h₄⟩ := remove_char_before h₃.shows.holds hlast
    have h₄ := h₂.reaches.trans (h₃.trans (h₃.shows.turns_of h₄).reaches)
    simp only [hinsert, ok_bind, if_neg hret, hrefresh, hpos, hremove]
    cases (fd_read c₂.fd).1 with
    | eof =>
      obtain ⟨c₅, hlast, h₅⟩ := refreshLine_turns h₄.shows.turns c₄.prompt
      exact ⟨_, c₅, hlast, h₄.trans h₅.reaches⟩
    | special s =>
      obtain ⟨c₅, hlast, h₅⟩ := refreshLine_turns h₄.shows.turns c₄.prompt
      exact ⟨_, c₅, hlast, h₄.trans h₅.reaches⟩
    | char ch =>
      obtain ⟨ret'', c₅, hinsert', h₅⟩ := insert_turns h₄.shows ch
      obtain ⟨c₆, hlast, h₆⟩ := refreshLine_turns h₅ c₅.prompt
      simp only [hinsert', ok_bind]
      exact ⟨_, c₆, hlast, h₄.trans h₆.reaches⟩
  · rw [if_neg hroom]
    exact ⟨d, c, rfl, h.reaches⟩

/-! ### The history -/

/-- An entry is there, and it is a string that fits. -/
theorem History.Sound.get {bufmax : Int} {history : History} (h : history.Sound bufmax) {i : Int}
    (hi : 0 ≤ i ∧ i < history.len) :
    ∃ line, history.get i = .ok line ∧ line ∈ history.lines ∧ 0 ∉ line ∧
      (line.length : Int) < bufmax := by
  have hlt : i.toNat < history.lines.length := by
    have := hi.2
    rw [History.len] at this
    omega
  have hmem : history.lines[i.toNat] ∈ history.lines := List.getElem_mem hlt
  refine ⟨history.lines[i.toNat], ?_, hmem, h.strings _ hmem, h.short _ hmem⟩
  rw [History.get, if_pos hi.1, List.getElem?_eq_getElem hlt, checked_some]

/-- The history after the line was written back to the entry it was taken from. -/
def History.replaced (history : History) (i : Int) (line : List UInt8) : History :=
  { history with lines := history.lines.set i.toNat line }

/-- Writing an entry. -/
theorem History.set_ok {history : History} {i : Int} (hi : 0 ≤ i ∧ i < history.len)
    (line : List UInt8) : history.set i line = .ok (history.replaced i line) := by
  rw [History.set, if_pos hi]
  rfl

/-- There are as many entries as before. -/
theorem History.len_replaced (history : History) (i : Int) (line : List UInt8) :
    (history.replaced i line).len = history.len := by
  rw [History.len, History.replaced, List.length_set, History.len]

/-- The history remains sound if the string fits. -/
theorem History.Sound.replaced {bufmax : Int} {history : History} (h : history.Sound bufmax)
    (i : Int) {line : List UInt8} (hline : 0 ∉ line) (hshort : (line.length : Int) < bufmax) :
    (history.replaced i line).Sound bufmax where
  pos := h.pos
  fits := by rw [History.replaced, List.length_set]; exact h.fits
  strings := by
    intro l hl
    rcases List.mem_or_eq_of_mem_set hl with hl | rfl
    · exact h.strings l hl
    · exact hline
  short := by
    intro l hl
    rcases List.mem_or_eq_of_mem_set hl with hl | rfl
    · exact h.short l hl
    · exact hshort

/-- So it does without its last entry. -/
theorem History.Sound.pop {bufmax : Int} {history : History} (h : history.Sound bufmax)
    (hne : history.lines ≠ []) : ∃ history', history.pop = .ok history' ∧
      history'.Sound bufmax ∧ history'.lines = history.lines.dropLast := by
  refine ⟨{ history with lines := history.lines.dropLast }, ?_, ⟨h.pos, ?_, ?_, ?_⟩, rfl⟩
  · rw [History.pop, if_neg hne]
    rfl
  · have := h.fits
    show history.lines.dropLast.length ≤ history.max_len
    rw [List.length_dropLast]
    omega
  · exact fun line hl => h.strings line ((List.dropLast_sublist _).subset hl)
  · exact fun line hl => h.short line ((List.dropLast_sublist _).subset hl)

/-- And with a new one. -/
theorem History.Sound.add {bufmax : Int} {history : History} (h : history.Sound bufmax)
    {line : List UInt8} (hline : 0 ∉ line) (hshort : (line.length : Int) < bufmax) :
    ({ history with lines := history.added line } : History).Sound bufmax where
  pos := h.pos
  fits := History.length_added h.pos h.fits line
  strings := by
    intro l hl
    rcases History.mem_added hl with hl | rfl
    · exact h.strings l hl
    · exact hline
  short := by
    intro l hl
    rcases History.mem_added hl with hl | rfl
    · exact h.short l hl
    · exact hshort

/-- There is an entry, the one that is edited. -/
theorem Editor.Sound.lines_ne {e : Editor} (h : e.Sound) : e.history.lines ≠ [] := by
  intro hnil
  have := h.index
  rw [History.len, hnil, List.length_nil] at this
  omega

/-- The text of the line as a string. -/
theorem Current.Shows.string (h : c.Shows d) :
    cString 0 c.buf = .some (d.zipper.text.takeWhile (· ≠ 0)) ∧
      0 ∉ d.zipper.text.takeWhile (· ≠ 0) ∧
      ((d.zipper.text.takeWhile (· ≠ 0)).length : Int) < c.bufmax := by
  refine ⟨h.holds.cString, (takeWhile_nul 0 _).1, ?_⟩
  have := (List.takeWhile_sublist (l := d.zipper.text) fun x => decide (x ≠ 0)).length_le
  have := h.holds.room
  omega

/-- Where navigation leads to, from the entry `i` of `n`; at the ends it stays. -/
def navigated (i dir n : Int) : Int :=
  if i + dir < 0 then 0 else if i + dir ≥ n then n - 1 else i + dir

/-- **Navigation** writes the line back to its entry, and shows the entry it leads to. -/
theorem historyNavigation_ok {e : Editor} (h : e.Sound) {d : Draft} (hd : e.current.Shows d)
    (dir : Int) (hmany : e.history.len > 1) :
    ∃ c' d', e.current.Turns d' c' ∧
      historyNavigation dir e = .ok
        { current := c'
          history := e.history.replaced (e.history.len - 1 - e.history_index)
            (d.zipper.text.takeWhile (· ≠ 0))
          history_index := navigated e.history_index dir e.history.len } ∧
      if 0 ≤ e.history_index + dir ∧ e.history_index + dir < e.history.len then
        ∃ entry, (e.history.replaced (e.history.len - 1 - e.history_index)
            (d.zipper.text.takeWhile (· ≠ 0))).get (e.history.len - 1 - (e.history_index + dir)) =
              .ok entry ∧ d' = { d with zipper := .atEnd entry }
      else d' = d := by
  obtain ⟨hstring, hnul, hshort⟩ := hd.string
  have hindex := h.index
  have hi : 0 ≤ e.history.len - 1 - e.history_index ∧
      e.history.len - 1 - e.history_index < e.history.len := by omega
  have hsound := h.history.replaced (e.history.len - 1 - e.history_index) hnul hshort
  have hlen := e.history.len_replaced (e.history.len - 1 - e.history_index)
    (d.zipper.text.takeWhile (· ≠ 0))
  rw [historyNavigation, if_pos hmany, hstring, checked_some, ok_bind, History.set_ok hi, ok_bind,
    navigated]
  by_cases hneg : e.history_index + dir < 0
  · refine ⟨e.current, d, hd.turns, ?_, ?_⟩
    · simp only [if_pos hneg]
      rfl
    · rw [if_neg (by omega)]
  · by_cases hend : e.history_index + dir ≥ e.history.len
    · refine ⟨e.current, d, hd.turns, ?_, ?_⟩
      · simp only [if_neg hneg, hlen, if_pos hend]
        rfl
      · rw [if_neg (by omega)]
    · obtain ⟨entry, hget, -, hentry, hentryShort⟩ :=
        hsound.get (i := e.history.len - 1 - (e.history_index + dir)) (by rw [hlen]; omega)
      obtain ⟨c₁, hset, h₁⟩ := set_current_turns hd hentry
      obtain ⟨c₂, hrefresh, h₂⟩ := refreshLine_turns h₁ c₁.prompt
      rw [take_of_short hentryShort] at h₂
      refine ⟨c₂, _, h₂, ?_, ?_⟩
      · simp only [if_neg hneg, hlen, if_neg hend, hget, ok_bind, hset, hrefresh]
        rfl
      · rw [if_pos (by omega)]
        exact ⟨entry, hget, rfl⟩

/-- **Navigation stays inside the history**, and keeps the editor sound. -/
theorem historyNavigation_sound {e : Editor} (h : e.Sound) (dir : Int) :
    ∃ e' d', historyNavigation dir e = .ok e' ∧ e'.Sound ∧ e'.history.len = e.history.len ∧
      e.current.Reaches d' e'.current := by
  obtain ⟨d, hd⟩ := h.shows
  by_cases hmany : e.history.len > 1
  · obtain ⟨c', d', hturns, hrun, -⟩ := historyNavigation_ok h hd dir hmany
    obtain ⟨-, hnul, hshort⟩ := hd.string
    refine ⟨_, d', hrun, ⟨⟨d', hturns.shows⟩, ?_, ?_, ?_⟩, ?_, hturns.reaches⟩
    · show History.Sound c'.bufmax _
      rw [hturns.bufmax]
      exact h.history.replaced _ hnul hshort
    · show 0 ≤ navigated _ _ _ ∧ navigated _ _ _ < (History.replaced _ _ _).len
      rw [History.len_replaced, navigated]
      have := h.index
      split
      · omega
      · split <;> omega
    · intro hone
      rw [show Editor.history _ = e.history.replaced _ _ from rfl, History.len_replaced] at hone
      omega
    · exact History.len_replaced _ _ _
  · rw [historyNavigation, if_neg hmany]
    exact ⟨e, d, rfl, h, rfl, hd.reaches⟩

end Sound

end Linenoise

end FepControl
