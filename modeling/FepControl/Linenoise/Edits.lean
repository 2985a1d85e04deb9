/-
  What two keys do to a line, whatever was typed before.

  The desk has a meaning for every key, but not every meaning is what the key is for.  `ctrl-t`
  should make two characters change places, and `ctrl-y` should bring back what was cut.  Both
  insert, and an insertion is made only if there is room for the character and one more.

  1. **Keys** -- after any keys that neither end the line nor start a dialogue, enter returns the
     text of the desk (`linenoise_presses`).  None of them brings in a NUL, which would end the line
     early.

  2. **ctrl-t** -- two characters change places, but for two cases in which one is lost: behind a
     single character, and in a line that is full (`linenoise_transposes`).  The branch removes the
     character and inserts it again, and asks whether it may only then.

  3. **What is cut** -- `ctrl-w`, `ctrl-u` and `ctrl-k` put what they take away into the cut buffer,
     if that is anything, and no other key changes the buffer (`press_cut`).

  4. **ctrl-y** -- it puts in what was cut last, wherever the cursor is by then.  Directly behind
     the cut, the line is what it was, exactly if it leaves room for one character more
     (`put_back_iff`).
-/
import FepControl.Linenoise.Letters

namespace FepControl

namespace Linenoise

open Lib

/-! ## Keys -/

/-- No key brings in a NUL. -/
theorem Key.over_nul (key : Key) : key.Over (· ≠ 0) := by
  intro _ _ hc hzero
  rw [hzero] at hc
  exact absurd hc (by decide)

/-- There is no NUL at the desk if there is none in the history. -/
theorem Desk.start_clean {history : History} (h : ∀ line ∈ history.lines, 0 ∉ line) :
    (Desk.start history).Over (· ≠ 0) :=
  Desk.start_over fun line hline _ hc hzero => h line hline (hzero ▸ hc)

/-- A text without a NUL is written back whole. -/
theorem Desk.Over.text_eq {k : Desk} (h : k.Over (· ≠ 0)) : k.text = k.draft.zipper.text :=
  Desk.text_of_clean fun hin => h.draft.text 0 hin rfl

section Keys

variable (completionCallback : Option Callback) {history : History} {buf : List UInt8}

/-- **Keys that are pressed**: enter returns the text of the desk, all of it. -/
theorem linenoise_presses (h : history.Sound LINENOISE_MAX_LINE)
    (hbuf : buf.length = LINENOISE_MAX_LINE) (prompt : List UInt8) {keys : List Key}
    (hkeys : ∀ key ∈ keys, key.plain = true) {fd : Terminal} (hfd : fd.Reports)
    {events rest : List Event} (htyped : Typed (keys ++ [.char (byte '\r')]) events)
    (hinput : fd.input = events ++ rest) {k : Desk}
    (hk : keys.foldl (Desk.press LINENOISE_MAX_LINE) (.start history) = k) :
    ∃ fd', linenoise completionCallback history buf prompt fd =
        .ok (.line k.draft.zipper.text, { history with lines := k.lines.dropLast }, fd') ∧
      fd'.input = rest := by
  have hover : k.Over (· ≠ 0) := by
    rw [← hk]
    exact (Desk.start_clean h.strings).presses fun key _ => key.over_nul
  obtain ⟨fd', hrun, hrest⟩ :=
    linenoise_pressed completionCallback h hbuf prompt hkeys hfd htyped hinput hk
  rw [hover.text_eq] at hrun
  exact ⟨fd', hrun, hrest⟩

end Keys

/-! ## ctrl-t -/

/-- The characters that change places: those around the cursor, or the last two behind which it
    stands. -/
structure Draft.Swaps (d : Draft) (xs : List UInt8) (x y : UInt8) (ys : List UInt8) : Prop where
  text : d.zipper.text = xs ++ [x, y] ++ ys
  cursor : d.zipper.before = xs ++ [x] ∨ (d.zipper.before = xs ++ [x, y] ∧ ys = [])

/-- They stand around the cursor once it stepped back from the end. -/
theorem Draft.Swaps.transposed {d : Draft} {xs ys : List UInt8} {x y : UInt8}
    (h : d.Swaps xs x y ys) : d.transposed = ⟨xs ++ [x], y :: ys⟩ := by
  have htext := h.text
  rw [Zipper.text] at htext
  rw [Draft.transposed]
  rcases h.cursor with hbefore | ⟨hbefore, rfl⟩
  · have hafter : d.zipper.after = y :: ys := by
      rw [hbefore] at htext
      simpa using htext
    rw [if_neg (by rw [hafter]; exact List.cons_ne_nil y ys), ← hbefore, ← hafter]
  · have hafter : d.zipper.after = [] := by
      rw [hbefore, List.append_nil] at htext
      exact List.append_right_eq_self.mp htext
    have hend : d.zipper = .atEnd ((xs ++ [x]) ++ [y]) := by
      rw [Zipper.atEnd, List.append_assoc, List.singleton_append, ← hbefore, ← hafter]
    rw [if_pos hafter, hend, Zipper.left_atEnd]

/-- **Two characters**: they change places, or the second one is lost. -/
theorem Draft.Swaps.transpose_text {d : Draft} {xs ys : List UInt8} {x y : UInt8}
    (h : d.Swaps xs x y ys) (bufmax : Nat) : (d.transpose bufmax).zipper.text =
      if d.zipper.text.length + 1 < bufmax then xs ++ [y, x] ++ ys else xs ++ [x] ++ ys := by
  have hbefore : d.zipper.before ≠ [] := by
    rcases h.cursor with hbefore | ⟨hbefore, -⟩ <;> rw [hbefore] <;> simp
  have htext : d.transposed.text = d.zipper.text := Draft.Over.transposed_text d
  have hroom : (d.transposed.before ≠ [] ∧ (d.transposed.text.length : Int) + 1 < (bufmax : Int)) ↔
      d.zipper.text.length + 1 < bufmax := by
    rw [htext, h.transposed, and_iff_right (by simp)]
    omega
  rw [Draft.transpose, if_neg hbefore]
  by_cases hfits : d.zipper.text.length + 1 < bufmax
  · rw [if_pos (hroom.mpr hfits), if_pos hfits, h.transposed]
    simp [Zipper.transpose, Zipper.text]
  · rw [if_neg (mt hroom.mp hfits), if_neg hfits, h.transposed]
    simp [Zipper.removeAfter, Zipper.text]

/-- **Behind a single character** it is lost. -/
theorem Draft.transpose_single {d : Draft} {x : UInt8} (hbefore : d.zipper.before = [x])
    (hafter : d.zipper.after = []) (bufmax : Int) : (d.transpose bufmax).zipper.text = [] := by
  have hend : d.zipper = .atEnd ([] ++ [x]) := by
    rw [Zipper.atEnd, List.nil_append, ← hbefore, ← hafter]
  have htransposed : d.transposed = ⟨[], [x]⟩ := by
    rw [Draft.transposed, if_pos hafter, hend, Zipper.left_atEnd]
  rw [Draft.transpose, if_neg (by rw [hbefore]; exact List.cons_ne_nil x []), htransposed,
    if_neg fun h => h.1 rfl]
  rfl

section Lines

variable (completionCallback : Option Callback) {history : History} {buf : List UInt8}

/-- The keys and one more. -/
theorem foldl_press_concat (keys : List Key) (key : Key) (k : Desk) :
    (keys ++ [key]).foldl (Desk.press LINENOISE_MAX_LINE) k =
      (keys.foldl (Desk.press LINENOISE_MAX_LINE) k).press LINENOISE_MAX_LINE key := by
  rw [List.foldl_append]
  rfl

/-- Such keys, and one more. -/
theorem plain_concat {keys : List Key} (hkeys : ∀ key ∈ keys, key.plain = true) {key : Key}
    (hkey : key.plain = true) : ∀ key' ∈ keys ++ [key], key'.plain = true := by
  intro key' hin
  rcases List.mem_append.mp hin with hin | hin
  · exact hkeys key' hin
  · rw [List.mem_singleton.mp hin]
    exact hkey

/-- **ctrl-t** after any keys: in front of the line it does nothing, a single character is lost, and
    any other two change places, unless the line is full: then the second one is lost. -/
theorem linenoise_transposes (h : history.Sound LINENOISE_MAX_LINE)
    (hbuf : buf.length = LINENOISE_MAX_LINE) (prompt : List UInt8) {keys : List Key}
    (hkeys : ∀ key ∈ keys, key.plain = true) {fd : Terminal} (hfd : fd.Reports)
    {events rest : List Event}
    (htyped : Typed (keys ++ [.char (ctrl 'T')] ++ [.char (byte '\r')]) events)
    (hinput : fd.input = events ++ rest) {k : Desk}
    (hk : keys.foldl (Desk.press LINENOISE_MAX_LINE) (.start history) = k) :
    ∃ t fd', linenoise completionCallback history buf prompt fd =
        .ok (.line t, { history with lines := k.lines.dropLast }, fd') ∧ fd'.input = rest ∧
      (k.draft.zipper.before = [] → t = k.draft.zipper.text) ∧
      (∀ x, k.draft.zipper.before = [x] → k.draft.zipper.after = [] → t = []) ∧
      ∀ xs x y ys, k.draft.Swaps xs x y ys →
        t = if k.draft.zipper.text.length + 1 < LINENOISE_MAX_LINE then xs ++ [y, x] ++ ys
          else xs ++ [x] ++ ys := by
  have hplain := plain_concat hkeys (show (Key.char (ctrl 'T')).plain = true from rfl)
  have hpress : (keys ++ [Key.char (ctrl 'T')]).foldl (Desk.press LINENOISE_MAX_LINE)
      (.start history) = { k with draft := k.draft.transpose LINENOISE_MAX_LINE } := by
    rw [foldl_press_concat, hk]
    rfl
  obtain ⟨fd', hrun, hrest⟩ :=
    linenoise_presses completionCallback h hbuf prompt hplain hfd htyped hinput hpress
  refine ⟨_, fd', hrun, hrest, fun hbefore => ?_, fun x hbefore hafter => ?_,
    fun xs x y ys hswaps => ?_⟩
  · show (k.draft.transpose LINENOISE_MAX_LINE).zipper.text = _
    rw [Draft.transpose, if_pos hbefore]
  · exact Draft.transpose_single hbefore hafter _
  · exact hswaps.transpose_text LINENOISE_MAX_LINE

end Lines

/-- The history after one command. -/
def afterHelp : History := ⟨[bytes "help"], 100⟩

/-- The history with the one line is sound. -/
theorem afterHelp_sound : afterHelp.Sound LINENOISE_MAX_LINE :=
  ⟨by decide, by decide, by decide, by decide⟩

/-- The last command is shown again, the cursor set before its last letter, and the two letters
    around it change places. -/
theorem linenoise_transposes_help : ∃ fd',
    linenoise none afterHelp (List.replicate 4096 1) (bytes "fep> ")
        (.typing ([.special .SPECIAL_UP, .special .SPECIAL_LEFT] ++ [.char (ctrl 'T')] ++
          [.char (byte '\r')])) =
      .ok (.line (bytes "hepl"), afterHelp, fd') ∧ fd'.input = [] := by
  have hkeys : ∀ key ∈ [Key.special .SPECIAL_UP, Key.special .SPECIAL_LEFT], key.plain = true := by
    decide
  obtain ⟨t, fd', hrun, hrest, -, -, hswaps⟩ := linenoise_transposes none afterHelp_sound
    (List.length_replicate : (List.replicate 4096 (1 : UInt8)).length = LINENOISE_MAX_LINE)
    (bytes "fep> ") hkeys (Terminal.typing_reports _) (typed_events _) (Terminal.typing_input _) rfl
  obtain rfl := hswaps (bytes "he") (byte 'l') (byte 'p') [] ⟨rfl, .inl rfl⟩
  exact ⟨fd', hrun, hrest⟩

/-! ## ctrl-y -/

/-- The labels of the keys that cut. -/
def Label.cuts : Label → Bool
  | .ctrlW | .ctrlU | .ctrlK => true
  | _ => false

namespace Draft

/-- What a key takes away that cuts. -/
def removed (d : Draft) : Label → List UInt8
  | .ctrlW => d.zipper.before.drop (d.zipper.before.length - d.zipper.wordBefore (· == byte ' '))
  | .ctrlU => d.zipper.before
  | .ctrlK => d.zipper.after
  | _ => []

/-- The other keys cut nothing. -/
theorem removed_of_not_cuts (d : Draft) {l : Label} (h : l.cuts = false) : d.removed l = [] := by
  cases l with
  | ctrlW => cases h
  | ctrlU => cases h
  | ctrlK => cases h
  | _ => rfl

/-- To put in what was cut keeps it. -/
theorem yank_cut (d : Draft) (bufmax : Int) : (d.yank bufmax).cut = d.cut := by
  rw [yank]
  split
  · rfl
  · rfl

/-- So does a change of places. -/
theorem transpose_cut (d : Draft) (bufmax : Int) : (d.transpose bufmax).cut = d.cut := by
  rw [transpose]
  split
  · rfl
  · rfl

/-- What is taken away is kept, unless that is nothing. -/
theorem press_cut (d : Draft) (bufmax : Int) (key : Key) (l : Label) :
    (d.press bufmax key l).cut = if d.removed l = [] then d.cut else some (d.removed l) := by
  cases l with
  | ctrlW => rfl
  | ctrlU => rw [press, cutBefore, Nat.sub_self, List.drop_zero, removed]
  | ctrlK => rw [press, cutAfter, List.take_length, removed]
  | ctrlY => exact d.yank_cut bufmax
  | ctrlT => exact d.transpose_cut bufmax
  | other =>
    cases key with
    | char c =>
      show (if c = byte '\t' ∨ byte ' ' ≤ c then d.insertAll bufmax [c] else d).cut = d.cut
      split
      · rfl
      · rfl
    | special _ => rfl
    | eof => rfl
  | _ => rfl

/-- What is taken away stood at the cursor. -/
theorem text_of_cuts (d : Draft) (bufmax : Int) (key : Key) {l : Label} (h : l.cuts = true) :
    d.zipper.text = (d.press bufmax key l).zipper.before ++ d.removed l ++
      (d.press bufmax key l).zipper.after := by
  cases l with
  | ctrlW =>
    show d.zipper.before ++ d.zipper.after =
      d.zipper.before.take _ ++ d.zipper.before.drop _ ++ d.zipper.after
    rw [List.take_append_drop]
  | ctrlU =>
    show d.zipper.before ++ d.zipper.after =
      d.zipper.before.take (d.zipper.before.length - d.zipper.before.length) ++ d.zipper.before ++
        d.zipper.after
    rw [Nat.sub_self, List.take_zero, List.nil_append]
  | ctrlK =>
    show d.zipper.before ++ d.zipper.after =
      d.zipper.before ++ d.zipper.after ++ d.zipper.after.drop d.zipper.after.length
    rw [List.drop_length, List.append_nil]
  | _ => cases h

/-- **Yanking**: the string is inserted as far as there is room. -/
theorem yank_text {d : Draft} {s : List UInt8} (hcut : d.cut = some s) (hnul : 0 ∉ s)
    (bufmax : Nat) : (d.yank bufmax).zipper.text =
      d.zipper.before ++ s.take (bufmax - 2 - d.zipper.text.length) ++ d.zipper.after := by
  have hroom : freeRoom bufmax d.zipper = bufmax - 2 - d.zipper.text.length := by
    rw [freeRoom]
    omega
  have hyank : d.yank bufmax = d.insertAll bufmax s := by
    simp only [yank, hcut, takeWhile_of_not_mem hnul]
  rw [hyank, ← hroom]
  rfl

end Draft

namespace Desk

/-- What is taken away is kept, whatever the key. -/
theorem press_cut (k : Desk) (bufmax : Int) (key : Key) :
    (k.press bufmax key).draft.cut = if k.draft.removed (labelOf key) = [] then k.draft.cut
      else some (k.draft.removed (labelOf key)) := by
  have hnavigate : ∀ dir, (k.navigate dir).draft.cut = k.draft.cut := by
    intro dir
    rw [navigate]
    split
    · rfl
    · dsimp only
      split
      · rfl
      · rfl
  rw [press]
  generalize labelOf key = l
  cases l with
  | up => exact hnavigate _
  | down => exact hnavigate _
  | pageUp => exact hnavigate _
  | pageDown => exact hnavigate _
  | _ => exact k.draft.press_cut bufmax key _

/-- Keys that cut nothing keep what was cut. -/
theorem foldl_press_cut {keys : List Key} (h : ∀ key ∈ keys, (labelOf key).cuts = false)
    (bufmax : Int) (k : Desk) : (keys.foldl (press bufmax) k).draft.cut = k.draft.cut := by
  induction keys generalizing k with
  | nil => rfl
  | cons key keys ih =>
    have hnothing := k.draft.removed_of_not_cuts (h key List.mem_cons_self)
    rw [List.foldl_cons, ih fun key' hin => h key' (List.mem_cons_of_mem key hin), press_cut,
      if_pos hnothing]

/-- A key that cuts edits. -/
theorem press_of_cuts {key : Key} (h : (labelOf key).cuts = true) (bufmax : Int) (k : Desk) :
    (k.press bufmax key).draft = k.draft.press bufmax key (labelOf key) := by
  rw [press]
  generalize labelOf key = l at h
  cases l with
  | up => cases h
  | down => cases h
  | pageUp => cases h
  | pageDown => cases h
  | _ => rfl

end Desk

/-- A part of a text is put back whole exactly if the text leaves room for one more character. -/
theorem put_back_iff {xs r ys : List UInt8} (hne : r ≠ []) (bufmax : Nat) :
    xs ++ r.take (bufmax - 2 - (xs ++ ys).length) ++ ys = xs ++ r ++ ys ↔
      (xs ++ r ++ ys).length + 1 < bufmax := by
  have hpos := List.length_pos_iff.mpr hne
  rw [List.append_left_inj, List.append_right_inj, List.length_append, List.length_append,
    List.length_append]
  constructor
  · intro htake
    have hlen := congrArg List.length htake
    rw [List.length_take] at hlen
    omega
  · intro hroom
    exact List.take_of_length_le (by omega)

section Lines

variable (completionCallback : Option Callback) {history : History} {buf : List UInt8}

/-- **ctrl-y** puts in what was cut last, wherever the cursor went in the meantime, as far as there
    is room; at once after the cut, that restores the line unless it was full. -/
theorem linenoise_yanks (h : history.Sound LINENOISE_MAX_LINE)
    (hbuf : buf.length = LINENOISE_MAX_LINE) (prompt : List UInt8) {keys more : List Key}
    {key : Key}
    (hkeys : ∀ key' ∈ keys ++ key :: more, key'.plain = true) (hcuts : (labelOf key).cuts = true)
    (hmore : ∀ key' ∈ more, (labelOf key').cuts = false) {fd : Terminal} (hfd : fd.Reports)
    {events rest : List Event}
    (htyped : Typed (keys ++ key :: more ++ [.char (ctrl 'Y')] ++ [.char (byte '\r')]) events)
    (hinput : fd.input = events ++ rest) {k k' : Desk}
    (hk : keys.foldl (Desk.press LINENOISE_MAX_LINE) (.start history) = k)
    (hne : k.draft.removed (labelOf key) ≠ [])
    (hk' : more.foldl (Desk.press LINENOISE_MAX_LINE) (k.press LINENOISE_MAX_LINE key) = k') :
    ∃ t fd', linenoise completionCallback history buf prompt fd =
        .ok (.line t, { history with lines := k'.lines.dropLast }, fd') ∧ fd'.input = rest ∧
      t = k'.draft.zipper.before ++ (k.draft.removed (labelOf key)).take
        (LINENOISE_MAX_LINE - 2 - k'.draft.zipper.text.length) ++ k'.draft.zipper.after ∧
      (more = [] → (t = k.draft.zipper.text ↔
        k.draft.zipper.text.length + 1 < LINENOISE_MAX_LINE)) := by
  have hplain := plain_concat hkeys (show (Key.char (ctrl 'Y')).plain = true from rfl)
  have hall :
      (keys ++ key :: more).foldl (Desk.press LINENOISE_MAX_LINE) (.start history) = k' := by
    rw [List.foldl_append, hk, List.foldl_cons, hk']
  have hpress : ((keys ++ key :: more) ++ [Key.char (ctrl 'Y')]).foldl
      (Desk.press LINENOISE_MAX_LINE) (.start history) =
        { k' with draft := k'.draft.yank LINENOISE_MAX_LINE } := by
    rw [foldl_press_concat, hall]
    rfl
  have hcut : k'.draft.cut = some (k.draft.removed (labelOf key)) := by
    rw [← hk', Desk.foldl_press_cut hmore, Desk.press_cut, if_neg hne]
  have hover : k'.Over (· ≠ 0) := by
    rw [← hall]
    exact (Desk.start_clean h.strings).presses fun key _ => key.over_nul
  have hyanked :=
    Draft.yank_text hcut (fun hin => hover.draft.cut _ hcut 0 hin rfl) LINENOISE_MAX_LINE
  obtain ⟨fd', hrun, hrest⟩ :=
    linenoise_presses completionCallback h hbuf prompt hplain hfd htyped hinput hpress
  refine ⟨_, fd', hrun, hrest, hyanked, fun hnil => ?_⟩
  have hdraft : k'.draft = k.draft.press LINENOISE_MAX_LINE key (labelOf key) := by
    rw [← hk', hnil, List.foldl_nil, Desk.press_of_cuts hcuts]
  rw [hdraft] at hyanked ⊢
  rw [k.draft.text_of_cuts LINENOISE_MAX_LINE key hcuts]
  show _ = _ ↔ _
  rw [hyanked]
  exact put_back_iff hne LINENOISE_MAX_LINE

end Lines

/-- Of two words the second one is cut and put in front of the first one. -/
theorem linenoise_yanks_word : ∃ fd',
    linenoise none afterHelp (List.replicate 4096 1) (bytes "fep> ")
        (.typing ((bytes "ab cd").map .char ++ .char (ctrl 'W') :: [.special .SPECIAL_HOME] ++
          [.char (ctrl 'Y')] ++ [.char (byte '\r')])) =
      .ok (.line (bytes "cdab "), afterHelp, fd') ∧ fd'.input = [] := by
  have hkeys : ∀ key ∈ (bytes "ab cd").map Key.char ++ Key.char (ctrl 'W') ::
      [Key.special .SPECIAL_HOME], key.plain = true := by decide
  obtain ⟨t, fd', hrun, hrest, ht, -⟩ := linenoise_yanks none afterHelp_sound
    (List.length_replicate : (List.replicate 4096 (1 : UInt8)).length = LINENOISE_MAX_LINE)
    (bytes "fep> ") hkeys (by decide) (by decide) (Terminal.typing_reports _) (typed_events _)
    (Terminal.typing_input _) rfl (by decide) rfl
  obtain rfl : t = bytes "cdab " := ht
  exact ⟨fd', hrun, hrest⟩

end Linenoise

end FepControl
