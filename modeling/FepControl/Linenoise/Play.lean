/-
  The simulation: the line editor goes along with the desk.

  The loop of `linenoiseEdit` sees events: bytes, pauses, and the end of the input.  Its user sees
  keys, and a desk with a line on it.  This file says that the two fit together.  `Editor.Plays` is
  the relation between an editor and a desk, and every lemma has the same form: the editor plays the
  desk `k`, certain keys were typed (`Typed`), and after some rounds of the loop it plays the desk
  that the keys make of `k`.

  1. **Rounds** -- what a round of the loop does with the bytes of a key.

  2. **The simulation of a key** -- navigation and the editing keys, on the editor and at the desk.

  3. **The moves** -- keys, completions and searches (`move_plays`), and any sequence of them
     (`editLoop_plays`).  A search whose pattern gets too long overruns `rbuf`, and the call with
     it; what would have come behind does not matter then.

  4. **What is returned** -- `linenoise` returns the line of the desk, and leaves its entries
     (`linenoise_plays`).

  All this is for a terminal that reports its width.  At another one the source asks the terminal,
  and reads what comes as the answer to that: see `linenoise_returns` for what holds there.
-/
import FepControl.Linenoise.Desk
import FepControl.Linenoise.Rounds

namespace FepControl

namespace Linenoise

open Lib

/-! ## Rounds -/

/-- The editor with the rest of the input. -/
def Editor.reading (e : Editor) (rest : List Event) : Editor :=
  { e with current := { e.current with fd := { e.current.fd with input := rest } } }

section Rounds

variable (completionCallback : Option Callback) {e : Editor}

/-- A character that is not an escape, at `process_char`. -/
theorem process_char_char {c : UInt8} (hesc : c ≠ 27) (e : Editor) :
    process_char (.char c) e = processLabel (.char c) e (labelOfChar c) := by
  have hne : ¬ Key.char c = .char 27 := fun heq => hesc (Key.char.inj heq)
  rw [process_char, if_neg (Key.char_ne_eof c), if_neg hne]
  rfl

/-- A byte that does not begin a completion is processed, whatever time went by before it came. -/
theorem round_read {n : Nat} {c : UInt8} {rest : List Event}
    (h : e.current.fd.input = pauses n ++ .byte c :: rest)
    (htab : c = byte '\t' → e.current.pos = e.current.chars → completionCallback = none) :
    round completionCallback e none = process_char (.char c) (e.reading rest) := by
  have hread := fd_read_byte e.current.fd h
  rw [round, readKey, hread]
  cases completionCallback with
  | none => rfl
  | some cpp_callback_function =>
    have hne : ¬ (Key.char c = .char (byte '\t') ∧ e.current.pos = e.current.chars) :=
      fun heq => absurd (htab (Key.char.inj heq.1) heq.2) (Option.some_ne_none _)
    simp only [if_neg hne]
    rfl

/-- The bytes of a special key are that key. -/
theorem process_char_escape {s : Special} {rest : List Event}
    (h : e.current.fd.input = typedBytes s.sequence ++ rest) :
    process_char (.char 27) e = processLabel (.special s) (e.reading rest) (labelOfSpecial s) := by
  have hspecial := check_special_sequence e.current.fd s rest h
  rw [process_char, if_neg (Key.char_ne_eof 27), if_pos rfl, hspecial]
  rfl

/-- An escape that nothing follows for a pause is the escape key. -/
theorem process_char_lone {rest : List Event} (h : e.current.fd.input = .pause :: rest) :
    process_char (.char 27) e = processLabel (.char 27) (e.reading rest) (labelOfChar 27) := by
  have hescape := check_special_escape e.current.fd rest h
  rw [process_char, if_neg (Key.char_ne_eof 27), if_pos rfl, hescape]
  rfl

/-- The label of such a key. -/
theorem Key.plain_label {key : Key} (h : key.plain = true) : (labelOf key).plain = true := by
  cases key with
  | eof => cases h
  | special s => cases s <;> rfl
  | char c =>
    simp only [Key.plain, Bool.and_eq_true] at h
    exact h.2

/-- A plain key is processed under its label: one byte, an escape sequence, or an escape alone. -/
theorem round_key {key : Key} {n : Nat} {rest : List Event} (hkey : key.plain = true)
    (h : e.current.fd.input = pauses n ++ (key.events ++ rest)) :
    round completionCallback e none = processLabel key (e.reading rest) (labelOf key) := by
  cases key with
  | eof => cases hkey
  | special s =>
    rw [round_read completionCallback h fun htab => absurd htab (by decide)]
    exact process_char_escape rfl
  | char c =>
    simp only [Key.plain, Bool.and_eq_true, bne_iff_ne] at hkey
    by_cases hesc : c = 27
    · subst hesc
      rw [round_read completionCallback h fun htab => absurd htab (by decide)]
      exact process_char_lone rfl
    · rw [Key.events, if_neg hesc] at h
      rw [round_read completionCallback h fun htab => absurd htab hkey.1]
      exact process_char_char hesc _

/-- A key that waits since it ended a search is the same as one that is still to be read.  Not so
    the tab key, which would complete, and the escape key, whose pause was read already. -/
theorem round_pending {key : Key} {rest : List Event} (heof : key ≠ .eof) (hesc : key ≠ .char 27)
    (htab : key ≠ .char (byte '\t')) (h : e.current.fd.input = rest) :
    round completionCallback e (some key) =
      round completionCallback (e.reading (key.events ++ rest)) none := by
  subst h
  cases key with
  | eof => exact absurd rfl heof
  | char c =>
    have hc : ¬ c = 27 := fun heq => hesc (congrArg Key.char heq)
    have hinput : (e.reading ((Key.char c).events ++ e.current.fd.input)).current.fd.input =
        pauses 0 ++ .byte c :: e.current.fd.input := by
      rw [Key.events, if_neg hc]
      rfl
    rw [round_read completionCallback hinput fun heq => absurd (congrArg Key.char heq) htab]
    rfl
  | special s =>
    have hinput : (e.reading ((Key.special s).events ++ e.current.fd.input)).current.fd.input =
        pauses 0 ++ .byte 27 :: (typedBytes s.sequence ++ e.current.fd.input) := rfl
    rw [round_read completionCallback hinput fun heq => absurd heq (by decide)]
    exact (process_char_escape (e := e.reading (typedBytes s.sequence ++ e.current.fd.input))
      rfl).symm

end Rounds

/-! ## The simulation of a key -/

/-- **The relation of the simulation**: the editor is at the desk.  Its line shows the draft, its
    history has the lines of the desk, and the terminal reports how wide it is. -/
structure Editor.Plays (e : Editor) (k : Desk) : Prop where
  sound : e.Sound
  shows : e.current.Shows k.draft
  lines : e.history.lines = k.lines
  index : e.history_index = k.index
  reports : e.current.fd.Reports

/-- The editor has gone to the desk `k`, with its arrays as large as before. -/
structure Editor.Goes (e : Editor) (k : Desk) (e' : Editor) : Prop where
  plays : e'.Plays k
  bufmax : e'.current.bufmax = e.current.bufmax
  max_len : e'.history.max_len = e.history.max_len

section Simulation

variable {e : Editor} {k : Desk}

/-- The input makes no difference, as long as no other widths come in it. -/
theorem Editor.Plays.reading (h : e.Plays k) {rest : List Event}
    (hrest : ∀ ws_col, .resize ws_col ∈ rest → .resize ws_col ∈ e.current.fd.input) :
    (e.reading rest).Plays k := by
  have hshows : (e.reading rest).current.Shows k.draft := by
    have hd := h.shows.holds
    exact ⟨⟨hd.buf, hd.room, hd.len, hd.chars, hd.pos, hd.sized⟩, h.shows.capture⟩
  exact ⟨⟨⟨_, hshows⟩, h.sound.history, h.sound.index, h.sound.alone⟩, hshows, h.lines, h.index,
    h.reports.reading hrest⟩

/-- What stands behind a key that was read. -/
theorem Editor.Plays.behind (h : e.Plays k) {n : Nat} (key : List Event) {rest : List Event}
    (hinput : e.current.fd.input = pauses n ++ (key ++ rest)) : (e.reading rest).Plays k := by
  refine h.reading fun ws_col hin => ?_
  rw [hinput]
  exact List.mem_append_right _ (List.mem_append_right _ hin)

/-- The line was changed, and nothing else on the desk. -/
theorem Editor.Plays.current (h : e.Plays k) {c' : Current} {d' : Draft}
    (hc : e.current.Reaches d' c') : e.Goes { k with draft := d' } { e with current := c' } :=
  ⟨⟨h.sound.current hc, hc.shows, h.lines, h.index, hc.reads.reports h.reports⟩, hc.bufmax, rfl⟩

/-- Navigation, on the editor and at the desk; nothing is read for it. -/
theorem historyNavigation_plays (h : e.Plays k) (dir : Int) :
    ∃ e', historyNavigation dir e = .ok e' ∧ e.Goes (k.navigate dir) e' ∧
      e'.current.fd.input = e.current.fd.input := by
  have hlen : e.history.len = k.lines.length := by rw [History.len, h.lines]
  have hindex := h.sound.index
  rw [hlen, h.index] at hindex
  rw [Desk.navigate]
  by_cases hone : k.lines.length ≤ 1
  · rw [if_pos hone, historyNavigation, if_neg (by rw [hlen]; omega)]
    exact ⟨e, rfl, ⟨h, rfl, rfl⟩, rfl⟩
  · obtain ⟨e', d₀, hrun', hsound, -⟩ := historyNavigation_sound h.sound dir
    obtain ⟨c', d', hturns, hrun, hcases⟩ := historyNavigation_ok h.sound h.shows dir
      (by rw [hlen]; omega)
    obtain rfl := Except.ok.inj (hrun'.symm.trans hrun)
    have hreports : c'.fd.Reports := hturns.reaches.reads.reports h.reports
    have hsaved : (e.history.replaced (e.history.len - 1 - e.history_index)
        (k.draft.zipper.text.takeWhile (· ≠ 0))).lines = k.saved := by
      have hpos : ((k.lines.length : Int) - 1 - k.index).toNat = k.lines.length - 1 - k.index := by
        omega
      rw [History.replaced, Desk.saved, h.lines, hlen, h.index, Desk.text, hpos]
    have hnav := hsound.index.1
    rw [show Editor.history_index _ = navigated e.history_index dir e.history.len from rfl, hlen,
      h.index] at hnav
    rw [if_neg hone]
    rw [hlen, h.index] at hcases
    refine ⟨_, hrun', ⟨?_, hturns.bufmax, rfl⟩, hturns.input⟩
    by_cases hin : 0 ≤ (k.index : Int) + dir ∧ k.index + dir < k.lines.length
    · rw [if_pos hin]
      rw [if_pos hin] at hcases
      obtain ⟨entry, hget, rfl⟩ := hcases
      have hto : navigated k.index dir k.lines.length = k.index + dir := by
        rw [navigated, if_neg (by omega), if_neg (by omega)]
      have hentry : k.saved.getD (k.lines.length - 1 -
          (navigated k.index dir k.lines.length).toNat) [] = entry := by
        rw [hto]
        rw [hlen, h.index] at hsaved
        rw [History.get, if_pos (by omega), hsaved] at hget
        have hpos : ((k.lines.length : Int) - 1 - (k.index + dir)).toNat =
            k.lines.length - 1 - ((k.index : Int) + dir).toNat := by omega
        rw [hpos] at hget
        rw [List.getD_eq_getElem?_getD]
        cases hs : k.saved[k.lines.length - 1 - ((k.index : Int) + dir).toNat]? with
        | none => rw [hs] at hget; cases hget
        | some entry' => rw [hs] at hget; cases hget; rfl
      refine ⟨hsound, ?_, hsaved, ?_, hreports⟩
      · show c'.Shows { k.draft with zipper := .atEnd (k.saved.getD _ []) }
        rw [hentry]
        exact hturns.shows
      · show navigated e.history_index dir e.history.len = _
        rw [hlen, h.index]
        exact (Int.toNat_of_nonneg hnav).symm
    · rw [if_neg hin]
      rw [if_neg hin] at hcases
      rw [hcases] at hturns
      refine ⟨hsound, hturns.shows, hsaved, ?_, hreports⟩
      show navigated e.history_index dir e.history.len = _
      rw [hlen, h.index]
      exact (Int.toNat_of_nonneg hnav).symm

/-- **A key**: the editor does what the desk says. -/
theorem processLabel_plays (h : e.Plays k) {key : Key} (hkey : (labelOf key).plain = true) :
    ∃ e', processLabel key e (labelOf key) = .ok (.again e') ∧
      e.Goes (k.press e.current.bufmax key) e' ∧ e'.current.fd.input = e.current.fd.input := by
  have hlen : e.history.len = k.lines.length := by rw [History.len, h.lines]
  have hnavigates : ∀ dir, ∃ e', (do return Step.again (← historyNavigation dir e) : Checked Step) =
      .ok (.again e') ∧ e.Goes (k.navigate dir) e' ∧
        e'.current.fd.input = e.current.fd.input := by
    intro dir
    obtain ⟨e', hrun, he'⟩ := historyNavigation_plays h dir
    exact ⟨e', by rw [hrun]; rfl, he'⟩
  have hedits : (labelOf key).edits = true →
      ∃ e', processLabel key e (labelOf key) = .ok (.again e') ∧
        e.Goes { k with draft := k.draft.press e.current.bufmax key (labelOf key) } e' ∧
        e'.current.fd.input = e.current.fd.input := by
    intro hl
    obtain ⟨c', hrun, hc'⟩ := processLabel_edits h.shows hl
      (fun heq => by rw [heq] at hkey; cases hkey) (fun _ => h.reports.ws_col) key
    exact ⟨_, hrun, h.current hc'.reaches, hc'.input⟩
  rw [Desk.press]
  generalize labelOf key = l at *
  by_cases hl : l.edits = true
  · cases l with
    | up => cases hl
    | down => cases hl
    | pageUp => cases hl
    | pageDown => cases hl
    | _ => exact hedits hl
  cases l with
  | enter => cases hkey
  | ctrlC => cases hkey
  | ctrlD => cases hkey
  | ctrlR => cases hkey
  | ctrlV => cases hkey
  | up => exact hnavigates 1
  | down => exact hnavigates (-1)
  | pageUp =>
    show ∃ e' : Editor, _ ∧ e.Goes (k.navigate (k.lines.length - k.index - 1)) e' ∧ _
    rw [← hlen, ← h.index]
    exact hnavigates _
  | pageDown =>
    show ∃ e' : Editor, _ ∧ e.Goes (k.navigate (-k.index)) e' ∧ _
    rw [← h.index]
    exact hnavigates _
  | _ => exact absurd (by decide) hl

end Simulation

/-! ## The moves -/

section Moves

variable (completionCallback : Option Callback) {e : Editor} {k : Desk}

/-- The editor comes to `e'` after at most `n` rounds. -/
def Editor.ComesTo (n : Nat) (e e' : Editor) : Prop :=
  ∃ rounds ≤ n, ∀ fuel, editLoop completionCallback (rounds + (fuel + 1)) none e =
    editLoop completionCallback (fuel + 1) none e'

/-- The editor runs over the end of `rbuf` within `n` rounds. -/
def Editor.Overruns (n : Nat) (e : Editor) : Prop :=
  ∃ rounds ≤ n, ∀ fuel, editLoop completionCallback (rounds + (fuel + 1)) none e =
    .error (.outside .rbuf)

variable {completionCallback}

/-- More rounds may be counted. -/
theorem Editor.ComesTo.mono {n n' : Nat} {e e' : Editor} (h : e.ComesTo completionCallback n e')
    (hle : n ≤ n') : e.ComesTo completionCallback n' e' := by
  obtain ⟨rounds, hrounds, hrun⟩ := h
  exact ⟨rounds, Nat.le_trans hrounds hle, hrun⟩

/-- The overrun comes with fewer rounds, too. -/
theorem Editor.Overruns.mono {n n' : Nat} {e : Editor} (h : e.Overruns completionCallback n)
    (hle : n ≤ n') : e.Overruns completionCallback n' := by
  obtain ⟨rounds, hrounds, hrun⟩ := h
  exact ⟨rounds, Nat.le_trans hrounds hle, hrun⟩

/-- Some rounds, and an overrun after them. -/
theorem Editor.ComesTo.overruns {n n' : Nat} {e e' : Editor}
    (h : e.ComesTo completionCallback n e') (h' : e'.Overruns completionCallback n') :
    e.Overruns completionCallback (n + n') := by
  obtain ⟨rounds, hle, hrun⟩ := h
  obtain ⟨rounds', hle', hrun'⟩ := h'
  refine ⟨rounds + rounds', Nat.add_le_add hle hle', fun fuel => ?_⟩
  have := hrun (rounds' + fuel)
  rw [Nat.add_assoc, show rounds' + (fuel + 1) = rounds' + fuel + 1 from rfl, this]
  exact hrun' fuel

/-- No round. -/
theorem Editor.ComesTo.refl (e : Editor) : e.ComesTo completionCallback 0 e :=
  ⟨0, Nat.le_refl 0, fun fuel => by rw [Nat.zero_add]⟩

/-- Some rounds, and some more. -/
theorem Editor.ComesTo.trans {n n' : Nat} {e e' e'' : Editor}
    (h : e.ComesTo completionCallback n e') (h' : e'.ComesTo completionCallback n' e'') :
    e.ComesTo completionCallback (n + n') e'' := by
  obtain ⟨rounds, hle, hrun⟩ := h
  obtain ⟨rounds', hle', hrun'⟩ := h'
  refine ⟨rounds + rounds', Nat.add_le_add hle hle', fun fuel => ?_⟩
  have := hrun (rounds' + fuel)
  rw [Nat.add_assoc, show rounds' + (fuel + 1) = rounds' + fuel + 1 from rfl, this]
  exact hrun' fuel

/-- The editor goes along with the desk, step by step. -/
theorem Editor.Goes.trans {k' : Desk} {e' e'' : Editor} {k'' : Desk} (h : e.Goes k' e')
    (h' : e'.Goes k'' e'') : e.Goes k'' e'' :=
  ⟨h'.plays, h'.bufmax.trans h.bufmax, h'.max_len.trans h.max_len⟩

/-- A round that processes a key. -/
theorem round_plays {key : Key} {rest : List Event} (h : (e.reading rest).Plays k)
    (hkey : (labelOf key).plain = true)
    (hround : round completionCallback e none =
      processLabel key (e.reading rest) (labelOf key)) :
    ∃ e', e.ComesTo completionCallback 1 e' ∧ e.Goes (k.press e.current.bufmax key) e' ∧
      e'.current.fd.input = rest := by
  obtain ⟨e', hrun, hgoes, hinput⟩ := processLabel_plays h hkey
  refine ⟨e', ⟨1, Nat.le_refl 1, fun fuel => ?_⟩, ⟨hgoes.plays, hgoes.bufmax, hgoes.max_len⟩,
    hinput⟩
  rw [Nat.add_comm, editLoop, hround, hrun]
  rfl

variable (completionCallback) in
/-- A plain key, typed after any time. -/
theorem press_plays (h : e.Plays k) {key : Key} {n : Nat} {rest : List Event}
    (hkey : key.plain = true) (hinput : e.current.fd.input = pauses n ++ (key.events ++ rest)) :
    ∃ e', e.ComesTo completionCallback 1 e' ∧ e.Goes (k.press e.current.bufmax key) e' ∧
      e'.current.fd.input = rest :=
  round_plays (h.behind key.events hinput) (Key.plain_label hkey)
    (round_key completionCallback hkey hinput)

/-- **Plain keys**, one after another; whatever comes behind them. -/
theorem presses_play (rest : List Event) :
    ∀ (keys : List Key) {events : List Event} {e : Editor} {k : Desk}, e.Plays k →
      (∀ key ∈ keys, key.plain = true) → Typed keys events →
      e.current.fd.input = events ++ rest →
      ∃ e', e.ComesTo completionCallback keys.length e' ∧
        e.Goes (keys.foldl (Desk.press e.current.bufmax) k) e' ∧ e'.current.fd.input = rest
  | [], _, e, k, h, _, rfl, hinput => ⟨e, .refl e, ⟨h, rfl, rfl⟩, hinput⟩
  | key :: keys, _, e, k, h, hkeys, ⟨n, events', rfl, htyped⟩, hinput => by
      rw [List.append_assoc, List.append_assoc] at hinput
      obtain ⟨e₁, hcomes₁, hgoes₁, hinput₁⟩ :=
        press_plays completionCallback h (hkeys key List.mem_cons_self) hinput
      obtain ⟨e₂, hcomes₂, hgoes₂, hinput₂⟩ := presses_play rest keys hgoes₁.plays
        (fun key' hin => hkeys key' (List.mem_cons_of_mem key hin)) htyped hinput₁
      rw [hgoes₁.bufmax] at hgoes₂
      refine ⟨e₂, ?_, hgoes₁.trans hgoes₂, hinput₂⟩
      rw [List.length_cons, Nat.add_comm]
      exact hcomes₁.trans hcomes₂

/-! ### Completion -/

/-- Where it offers nothing, the tab key inserts itself. -/
theorem tabs_play (rest : List Event) :
    ∀ (n : Nat) {events : List Event} {e : Editor} {k : Desk}, e.Plays k →
      (k.draft.zipper.after = [] → completionCallback = none) →
      Typed (List.replicate n (.char (byte '\t'))) events →
      e.current.fd.input = events ++ rest →
      ∃ e', e.ComesTo completionCallback n e' ∧
        e.Goes ((List.replicate n (.char (byte '\t'))).foldl (Desk.press e.current.bufmax) k) e' ∧
        e'.current.fd.input = rest
  | 0, _, e, k, h, _, rfl, hinput => ⟨e, .refl e, ⟨h, rfl, rfl⟩, hinput⟩
  | n + 1, _, e, k, h, hnone, ⟨m, events', rfl, htyped⟩, hinput => by
      have hinput : e.current.fd.input = pauses m ++ .byte (byte '\t') :: (events' ++ rest) := by
        rw [hinput, List.append_assoc]
        rfl
      have hround := round_read completionCallback hinput fun _ hpos => hnone (by
        rw [h.shows.holds.pos, h.shows.holds.chars, Zipper.text, List.length_append] at hpos
        exact List.length_eq_zero_iff.mp (by omega))
      rw [process_char_char (by decide)] at hround
      have hbehind : (e.reading (events' ++ rest)).Plays k := h.behind [.byte (byte '\t')] hinput
      obtain ⟨e₁, hcomes₁, hgoes₁, hinput₁⟩ := round_plays hbehind rfl hround
      have hstill : (k.press e.current.bufmax (.char (byte '\t'))).draft.zipper.after =
          k.draft.zipper.after := rfl
      obtain ⟨e₂, hcomes₂, hgoes₂, hinput₂⟩ := tabs_play rest n hgoes₁.plays
        (fun hnil => hnone (hstill ▸ hnil)) htyped hinput₁
      rw [hgoes₁.bufmax] at hgoes₂
      refine ⟨e₂, ?_, hgoes₁.trans hgoes₂, hinput₂⟩
      rw [Nat.add_comm]
      exact hcomes₁.trans hcomes₂

/-- A tab behind the text, where completions are asked for. -/
theorem round_tab (h : e.Plays k) (hafter : k.draft.zipper.after = []) {n : Nat}
    {rest : List Event} (hinput : e.current.fd.input = pauses n ++ .byte (byte '\t') :: rest)
    (cpp_callback_function : Callback) :
    round (some cpp_callback_function) e none = (do
      let next ← completeLine cpp_callback_function (e.reading rest).current
      if next.1 = .eof then pure (.returned next.2.len false { e with current := next.2 })
      else if next.1 = .char 0 then pure (.again { e with current := next.2 })
      else process_char next.1 { e with current := next.2 }) := by
  have hread := fd_read_byte e.current.fd hinput
  have hpos : e.current.pos = e.current.chars := by
    rw [h.shows.holds.pos, h.shows.holds.chars, Zipper.text, hafter, List.append_nil]
  rw [round, readKey, hread]
  exact if_pos ⟨rfl, hpos⟩

/-- Without completions, the tab key beeps. -/
theorem beeps_play {cpp_callback_function : Callback} (rest : List Event)
    (hcvec : callback cpp_callback_function k.text = []) :
    ∀ (n : Nat) {events : List Event} {e : Editor}, e.Plays k → k.draft.zipper.after = [] →
      Typed (List.replicate n (.char (byte '\t'))) events →
      e.current.fd.input = events ++ rest →
      ∃ e', e.ComesTo (some cpp_callback_function) n e' ∧ e.Goes k e' ∧ e'.current.fd.input = rest
  | 0, _, e, h, _, rfl, hinput => ⟨e, .refl e, ⟨h, rfl, rfl⟩, hinput⟩
  | n + 1, _, e, h, hafter, ⟨m, events', rfl, htyped⟩, hinput => by
      have hinput : e.current.fd.input = pauses m ++ .byte (byte '\t') :: (events' ++ rest) := by
        rw [hinput, List.append_assoc]
        rfl
      have hbehind : (e.reading (events' ++ rest)).Plays k := h.behind [.byte (byte '\t')] hinput
      obtain ⟨c₁, hnone, hc₁, hinput₁⟩ := completeLine_none hbehind.shows hcvec
      have hround := round_tab h hafter hinput cpp_callback_function
      rw [hnone] at hround
      have hgoes := hbehind.current hc₁
      have hgoes₁ : e.Goes k { e with current := c₁ } := ⟨hgoes.plays, hgoes.bufmax, rfl⟩
      obtain ⟨e₂, hcomes₂, hgoes₂, hinput₂⟩ :=
        beeps_play rest hcvec n hgoes₁.plays hafter htyped hinput₁
      refine ⟨e₂, ?_, hgoes₁.trans hgoes₂, hinput₂⟩
      rw [Nat.add_comm]
      refine Editor.ComesTo.trans ⟨1, Nat.le_refl 1, fun fuel => ?_⟩ hcomes₂
      rw [Nat.add_comm, editLoop, hround]
      rfl

/-- With completions, the tabs and the next key are the same as the key at what it takes. -/
theorem round_complete (h : e.Plays k) (hafter : k.draft.zipper.after = [])
    {cpp_callback_function : Callback} {cvec : List (List UInt8)}
    (hcvec : callback cpp_callback_function k.text = cvec) (hsome : cvec ≠ []) {more n : Nat}
    {ch : UInt8} (hch : ch ≠ byte '\t') {events rest : List Event}
    (htyped : Typed (List.replicate (more + 1) (.char (byte '\t'))) events)
    (hinput : e.current.fd.input = events ++ (pauses n ++ .byte ch :: rest)) :
    ∃ e', round (some cpp_callback_function) e none =
        round (some cpp_callback_function) e' none ∧
      e.Goes (k.withText (taken e.current.bufmax cvec (more % (cvec.length + 1)) (.char ch)
        k.draft.zipper)) e' ∧
      e'.current.fd.input = .byte ch :: rest := by
  obtain ⟨m, events', rfl, htyped⟩ := htyped
  have hinput : e.current.fd.input = pauses m ++ .byte (byte '\t') ::
      (events' ++ (pauses n ++ .byte ch :: rest)) := by
    rw [hinput, List.append_assoc]
    rfl
  have hbehind : (e.reading (events' ++ (pauses n ++ .byte ch :: rest))).Plays k :=
    h.behind [.byte (byte '\t')] hinput
  obtain ⟨c', hline, hc', hrest⟩ :=
    completeLine_tabs cpp_callback_function hbehind.shows hch htyped rfl hcvec hsome
  have hgoes := hbehind.current hc'
  have hplays : ({ e with current := c' } : Editor).Plays (k.withText (taken e.current.bufmax cvec
      (more % (cvec.length + 1)) (.char ch) k.draft.zipper)) := hgoes.plays
  -- the key once more in front of the input
  have hagain : ∀ ws_col,
      .resize ws_col ∈ Event.byte ch :: rest → .resize ws_col ∈ c'.fd.input := by
    intro ws_col hin
    rw [hrest]
    exact (List.mem_cons.mp hin).resolve_left Event.noConfusion
  refine ⟨({ e with current := c' } : Editor).reading (.byte ch :: rest), ?_,
    ⟨hplays.reading hagain, hc'.bufmax, rfl⟩, rfl⟩
  rw [round_tab h hafter hinput, hline, ok_bind,
    round_read (some cpp_callback_function) (n := 0) rfl fun heq => absurd heq hch,
    if_neg (Key.char_ne_eof ch)]
  have hback : (({ e with current := c' } : Editor).reading (.byte ch :: rest)).reading rest =
      { e with current := c' } := by
    rw [← hrest]
    rfl
  rw [hback]
  by_cases hzero : ch = 0
  · -- a NUL is left out, and would do nothing
    rw [hzero, if_pos rfl]
    rfl
  · rw [if_neg fun heq => hzero (Key.char.inj heq)]

/-- **The tab key**, some times in a row: it completes, beeps or inserts itself, as the
    desk says. -/
theorem complete_plays (h : e.Plays k) {more n : Nat} {next : Key} {events rest : List Event}
    (hfits : (Move.complete more).fits next = true)
    (htyped : Typed (Move.complete more).keys events)
    (hinput : e.current.fd.input = events ++ (pauses n ++ (next.events ++ rest))) :
    ∃ e' n', e.ComesTo completionCallback (more + 1) e' ∧
      e.Goes (k.complete completionCallback e.current.bufmax more next) e' ∧
      e'.current.fd.input = pauses n' ++ (next.events ++ rest) := by
  simp only [Move.fits, Bool.and_eq_true, bne_iff_ne] at hfits
  obtain ⟨htab, heof⟩ := hfits
  cases completionCallback with
  | none =>
    obtain ⟨e', hcomes, hgoes, hrest⟩ := tabs_play _ (more + 1) h (fun _ => rfl) htyped hinput
    exact ⟨e', n, hcomes, hgoes, hrest⟩
  | some cpp_callback_function =>
    rw [Desk.complete]
    by_cases hafter : k.draft.zipper.after = []
    · simp only [if_pos hafter]
      by_cases hcvec : callback cpp_callback_function k.text = []
      · rw [if_pos hcvec]
        obtain ⟨e', hcomes, hgoes, hrest⟩ :=
          beeps_play _ hcvec (more + 1) h hafter htyped hinput
        exact ⟨e', n, hcomes, hgoes, hrest⟩
      · obtain ⟨ch, bs, hevents, hfirst⟩ := next.events_first heof
        have hch : ch ≠ byte '\t' := by
          rintro rfl
          cases next with
          | eof => cases hfirst
          | char c => cases hfirst; exact htab rfl
          | special s => cases hfirst
        rw [if_neg hcvec, hfirst]
        rw [hevents, List.cons_append] at hinput ⊢
        obtain ⟨e', hround, hgoes, hrest⟩ := round_complete h hafter rfl hcvec hch htyped hinput
        refine ⟨e', 0, ⟨0, Nat.zero_le _, fun fuel => ?_⟩, hgoes, hrest⟩
        rw [Nat.zero_add, editLoop, hround]
        rfl
    · simp only [if_neg hafter]
      obtain ⟨e', hcomes, hgoes, hrest⟩ :=
        tabs_play _ (more + 1) h (fun hnil => absurd hnil hafter) htyped hinput
      exact ⟨e', n, hcomes, hgoes, hrest⟩

/-! ### Search -/

variable (completionCallback)

/-- The `ctrl-r` key hands over to the search. -/
theorem round_search {n : Nat} {rest : List Event}
    (hinput : e.current.fd.input = pauses n ++ .byte (ctrl 'R') :: rest) :
    round completionCallback e none =
      (do
        let next ← reverseSearch e.history (e.reading rest).current
        pure (.goto_process_char next.1 { e with current := next.2 })) := by
  rw [round_read completionCallback hinput fun heq => absurd heq (by decide),
    process_char_char (by decide)]
  rfl

/-- A search that overruns `rbuf`; what comes behind its keys does not matter. -/
theorem search_overruns (h : e.Plays k) {keys : List Key}
    (hkeys : ∀ key ∈ keys, key.query.isSome = true) {events rest : List Event}
    (htyped : Typed (.char (ctrl 'R') :: keys) events)
    (hinput : e.current.fd.input = events ++ rest)
    (hnone : Seek.dialogue k.lines (keys.filterMap Key.query)
      (.start k.lines k.draft.zipper) = none) : e.Overruns completionCallback 0 := by
  obtain ⟨n, events', rfl, htyped⟩ := htyped
  have hinput : e.current.fd.input = pauses n ++ .byte (ctrl 'R') :: (events' ++ rest) := by
    rw [hinput, List.append_assoc]
    rfl
  have hbehind : (e.reading (events' ++ rest)).Plays k := h.behind [.byte (ctrl 'R')] hinput
  have hne : 0 < e.history.len := by have := h.sound.index; omega
  obtain ⟨hover, -⟩ :=
    reverseSearch_dialogue hne hbehind.sound.history hbehind.shows hkeys htyped rfl
  rw [h.lines] at hover
  refine ⟨0, Nat.le_refl 0, fun fuel => ?_⟩
  rw [Nat.zero_add, editLoop, round_search completionCallback hinput, hover hnone]
  rfl

/-- A search, and the key that ended it, which waits then. -/
theorem search_ends (h : e.Plays k) {keys : List Key} {key : Key}
    (hkeys : ∀ key ∈ keys, key.query.isSome = true) (hkey : key.query = none) (heof : key ≠ .eof)
    {events rest : List Event} {n : Nat} (htyped : Typed (.char (ctrl 'R') :: keys) events)
    (hinput : e.current.fd.input = events ++ (pauses n ++ (key.events ++ rest))) {s : Seek}
    (hs : Seek.dialogue k.lines (keys.filterMap Key.query)
      (.start k.lines k.draft.zipper) = some s) :
    ∃ e', (∀ fuel, editLoop completionCallback (fuel + 1) none e =
        editLoop completionCallback fuel (some key.afterSearch) e') ∧
      e.Goes (k.withText (if key.abandons then .atEnd [] else s.zipper)) e' ∧
      e'.current.fd.input = rest := by
  obtain ⟨m, events', rfl, htyped⟩ := htyped
  have hinput : e.current.fd.input =
      pauses m ++ .byte (ctrl 'R') :: (events' ++ (pauses n ++ (key.events ++ rest))) := by
    rw [hinput, List.append_assoc]
    rfl
  have hbehind : (e.reading (events' ++ (pauses n ++ (key.events ++ rest)))).Plays k :=
    h.behind [.byte (ctrl 'R')] hinput
  have hne : 0 < e.history.len := by have := h.sound.index; omega
  rw [← h.lines] at hs
  obtain ⟨c', hrun, hc', hrest⟩ := reverseSearch_seeks hne hbehind.sound.history hbehind.shows
    hkeys hkey heof htyped rfl hs
  have hgoes := hbehind.current hc'
  refine ⟨{ e with current := c' }, fun fuel => ?_, ⟨hgoes.plays, hgoes.bufmax, rfl⟩, hrest⟩
  rw [editLoop, round_search completionCallback hinput]
  rw [show reverseSearch e.history (e.reading _).current = _ from hrun]
  rfl

/-- A search that is ended by a key of its own. -/
theorem search_stop_plays (h : e.Plays k) {keys : List Key} {key next : Key}
    (hfits : (Move.search keys (some key)).fits next = true) {events rest : List Event}
    (htyped : Typed (Move.search keys (some key)).keys events)
    (hinput : e.current.fd.input = events ++ rest) :
    (k.search keys (some key) = none → e.Overruns completionCallback 2) ∧
    ∀ k', k.search keys (some key) = some k' →
      ∃ e', e.ComesTo completionCallback 2 e' ∧ e.Goes k' e' ∧ e'.current.fd.input = rest := by
  simp only [Move.fits, Bool.and_eq_true, List.all_eq_true, decide_eq_true_eq] at hfits
  obtain ⟨hkeys, hkey⟩ := hfits
  have hquery : key.query = none ∧ key ≠ .eof := by
    rcases hkey with (rfl | rfl) | rfl <;> decide
  have hsplit : Typed ((.char (ctrl 'R') :: keys) ++ [key]) events := htyped
  obtain ⟨before, _, rfl, hbefore, n, _, rfl, rfl⟩ := typed_append.mp hsplit
  rw [Desk.search]
  refine ⟨fun hnone => ?_, fun k' hk' => ?_⟩
  · rw [List.append_assoc] at hinput
    exact (search_overruns completionCallback h hkeys hbefore hinput
      (Option.map_eq_none_iff.mp hnone)).mono (Nat.zero_le 2)
  · obtain ⟨s, hs, rfl⟩ := Option.map_eq_some_iff.mp hk'
    rw [List.append_nil, List.append_assoc, List.append_assoc] at hinput
    obtain ⟨e', hrun, hgoes, hrest⟩ :=
      search_ends completionCallback h hkeys hquery.1 hquery.2 hbefore hinput hs
    have habandons : (∃ key' ∈ some key, key'.abandons) ↔ key.abandons := by simp
    simp only [habandons]
    -- the second round is the NUL that is processed in place of the key
    refine ⟨e', ⟨2, Nat.le_refl 2, fun fuel => ?_⟩, hgoes, hrest⟩
    rw [show 2 + (fuel + 1) = fuel + 2 + 1 by omega, hrun, Key.afterSearch, if_pos hkey]
    rfl

/-- A search that is ended by the next move. -/
theorem search_next_plays (h : e.Plays k) {keys : List Key} {next : Key}
    (hfits : (Move.search keys none).fits next = true) {events rest : List Event} {n : Nat}
    (htyped : Typed (Move.search keys none).keys events)
    (hinput : e.current.fd.input = events ++ (pauses n ++ (next.events ++ rest))) :
    (k.search keys none = none → e.Overruns completionCallback 1) ∧
    ∀ k', k.search keys none = some k' →
      ∃ e', e.ComesTo completionCallback 1 e' ∧ e.Goes k' e' ∧
        e'.current.fd.input = next.events ++ rest := by
  simp only [Move.fits, Key.endsSearch, Bool.and_eq_true, List.all_eq_true, Bool.not_eq_true',
    decide_eq_false_iff_not, bne_iff_ne, Option.isNone_iff_eq_none] at hfits
  obtain ⟨hkeys, ⟨⟨⟨⟨hquery, habandons⟩, hleave⟩, hesc⟩, heof⟩, htab⟩ := hfits
  rw [Move.keys, Option.toList_none, List.append_nil] at htyped
  rw [Desk.search]
  refine ⟨fun hnone => ?_, fun k' hk' => ?_⟩
  · exact (search_overruns completionCallback h hkeys htyped hinput
      (Option.map_eq_none_iff.mp hnone)).mono (Nat.zero_le 1)
  · obtain ⟨s, hs, rfl⟩ := Option.map_eq_some_iff.mp hk'
    obtain ⟨e', hrun, hgoes, hrest⟩ :=
      search_ends completionCallback h hkeys hquery heof htyped hinput hs
    have hpending := round_pending completionCallback heof hesc htab hrest
    rw [if_neg habandons] at hgoes
    have hagain : ∀ ws_col, .resize ws_col ∈ next.events ++ rest →
        .resize ws_col ∈ e'.current.fd.input := by
      intro ws_col hin
      rw [hrest]
      exact (List.mem_append.mp hin).resolve_left (next.resize_not_mem_events ws_col)
    refine ⟨e'.reading (next.events ++ rest), ⟨1, Nat.le_refl 1, fun fuel => ?_⟩,
      ⟨hgoes.plays.reading hagain, hgoes.bufmax, hgoes.max_len⟩, rfl⟩
    rw [Nat.add_comm, hrun, Key.afterSearch, if_neg fun h => h.elim habandons hleave, editLoop,
      hpending]
    rfl

/-! ### Any move -/

/-- **A move**: the editor does what the desk says, or overruns `rbuf`. -/
theorem move_plays (h : e.Plays k) {m : Move} {next : Key} {events rest : List Event} {n : Nat}
    (hfits : m.fits next = true) (htyped : Typed m.keys events)
    (hinput : e.current.fd.input = events ++ (pauses n ++ (next.events ++ rest))) :
    (k.move completionCallback e.current.bufmax next m = none →
      e.Overruns completionCallback m.keys.length) ∧
    ∀ k', k.move completionCallback e.current.bufmax next m = some k' →
      ∃ e' n', e.ComesTo completionCallback m.keys.length e' ∧ e.Goes k' e' ∧
        e'.current.fd.input = pauses n' ++ (next.events ++ rest) := by
  cases m with
  | press key =>
    refine ⟨fun heq => (by cases heq), fun k' heq => ?_⟩
    cases heq
    have hplain : ∀ key' ∈ [key], key'.plain = true := by
      intro key' hin
      rw [List.mem_singleton.mp hin]
      exact hfits
    obtain ⟨e', hcomes, hgoes, hrest⟩ := presses_play _ [key] h hplain htyped hinput
    exact ⟨e', n, hcomes, hgoes, hrest⟩
  | search keys stop =>
    cases stop with
    | none =>
      obtain ⟨hover, hends⟩ := search_next_plays completionCallback h hfits htyped hinput
      have hle : 1 ≤ (Move.search keys none).keys.length := Nat.succ_le_succ (Nat.zero_le _)
      refine ⟨fun hnone => (hover hnone).mono hle, fun k' hk' => ?_⟩
      obtain ⟨e', hcomes, hgoes, hrest⟩ := hends k' hk'
      exact ⟨e', 0, hcomes.mono hle, hgoes, hrest⟩
    | some key =>
      obtain ⟨hover, hends⟩ := search_stop_plays completionCallback h hfits htyped hinput
      have hle : 2 ≤ (Move.search keys (some key)).keys.length := by
        rw [Move.keys, List.length_cons, List.length_append]
        exact Nat.succ_le_succ (Nat.le_add_left _ _)
      refine ⟨fun hnone => (hover hnone).mono hle, fun k' hk' => ?_⟩
      obtain ⟨e', hcomes, hgoes, hrest⟩ := hends k' hk'
      exact ⟨e', n, hcomes.mono hle, hgoes, hrest⟩
  | complete more =>
    refine ⟨fun heq => (by cases heq), fun k' heq => ?_⟩
    cases heq
    have hlen : (Move.complete more).keys.length = more + 1 := List.length_replicate
    rw [hlen]
    exact complete_plays h hfits htyped hinput

/-- **Any moves**: the editor goes along with the desk, until one of them overruns `rbuf`.  The
    induction is on the moves; what it needs of the keys behind a move is only the first one. -/
theorem editLoop_plays (ending : Ending) (rest : List Event) :
    ∀ (moves : List Move) {events : List Event} {e : Editor} {k : Desk},
      fits moves ending = true → e.Plays k → Typed (lineKeys moves ending) events →
      e.current.fd.input = events ++ rest →
      (k.play completionCallback e.current.bufmax ending moves = none →
        e.Overruns completionCallback (moves.flatMap Move.keys).length) ∧
      ∀ k', k.play completionCallback e.current.bufmax ending moves = some k' →
        ∃ e' n', e.ComesTo completionCallback (moves.flatMap Move.keys).length e' ∧ e.Goes k' e' ∧
          e'.current.fd.input = pauses n' ++ (ending.key.events ++ rest)
  | [], _, e, k, _, h, ⟨n, _, rfl, rfl⟩, hinput => by
      refine ⟨fun heq => (by cases heq), fun k' heq => ?_⟩
      cases heq
      rw [List.append_nil, List.append_assoc] at hinput
      exact ⟨e, n, .refl e, ⟨h, rfl, rfl⟩, hinput⟩
  | m :: moves, events, e, k, hfits, h, htyped, hinput => by
      rw [fits, Bool.and_eq_true] at hfits
      rw [lineKeys_cons] at htyped
      obtain ⟨before, behind, rfl, hbefore, hbehind⟩ := typed_append.mp htyped
      obtain ⟨keys, hkeys⟩ := lineKeys_leading moves ending
      rw [hkeys] at hbehind
      obtain ⟨n, behind', rfl, hbehind'⟩ := hbehind
      simp only [List.append_assoc] at hinput
      obtain ⟨hover, hends⟩ := move_plays completionCallback h hfits.1 hbefore hinput
      rw [Desk.play, List.flatMap_cons, List.length_append]
      cases hmove : k.move completionCallback e.current.bufmax (leading moves ending) m with
      | none =>
        exact ⟨fun _ => (hover hmove).mono (Nat.le_add_right _ _), fun k' heq => (by cases heq)⟩
      | some k₁ =>
        obtain ⟨e₁, n₁, hcomes₁, hgoes₁, hinput₁⟩ := hends k₁ hmove
        have htyped₁ : Typed (lineKeys moves ending)
            (pauses n₁ ++ ((leading moves ending).events ++ behind')) := by
          rw [hkeys]
          exact ⟨n₁, behind', rfl, hbehind'⟩
        obtain ⟨hover₁, hends₁⟩ := editLoop_plays ending rest moves hfits.2 hgoes₁.plays htyped₁
          (by rw [hinput₁, List.append_assoc, List.append_assoc])
        rw [hgoes₁.bufmax] at hover₁ hends₁
        refine ⟨fun hnone => hcomes₁.overruns (hover₁ hnone), fun k' hk' => ?_⟩
        obtain ⟨e', n', hcomes', hgoes', hinput'⟩ := hends₁ k' hk'
        exact ⟨e', n', hcomes₁.trans hcomes', hgoes₁.trans hgoes', hinput'⟩

end Moves

/-! ## What is returned -/

/-- What ends the line does so: `ctrl-d` only on an empty line, and the end of the input only where
    nothing more comes. -/
structure Ending.Fits (ending : Ending) (k : Desk) (rest : List Event) : Prop where
  empty : ending = .ctrlD → k.draft.zipper.text = []
  last : ending = .eof → rest = []

/-- **The end of the line**: what the loop returns is what the desk says. -/
theorem editLoop_ends (completionCallback : Option Callback) {e : Editor} {k : Desk} (h : e.Plays k)
    {ending : Ending} {n : Nat} {rest : List Event} (hending : ending.Fits k rest)
    (hinput : e.current.fd.input = pauses n ++ (ending.key.events ++ rest)) (fuel : Nat) :
    ∃ count eagain e', editLoop completionCallback (fuel + 1) none e = .ok (count, eagain, e') ∧
      (if count = -1 then .null eagain else .line k.text) = (k.finish ending).1 ∧
      e'.history = { e.history with lines := (k.finish ending).2 } ∧
      e'.current.buf = e.current.buf ∧ e'.current.fd = { e.current.fd with input := rest } := by
  have hpop : e.history.pop = .ok { e.history with lines := k.lines.dropLast } := by
    rw [History.pop, if_neg h.sound.lines_ne, h.lines]
    rfl
  have hlen : ¬ e.current.len = -1 := by
    rw [h.shows.holds.len]
    omega
  have hkept : e.history = { e.history with lines := k.lines } := by rw [← h.lines]
  cases ending with
  | enter =>
    have hinput : e.current.fd.input = pauses n ++ .byte (byte '\r') :: rest := hinput
    have hround := round_read completionCallback hinput fun heq => absurd heq (by decide)
    rw [process_char_char (by decide), show labelOfChar (byte '\r') = .enter from rfl, processLabel,
      show (e.reading rest).history.pop = _ from hpop] at hround
    exact ⟨e.current.len, false,
      { e.reading rest with history := { e.history with lines := k.lines.dropLast } },
      by rw [editLoop, hround]; rfl, if_neg hlen, rfl, rfl, rfl⟩
  | ctrlC =>
    have hinput : e.current.fd.input = pauses n ++ .byte (ctrl 'C') :: rest := hinput
    have hround := round_read completionCallback hinput fun heq => absurd heq (by decide)
    rw [process_char_char (by decide), show labelOfChar (ctrl 'C') = .ctrlC from rfl] at hround
    exact ⟨-1, true, e.reading rest, by rw [editLoop, hround]; rfl, rfl, hkept, rfl, rfl⟩
  | ctrlD =>
    have hinput : e.current.fd.input = pauses n ++ .byte (ctrl 'D') :: rest := hinput
    have hround := round_read completionCallback hinput fun heq => absurd heq (by decide)
    have hzero : (e.reading rest).current.len = 0 := by
      show e.current.len = 0
      rw [h.shows.holds.len, hending.empty rfl]
      rfl
    rw [process_char_char (by decide), show labelOfChar (ctrl 'D') = .ctrlD from rfl, processLabel,
      if_pos hzero, show (e.reading rest).history.pop = _ from hpop] at hround
    exact ⟨-1, false,
      { e.reading rest with history := { e.history with lines := k.lines.dropLast } },
      by rw [editLoop, hround]; rfl, rfl, rfl, rfl, rfl⟩
  | eof =>
    obtain rfl := hending.last rfl
    have hinput : e.current.fd.input = pauses n := hinput.trans (List.append_nil _)
    have hread := fd_read_end e.current.fd hinput
    have hround : round completionCallback e none =
        .ok (.returned e.current.len false (e.reading [])) := by
      rw [round, readKey, hread]
      cases completionCallback <;> rfl
    exact ⟨e.current.len, false, e.reading [], by rw [editLoop, hround]; rfl, if_neg hlen, hkept,
      rfl,
      rfl⟩

section Line

variable (completionCallback : Option Callback) {history : History} {buf prompt : List UInt8}
variable {fd : Terminal} {e e' : Editor} {k : Desk}

/-- The editor has begun to read a line: `linenoise` is at its loop, at the desk before the first
    key. -/
structure Begins (history : History) (buf prompt : List UInt8) (fd : Terminal) (e : Editor) :
    Prop where
  up : enableRawMode fd = true
  starts : linenoiseEdit completionCallback history (newCurrent buf prompt fd) =
    editLoop completionCallback (2 * fd.input.length + 2) none e
  plays : e.Plays (.start history)
  turns : (newCurrent buf prompt fd).Turns ⟨.atEnd [], none⟩ e.current
  max_len : e.history.max_len = history.max_len

/-- Every call of `linenoise` at a terminal that is there begins so. -/
theorem linenoise_begins (h : history.Sound LINENOISE_MAX_LINE)
    (hbuf : buf.length = LINENOISE_MAX_LINE) (prompt : List UInt8) (hfd : fd.Reports)
    (hup : fd.input ≠ []) : ∃ e, Begins completionCallback history buf prompt fd e := by
  obtain ⟨c, hstart, hsound, hc⟩ :=
    linenoiseEdit_starts completionCallback h hbuf prompt hfd.ws_col
  have hreads : fd.Reads c.fd := .of_same hc.input hc.ws_col
  exact ⟨_, decide_eq_true hup, hstart, ⟨hsound, hc.shows, rfl, rfl, hreads.reports hfd⟩, hc, rfl⟩

/-- The editor has come to the end of a line, within its rounds. -/
theorem linenoise_ends (h : Begins completionCallback history buf prompt fd e) {n : Nat}
    (hcomes : e.ComesTo completionCallback n e') (hgoes : e.Goes k e') {ending : Ending}
    {m : Nat} {rest : List Event} (hending : ending.Fits k rest)
    (hinput : e'.current.fd.input = pauses m ++ (ending.key.events ++ rest))
    (hn : n ≤ fd.input.length) :
    linenoise completionCallback history buf prompt fd =
      .ok ((k.finish ending).1, { history with lines := (k.finish ending).2 },
        { e'.current.fd with input := rest }) := by
  obtain ⟨rounds, hle, hrun⟩ := hcomes
  -- the rounds that are not needed
  have hspare :
      2 * fd.input.length + 2 = rounds + (2 * fd.input.length + 1 - rounds + 1) := by omega
  obtain ⟨count, eagain, e'', hend, hline, hhistory, hbuf', hfd⟩ :=
    editLoop_ends completionCallback hgoes.plays hending hinput (2 * fd.input.length + 1 - rounds)
  have hmaxLen : e'.history.max_len = history.max_len := hgoes.max_len.trans h.max_len
  have hlines : e''.history = { history with lines := (k.finish ending).2 } := by
    rw [hhistory]
    simp only [hmaxLen]
  rw [linenoise, if_pos h.up, h.starts, hspare, hrun, hend, ok_bind, ← hlines, ← hline, ← hfd]
  by_cases hcount : count = -1
  · simp only [if_pos hcount]
    rfl
  · simp only [if_neg hcount, hbuf', hgoes.plays.shows.string.1]
    rfl

/-- The editor runs over the end of `rbuf`, within its rounds. -/
theorem linenoise_overruns (h : Begins completionCallback history buf prompt fd e) {n : Nat}
    (hover : e.Overruns completionCallback n) (hn : n ≤ fd.input.length) :
    linenoise completionCallback history buf prompt fd = .error (.outside .rbuf) := by
  obtain ⟨rounds, hle, hrun⟩ := hover
  have hspare :
      2 * fd.input.length + 2 = rounds + (2 * fd.input.length + 1 - rounds + 1) := by omega
  rw [linenoise, if_pos h.up, h.starts, hspare, hrun]
  rfl

/-- **The simulation**: whatever moves are made before the line ends, `linenoise` returns what the
    desk says, leaves the entries of the desk, and has read just these moves; or one of them overran
    `rbuf`. -/
theorem linenoise_plays (h : history.Sound LINENOISE_MAX_LINE)
    (hbuf : buf.length = LINENOISE_MAX_LINE) (prompt : List UInt8) {moves : List Move}
    {ending : Ending} (hfits : fits moves ending = true) (hfd : fd.Reports) (hup : fd.input ≠ [])
    {events rest : List Event} (htyped : Typed (lineKeys moves ending) events)
    (hinput : fd.input = events ++ rest) :
    ((Desk.start history).play completionCallback LINENOISE_MAX_LINE ending moves = none →
      linenoise completionCallback history buf prompt fd = .error (.outside .rbuf)) ∧
    ∀ k, (Desk.start history).play completionCallback LINENOISE_MAX_LINE ending moves = some k →
      ending.Fits k rest → ∃ fd', linenoise completionCallback history buf prompt fd =
        .ok ((k.finish ending).1, { history with lines := (k.finish ending).2 }, fd') ∧
        fd'.input = rest ∧ fd'.Reports := by
  obtain ⟨e, hbegins⟩ := linenoise_begins completionCallback h hbuf prompt hfd hup
  have hmax : e.current.bufmax = LINENOISE_MAX_LINE := hbegins.turns.bufmax
  have hread : (moves.flatMap Move.keys).length ≤ fd.input.length := by
    obtain ⟨before, behind, rfl, hbefore, -⟩ := typed_append.mp htyped
    have := hbefore.length_le (keys_ne_eof hfits)
    rw [hinput, List.length_append, List.length_append]
    omega
  obtain ⟨hover, hends⟩ := editLoop_plays completionCallback ending rest moves hfits
    hbegins.plays htyped (hbegins.turns.input.trans hinput)
  rw [hmax] at hover hends
  refine ⟨fun hnone => linenoise_overruns completionCallback hbegins (hover hnone) hread,
    fun k hk hending => ?_⟩
  obtain ⟨e', n', hcomes, hgoes, hrest⟩ := hends k hk
  refine ⟨_, linenoise_ends completionCallback hbegins hcomes hgoes hending hrest hread, rfl, ?_⟩
  refine hgoes.plays.reports.reading fun ws_col hin => ?_
  rw [hrest]
  exact List.mem_append_right _ (List.mem_append_right _ hin)

end Line

end Linenoise

end FepControl
