/-
  What can go wrong in `linenoise`, and when.

  `linenoise` is C: it writes to arrays by index, and nothing stops it where an array ends.  The
  model stops there (`Checked`), with the array that was left.  So to say that nothing goes wrong is
  to say that the model does not stop; and where it can stop, the question is who is to blame, and
  whether one can provoke it.

  1. **Reached** -- the histories that a process can come to: lines are read, and those that were
     read are added.  All of them are sound.

  2. **Safety** -- with any of them, whatever is typed, `linenoise` returns, but for two things.  It
     may write behind `rbuf`, the 50 characters of the search pattern.  And at a terminal that does
     not report its width it asks for it, and takes for the answer what comes: the number in it may
     be too large for an `int`, or missing.

  3. **Refinement** -- the moves that the desk knows are made as the desk says.

  4. **The overrun** -- the pattern has to be found, so that takes an entry of 49 characters.  The
     user can make one by typing it and going to another entry, where there is one: then the line is
     written back to the history.
-/
import FepControl.Linenoise.Typing

namespace FepControl

namespace Linenoise

open Lib

/-! ## Reached -/

/-- The histories that a process can come to. -/
inductive History.Reached : History → Prop where
  | initial : Reached .initial
  /-- `linenoise` was called -/
  | edited {history history' : History} {completionCallback : Option Callback}
      {buf prompt : List UInt8} {fd fd' : Terminal} {line : Line} (h : Reached history)
      (hbuf : buf.length = LINENOISE_MAX_LINE)
      (hrun : linenoise completionCallback history buf prompt fd = .ok (line, history', fd')) :
      Reached history'
  /-- and the line that it returned was added -/
  | remembered {history history' : History} {completionCallback : Option Callback}
      {buf prompt : List UInt8} {fd fd' : Terminal} {line : List UInt8} (h : Reached history)
      (hbuf : buf.length = LINENOISE_MAX_LINE)
      (hrun : linenoise completionCallback history buf prompt fd =
        .ok (.line line, history', fd')) :
      Reached { history' with lines := history'.added line }

/-- What a call of `linenoise` leaves. -/
theorem returned_of_ok {completionCallback : Option Callback} {history history' : History}
    (h : history.Sound LINENOISE_MAX_LINE) {buf prompt : List UInt8}
    (hbuf : buf.length = LINENOISE_MAX_LINE) {fd fd' : Terminal} {line : Line}
    (hrun : linenoise completionCallback history buf prompt fd = .ok (line, history', fd')) :
    Returned fd line history' fd' := by
  rcases linenoise_meets completionCallback h hbuf prompt fd with
    ⟨result, hok, hreturned⟩ | ⟨f, herr, -⟩
  · rw [hrun] at hok
    cases hok
    exact hreturned
  · rw [hrun] at herr
    cases herr

/-- **All of them are sound**: strings that fit into the line, and no more than there is
    room for. -/
theorem History.Reached.sound {history : History} (h : history.Reached) :
    history.Sound LINENOISE_MAX_LINE := by
  induction h with
  | initial => exact History.initial_sound
  | edited _ hbuf hrun ih => exact (returned_of_ok ih hbuf hrun).history
  | remembered _ hbuf hrun ih =>
    have hreturned := returned_of_ok ih hbuf hrun
    obtain ⟨hnul, hshort⟩ := hreturned.string _ rfl
    exact hreturned.history.add hnul (by omega)

/-! ## Safety -/

/-- **Whatever is typed**, `linenoise` returns: NULL or a string that fits, with a history that can
    go on, after reading no more than there was.  Or it runs over the end of `rbuf`, for which there
    has to be another entry in the history; or a terminal that does not report its width was asked
    for it, and its answer had too many digits, or none where the source relies on one. -/
theorem linenoise_returns {history : History} (h : history.Reached)
    (completionCallback : Option Callback) {buf : List UInt8}
    (hbuf : buf.length = LINENOISE_MAX_LINE) (prompt : List UInt8) (fd : Terminal) :
    (∃ line history' fd', linenoise completionCallback history buf prompt fd =
        .ok (line, history', fd') ∧ history'.Reached ∧
        history'.Sound LINENOISE_MAX_LINE ∧
        (∀ s, line = .line s → 0 ∉ s ∧ s.length < LINENOISE_MAX_LINE) ∧
        fd'.input <:+ fd.input) ∨
      (1 < history.opened.length ∧
        linenoise completionCallback history buf prompt fd = .error (.outside .rbuf)) ∨
      (¬ fd.Reports ∧
        (linenoise completionCallback history buf prompt fd = .error .overflow ∨
          linenoise completionCallback history buf prompt fd = .error .unset)) := by
  rcases linenoise_meets completionCallback h.sound hbuf prompt fd with
    ⟨⟨line, history', fd'⟩, hok, hreturned⟩ | ⟨f, herror, hfails⟩
  · exact .inl ⟨line, history', fd', hok, .edited h hbuf hok, hreturned.history, hreturned.string,
      hreturned.reads.input⟩
  · rcases hfails with ⟨rfl, hmany⟩ | ⟨rfl | rfl, hreports⟩
    · exact .inr (.inl ⟨hmany, herror⟩)
    · exact .inr (.inr ⟨hreports, .inl herror⟩)
    · exact .inr (.inr ⟨hreports, .inr herror⟩)

/-- A text that is typed and entered is in the history then. -/
theorem History.Reached.entered {history : History} (h : history.Reached) {w : List UInt8}
    (hw : ∀ c ∈ w, Printable c) (hroom : w.length + 1 < LINENOISE_MAX_LINE) :
    History.Reached { history with
      lines := History.added { history with lines := history.opened.dropLast } w } := by
  let keys := w.map Key.char ++ [.char (byte '\r')]
  have hbuf : (List.replicate 4096 (0 : UInt8)).length = LINENOISE_MAX_LINE := List.length_replicate
  obtain ⟨fd', hrun, -⟩ :=
    linenoise_typed none h.sound hbuf [] hw hroom (Terminal.typing_reports keys)
      (typed_events keys) (Terminal.typing_input keys)
  exact .remembered h hbuf hrun

/-- The history after one command. -/
def oneLine : History := ⟨[bytes "help"], 100⟩

/-- It is the history of a process in which this line was entered. -/
theorem oneLine_reached : oneLine.Reached := by
  have hw : ∀ c ∈ bytes "help", Printable c := by decide +kernel
  exact History.Reached.entered .initial hw (by decide)

/-- A terminal of 132 columns that does not report them by `ioctl` but answers, and a key. -/
theorem linenoise_returns_answer :
    (∃ line history' fd', linenoise none oneLine (List.replicate 4096 1) (bytes "fep> ")
        ⟨typedBytes (27 :: bytes "[1;6R" ++ 27 :: bytes "[1;132R" ++ bytes "a\r"), 0, []⟩ =
          .ok (line, history', fd') ∧ history'.Reached ∧ history'.Sound LINENOISE_MAX_LINE ∧
        (∀ s, line = .line s → 0 ∉ s ∧ s.length < LINENOISE_MAX_LINE) ∧
        fd'.input <:+ typedBytes (27 :: bytes "[1;6R" ++ 27 :: bytes "[1;132R" ++ bytes "a\r")) ∨
      (1 < oneLine.opened.length ∧ linenoise none oneLine (List.replicate 4096 1) (bytes "fep> ")
        ⟨typedBytes (27 :: bytes "[1;6R" ++ 27 :: bytes "[1;132R" ++ bytes "a\r"), 0, []⟩ =
          .error (.outside .rbuf)) ∨
      (¬ Terminal.Reports
          ⟨typedBytes (27 :: bytes "[1;6R" ++ 27 :: bytes "[1;132R" ++ bytes "a\r"), 0, []⟩ ∧
        (linenoise none oneLine (List.replicate 4096 1) (bytes "fep> ")
            ⟨typedBytes (27 :: bytes "[1;6R" ++ 27 :: bytes "[1;132R" ++ bytes "a\r"), 0, []⟩ =
              .error .overflow ∨
          linenoise none oneLine (List.replicate 4096 1) (bytes "fep> ")
            ⟨typedBytes (27 :: bytes "[1;6R" ++ 27 :: bytes "[1;132R" ++ bytes "a\r"), 0, []⟩ =
              .error .unset)) :=
  linenoise_returns oneLine_reached none List.length_replicate (bytes "fep> ") _

/-! ## Refinement -/

/-- **What is typed at the desk**, in any process, at a terminal that reports its width: `linenoise`
    returns what the desk says and leaves its entries, or the moves overrun `rbuf` in both. -/
theorem linenoise_refines {history : History} (h : history.Reached)
    (completionCallback : Option Callback) {buf : List UInt8}
    (hbuf : buf.length = LINENOISE_MAX_LINE) (prompt : List UInt8) {moves : List Move}
    {ending : Ending} (hfits : fits moves ending = true) {fd : Terminal} (hfd : fd.Reports)
    (hup : fd.input ≠ []) {events rest : List Event}
    (htyped : Typed (lineKeys moves ending) events) (hinput : fd.input = events ++ rest) :
    ((Desk.start history).play completionCallback LINENOISE_MAX_LINE ending moves = none →
      linenoise completionCallback history buf prompt fd = .error (.outside .rbuf)) ∧
    ∀ k, (Desk.start history).play completionCallback LINENOISE_MAX_LINE ending moves = some k →
      ending.Fits k rest → ∃ fd', linenoise completionCallback history buf prompt fd =
        .ok ((k.finish ending).1, { history with lines := (k.finish ending).2 }, fd') ∧
        fd'.input = rest ∧ ({ history with lines := (k.finish ending).2 } : History).Reached := by
  obtain ⟨hover, hends⟩ :=
    linenoise_plays completionCallback h.sound hbuf prompt hfits hfd hup htyped hinput
  refine ⟨hover, fun k hplay hending => ?_⟩
  obtain ⟨fd', hrun, hrest, -⟩ := hends k hplay hending
  exact ⟨fd', hrun, hrest, .edited h hbuf hrun⟩

/-- A letter that is completed, a search for another entry, two letters of which change places, and
    a lone escape. -/
def someMoves : List Move :=
  [.press (.char (byte 'e')), .complete 0, .search [.char (byte 'h')] (some (.char (ctrl 'J'))),
    .press (.special .SPECIAL_END), .press (.char (ctrl 'T')), .press (.char 27)]

/-- The line that they make, with one more key behind it. -/
theorem linenoise_refines_someMoves : ∃ fd',
    linenoise (some fun _ => [bytes "exit"]) oneLine (List.replicate 4096 1) (bytes "fep> ")
        (.typing (lineKeys someMoves .enter ++ [.char (byte 'n')])) =
      .ok (.line (bytes "hepl"), oneLine, fd') ∧
    fd'.input = [.byte (byte 'n')] ∧ oneLine.Reached := by
  have hfits : fits someMoves .enter = true := by decide
  have hbuf : (List.replicate 4096 (1 : UInt8)).length = LINENOISE_MAX_LINE := List.length_replicate
  have hup : (Terminal.typing (lineKeys someMoves .enter ++ [.char (byte 'n')])).input ≠ [] := by
    decide
  obtain ⟨-, hends⟩ := linenoise_refines oneLine_reached (some fun _ => [bytes "exit"]) hbuf
    (bytes "fep> ") hfits (Terminal.typing_reports _) hup (typed_events _) (List.flatMap_append ..)
  exact hends _ rfl (fits_enter _ _)

/-! ## The overrun -/

/-- A character that is found 49 times in a row in the newest entry overruns `rbuf` when it is typed
    once more. -/
theorem dialogue_overruns {lines : List (List UInt8)} {ch : UInt8}
    (hlast : lines.getLast? = some (List.replicate 49 ch)) :
    ∀ (n m : Nat) (k : Seek), k.pattern = List.replicate n ch → n + m = 50 → 0 < m →
      Seek.dialogue lines (List.replicate m (.extend ch)) k = none
  | n, 1, k, hpattern, hm, _ => by
      have hfull : k.pattern.length + 1 = rbufSize := by
        rw [hpattern, List.length_replicate]
        exact hm
      rw [List.replicate_one, Seek.dialogue, Seek.press, if_pos hfull]
      rfl
  | n, m + 2, k, hpattern, hm, _ => by
      have hroom : ¬ k.pattern.length + 1 = rbufSize := by
        rw [hpattern, List.length_replicate, show rbufSize = 50 from rfl]
        omega
      have hpos : 0 < lines.length := by
        cases lines with
        | nil => cases hlast
        | cons line lines => exact Nat.succ_pos _
      have hentry : lines.getD (lines.length - 1) [] = List.replicate 49 ch := by
        rw [List.getLast?_eq_getElem?] at hlast
        rw [List.getD_eq_getElem?_getD, hlast]
        rfl
      -- the first entry that is looked at is the newest one, which has the pattern
      have hfound : (Seek.look lines (k.pattern ++ [ch]) none
          (Seek.places lines.length (-1) (lines.length - 1))).isSome = true := by
        have hinfix : k.pattern ++ [ch] <:+: List.replicate 49 ch := by
          have hsplit : List.replicate 49 ch = k.pattern ++ [ch] ++ List.replicate (48 - n) ch := by
            rw [hpattern, ← List.replicate_succ', List.replicate_append_replicate,
              show n + 1 + (48 - n) = 49 by omega]
          rw [hsplit]
          exact (List.prefix_append _ _).isInfix
        have hsome := strstr_isSome_iff.mpr hinfix
        rw [places_cons (.inl rfl) (by omega), Seek.look, List.findSome?_cons,
          show ((lines.length : Int) - 1).toNat = lines.length - 1 by omega, hentry,
          if_neg (by simp)]
        obtain ⟨i, hi⟩ := Option.isSome_iff_exists.mp hsome
        rw [hi]
        rfl
      have hnext : (k.extend lines ch).pattern = List.replicate (n + 1) ch := by
        rw [Seek.extend, List.replicate_succ', ← hpattern]
        exact if_pos hfound
      rw [List.replicate_succ, Seek.dialogue, Seek.press, if_neg hroom, Option.bind_some]
      exact dialogue_overruns hlast (n + 1) (m + 1) _ hnext (by omega) (Nat.succ_pos _)

/-- The keys that overrun `rbuf` where there is another entry: a character 49 times, the cursor key
    up, `ctrl-r`, and the character 50 times more. -/
def overrunningKeys (ch : UInt8) : List Key :=
  List.replicate 49 (.char ch) ++ .special .SPECIAL_UP :: .char (ctrl 'R') ::
    List.replicate 50 (.char ch)

/-- The first of them make an entry. -/
def fillingKeys (ch : UInt8) : List Key := List.replicate 49 (.char ch) ++ [.special .SPECIAL_UP]

/-- The others search for it. -/
theorem overrunningKeys_eq (ch : UInt8) :
    overrunningKeys ch = fillingKeys ch ++ .char (ctrl 'R') :: List.replicate 50 (.char ch) := by
  rw [overrunningKeys, fillingKeys, List.append_cons]

section Filling

variable {ch : UInt8} (hch : Printable ch)

include hch

/-- They neither end the line nor start a dialogue. -/
theorem plain_fillingKeys : ∀ key ∈ fillingKeys ch, key.plain = true := by
  intro key hin
  rcases List.mem_append.mp hin with hin | hin
  · rw [List.eq_of_mem_replicate hin]
    exact plain_printable hch
  · rw [List.mem_singleton.mp hin]
    rfl

/-- A character that stands for itself is added to the pattern of a search. -/
theorem query_printable : (Key.char ch).query = some (.extend ch) := by
  have herase : ¬ (ch = ctrl 'H' ∨ ch = 127) := by
    rintro (heq | heq)
    · exact hch.ne_control (by decide) heq
    · exact hch.2 heq
  have hearlier : ch ≠ ctrl 'P' := hch.ne_control (by decide)
  have hlater : ch ≠ ctrl 'N' := hch.ne_control (by decide)
  rw [Key.query_char, if_neg herase, if_neg hearlier, if_neg hlater, if_pos hch.1]

/-- So it is any number of times. -/
theorem query_replicate (n : Nat) :
    ∀ key ∈ List.replicate n (Key.char ch), key.query.isSome = true := by
  intro key hin
  rw [List.eq_of_mem_replicate hin, query_printable hch]
  rfl

/-- All of them are keys. -/
theorem overrunningKeys_ne_eof : ∀ key ∈ overrunningKeys ch, key ≠ .eof := by
  intro key hin
  rw [overrunningKeys_eq] at hin
  rcases List.mem_append.mp hin with hin | hin
  · rintro rfl
    exact absurd (plain_fillingKeys hch _ hin) (by decide)
  · rcases List.mem_cons.mp hin with rfl | hin
    · exact Key.char_ne_eof _
    · exact Key.ne_eof_of_query (query_replicate hch _ key hin)

/-- With another entry to go to, a line of 49 characters that was left is the newest entry. -/
theorem filled {history : History} (hmany : 1 < history.opened.length) :
    ((fillingKeys ch).foldl (Desk.press LINENOISE_MAX_LINE) (.start history)).lines.getLast? =
      some (List.replicate 49 ch) := by
  have hw : ∀ c ∈ List.replicate 49 ch, Printable c := by
    intro c hc
    rw [List.eq_of_mem_replicate hc]
    exact hch
  have hnul : 0 ∉ List.replicate 49 ch := fun hin => absurd (hw 0 hin).1 (by decide)
  have htyped := Desk.typed hw (by rw [List.length_replicate]; decide) history
  rw [List.map_replicate] at htyped
  have hlines : ((Desk.start history).ending (List.replicate 49 ch)).lines = history.opened := rfl
  have hup : ∀ k : Desk, k.press LINENOISE_MAX_LINE (.special .SPECIAL_UP) = k.navigate 1 :=
    fun k => rfl
  rw [fillingKeys, List.foldl_append, htyped, List.foldl_cons, List.foldl_nil, hup, Desk.navigate,
    hlines, if_neg (by omega)]
  have hsaved : ((Desk.start history).ending (List.replicate 49 ch)).saved =
      history.opened.set (history.opened.length - 1) (List.replicate 49 ch) := by
    rw [Desk.saved, Desk.text_ending hnul, hlines]
    rfl
  have hlast : (history.opened.set (history.opened.length - 1)
      (List.replicate 49 ch)).getLast? = some (List.replicate 49 ch) := by
    rw [List.getLast?_eq_getElem?, List.length_set, List.getElem?_set_self (by omega)]
  rw [hsaved]
  split <;> exact hlast

/-- And a search for it overruns `rbuf`. -/
theorem filled_overruns {history : History} (hmany : 1 < history.opened.length) {k : Desk}
    (hk : (fillingKeys ch).foldl (Desk.press LINENOISE_MAX_LINE) (.start history) = k) :
    Seek.dialogue k.lines ((List.replicate 50 (Key.char ch)).filterMap Key.query)
      (.start k.lines k.draft.zipper) = none := by
  rw [List.filterMap_replicate_of_some (query_printable hch)]
  exact dialogue_overruns (hk ▸ filled hch hmany) 0 50 _ rfl rfl (by decide)

end Filling

/-- **They do it**, whatever is typed behind them. -/
theorem linenoise_overrun_typed {history : History} (h : history.Sound LINENOISE_MAX_LINE)
    (completionCallback : Option Callback) {buf : List UInt8}
    (hbuf : buf.length = LINENOISE_MAX_LINE) (prompt : List UInt8) {ch : UInt8}
    (hch : Printable ch) (hmany : 1 < history.opened.length) {fd : Terminal} (hfd : fd.Reports)
    {events rest : List Event} (htyped : Typed (overrunningKeys ch) events)
    (hinput : fd.input = events ++ rest) :
    linenoise completionCallback history buf prompt fd = .error (.outside .rbuf) := by
  have hkeys : (fillingKeys ch).length + 51 ≤ fd.input.length := by
    have hall := htyped.length_le (overrunningKeys_ne_eof hch)
    rw [overrunningKeys_eq, List.length_append, List.length_cons, List.length_replicate] at hall
    rw [hinput, List.length_append]
    omega
  have hup : fd.input ≠ [] := by
    intro hnil
    rw [hnil, List.length_nil] at hkeys
    omega
  rw [overrunningKeys_eq] at htyped
  obtain ⟨before, behind, rfl, hbefore, hbehind⟩ := typed_append.mp htyped
  obtain ⟨e, hbegins⟩ := linenoise_begins completionCallback h hbuf prompt hfd hup
  have hmax : e.current.bufmax = LINENOISE_MAX_LINE := hbegins.turns.bufmax
  rw [List.append_assoc] at hinput
  -- the line is typed and left, so that it is the newest entry
  obtain ⟨e', hcomes, hgoes, hinput'⟩ := presses_play (behind ++ rest) (fillingKeys ch)
    hbegins.plays (plain_fillingKeys hch) hbefore (hbegins.turns.input.trans hinput)
  rw [hmax] at hgoes
  -- and there it is searched for
  have hover := search_overruns completionCallback hgoes.plays (query_replicate hch 50) hbehind
    hinput' (filled_overruns hch hmany rfl)
  exact linenoise_overruns completionCallback hbegins (hcomes.overruns hover) (by omega)

/-- **When `rbuf` can be overrun**: a character typed 49 times, the cursor key up, `ctrl-r` and the
    character 50 times more do it exactly when there is another entry than the new line; and without
    another entry nothing does. -/
theorem linenoise_overruns_iff {history : History} (h : history.Reached)
    (completionCallback : Option Callback) {buf : List UInt8}
    (hbuf : buf.length = LINENOISE_MAX_LINE) (prompt : List UInt8) {ch : UInt8}
    (hch : Printable ch) {fd : Terminal} (hfd : fd.Reports) {events rest : List Event}
    (htyped : Typed (List.replicate 49 (.char ch) ++ .special .SPECIAL_UP :: .char (ctrl 'R') ::
      List.replicate 50 (.char ch)) events) (hinput : fd.input = events ++ rest) :
    (linenoise completionCallback history buf prompt fd = .error (.outside .rbuf) ↔
      1 < history.opened.length) ∧
    ∀ fd', linenoise completionCallback history buf prompt fd' = .error (.outside .rbuf) →
      1 < history.opened.length := by
  have hneeds : ∀ fd', linenoise completionCallback history buf prompt fd' =
      .error (.outside .rbuf) → 1 < history.opened.length := by
    intro fd' hover
    rcases linenoise_meets completionCallback h.sound hbuf prompt fd' with
      ⟨result, hok, -⟩ | ⟨f, herror, hfails⟩
    · rw [hover] at hok
      cases hok
    · rw [hover] at herror
      cases herror
      rcases hfails with ⟨-, hmany⟩ | ⟨hquery | hquery, -⟩
      · exact hmany
      · cases hquery
      · cases hquery
  refine ⟨⟨hneeds fd, fun hmany => ?_⟩, hneeds⟩
  exact linenoise_overrun_typed h.sound completionCallback hbuf prompt hch hmany hfd htyped hinput

/-- With the command before to go to. -/
theorem linenoise_overruns_iff_oneLine :
    (linenoise none oneLine (List.replicate 4096 1) (bytes "fep> ")
        (.typing (List.replicate 49 (.char (byte 'x')) ++ .special .SPECIAL_UP ::
          .char (ctrl 'R') :: List.replicate 50 (.char (byte 'x')))) =
        .error (.outside .rbuf) ↔ 1 < oneLine.opened.length) ∧
    ∀ fd', linenoise none oneLine (List.replicate 4096 1) (bytes "fep> ") fd' =
      .error (.outside .rbuf) → 1 < oneLine.opened.length := by
  have hch : Printable (byte 'x') := by decide
  exact linenoise_overruns_iff oneLine_reached none List.length_replicate (bytes "fep> ") hch
    (Terminal.typing_reports _) (typed_events _) (Terminal.typing_input _)

end Linenoise

end FepControl
