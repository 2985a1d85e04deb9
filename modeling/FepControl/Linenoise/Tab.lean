/-
  Completion, from the tab key to the command.

  Three parts of the tool are in a completion: the editor, which reads the tabs and shows the
  offers; the callback, which is `commandCompletion` with its tokenizer and its quoting; and the
  loop, which processes the line that was taken.  Here they are put together.

  1. **Tabs behind a text** -- they offer the completions of the text one after the other and then
     the text itself, in a circle; enter takes the one that is offered, as far as it fits
     (`offered`, `linenoise_completes`).  The text is one that was typed, so it has no NUL, and the
     cursor is behind it.

  2. **Command names** -- what the tool offers for a single token are the names of the commands that
     start with it (`callback_commandNames`), since these names need no quoting and their bytes are
     their characters.

  3. **To the command** -- they are offered in the order of the table, and the command that is taken
     is processed, and remembered (`readInputFromTerminal_completes`).
-/
import FepControl.Linenoise.Console
import FepControl.TokenCompletion

namespace FepControl

namespace Linenoise

open Lib

/-! ## Tabs behind a text -/

/-- What is offered after one tab and `more` others. -/
def offered (cpp_callback_function : Callback) (w : List UInt8) (more : Nat) : List UInt8 :=
  let cvec := callback cpp_callback_function w
  ((cvec ++ [w]).getD (more % (cvec.length + 1)) w).take (LINENOISE_MAX_LINE - 1)

section Tabs

variable {cpp_callback_function : Callback} {w : List UInt8}

/-- Without completions the text is all that is offered. -/
theorem offered_none (h : callback cpp_callback_function w = [])
    (hroom : w.length + 1 < LINENOISE_MAX_LINE) (more : Nat) :
    offered cpp_callback_function w more = w := by
  rw [offered, h]
  show (([w] : List (List UInt8)).getD (more % 1) w).take _ = w
  rw [Nat.mod_one, List.getD_cons_zero, List.take_of_length_le (by omega)]

/-- What is offered is a C string. -/
theorem nul_not_mem_offered (hw : 0 ∉ w) (more : Nat) :
    0 ∉ offered cpp_callback_function w more := by
  intro hin
  have hin := List.mem_of_mem_take hin
  rw [List.getD_eq_getElem?_getD] at hin
  cases hget : (callback cpp_callback_function w ++ [w])[more %
      ((callback cpp_callback_function w).length + 1)]? with
  | none =>
    rw [hget] at hin
    exact hw hin
  | some completion =>
    rw [hget] at hin
    rcases List.mem_append.mp (List.mem_of_getElem? hget) with hc | hc
    · exact callback_strings cpp_callback_function w completion hc hin
    · rw [List.mem_singleton.mp hc] at hin
      exact hw hin

/-- **Tabs at the desk**: enter takes what is offered. -/
theorem Desk.complete_typed (hw : 0 ∉ w) (hroom : w.length + 1 < LINENOISE_MAX_LINE) (more : Nat)
    (k : Desk) : (k.ending w).complete (some cpp_callback_function) LINENOISE_MAX_LINE more
      Ending.enter.key = k.ending (offered cpp_callback_function w more) := by
  have hafter : (k.ending w).draft.zipper.after = [] := rfl
  have hkey : ¬ (Ending.enter.key.first = .eof ∨ Ending.enter.key.first = .char 27) := by decide
  rw [Desk.complete]
  simp only [if_pos hafter, Desk.text_ending hw]
  by_cases hnone : callback cpp_callback_function w = []
  · rw [if_pos hnone, offered_none hnone hroom]
  · rw [if_neg hnone, taken, if_neg hkey, offered]
    generalize callback cpp_callback_function w = cvec
    have hlt : more % (cvec.length + 1) < cvec.length + 1 := Nat.mod_lt _ (Nat.succ_pos _)
    generalize more % (cvec.length + 1) = i at hlt
    rw [List.getD_eq_getElem?_getD]
    cases hget : cvec[i]? with
    | none =>
      have hi : i = cvec.length := by
        have hle := List.getElem?_eq_none_iff.mp hget
        omega
      rw [hi, List.getElem?_concat_length, Option.getD_some, List.take_of_length_le (by omega)]
      rfl
    | some completion =>
      have hin : i < cvec.length := (List.getElem?_eq_some_iff.mp hget).1
      rw [List.getElem?_append_left hin, hget]
      rfl

/-- The keys of a text, the tab key once and `more` times again, and enter. -/
def completingKeys (w : List UInt8) (more : Nat) : List Key :=
  w.map .char ++ List.replicate (more + 1) (.char (byte '\t')) ++ [.char (byte '\r')]

/-- **Tabs behind a text**: the line is what is offered. -/
theorem linenoise_completes (cpp_callback_function : Callback) {history : History}
    (h : history.Sound LINENOISE_MAX_LINE) {buf : List UInt8}
    (hbuf : buf.length = LINENOISE_MAX_LINE) (prompt : List UInt8) (hw : ∀ c ∈ w, Printable c)
    (hroom : w.length + 1 < LINENOISE_MAX_LINE) (more : Nat) {fd : Terminal} (hfd : fd.Reports)
    {events rest : List Event} (htyped : Typed (completingKeys w more) events)
    (hinput : fd.input = events ++ rest) :
    ∃ fd', linenoise (some cpp_callback_function) history buf prompt fd =
        .ok (.line (offered cpp_callback_function w more),
          { history with lines := history.opened.dropLast }, fd') ∧ fd'.input = rest := by
  have hnul : 0 ∉ w := fun hin => absurd (hw 0 hin).1 (by decide)
  have hfits : fits ((w.map Key.char).map .press ++ [.complete more]) .enter = true := by
    rw [fits_presses (plain_typed hw)]
    rfl
  have hplay : (Desk.start history).play (some cpp_callback_function) LINENOISE_MAX_LINE .enter
      ((w.map Key.char).map .press ++ [.complete more]) =
      some ((Desk.start history).ending (offered cpp_callback_function w more)) := by
    rw [play_presses, Desk.typed hw hroom]
    exact congrArg some (Desk.complete_typed hnul hroom more _)
  have hkeys : lineKeys ((w.map Key.char).map .press ++ [.complete more]) .enter =
      completingKeys w more := by
    rw [lineKeys, List.flatMap_append, flatMap_keys_presses, List.flatMap_singleton]
    rfl
  have hup := input_ne_nil (Key.char_ne_eof _) htyped hinput
  rw [← hkeys] at htyped
  obtain ⟨fd', hrun, hrest, -⟩ := (linenoise_plays (some cpp_callback_function) h hbuf prompt hfits
    hfd hup htyped hinput).2 _ hplay (fits_enter _ _)
  refine ⟨fd', ?_, hrest⟩
  rw [hrun, Desk.finish, Desk.text_ending (nul_not_mem_offered hnul more)]
  rfl

end Tabs

/-! ## Command names -/

variable {W : Type}

/-- `std::bind(&FepControlCommandLine::commandCompletion, this, _1)`, as far as it answers. -/
def boundCompletion (env : Env W) (machine : Machine W) : Callback := fun input =>
  match (commandCompletion (stringOf input) env machine).1 with
  | .ok completions => completions.map bytes
  | _ => []

/-- The names of the commands are read back, and fit into a line. -/
theorem commandNames_bytes : ∀ name ∈ commandNames,
    (bytes name).takeWhile (· ≠ 0) = bytes name ∧ (bytes name).length < LINENOISE_MAX_LINE ∧
      parseLine (stringOf (bytes name)) = [name] := by
  have hall : (commandNames.all fun name => decide ((bytes name).takeWhile (· ≠ 0) = bytes name ∧
      (bytes name).length < LINENOISE_MAX_LINE ∧ parseLine (stringOf (bytes name)) = [name])) =
        true := by decide +kernel
  intro name hname
  exact of_decide_eq_true (List.all_eq_true.mp hall name hname)

/-- **What is offered for a token**: the names of the commands that start with it. -/
theorem callback_commandNames {w : List UInt8} {t : String} (ht : parseLine (stringOf w) true = [t])
    (hne : t ≠ "") (env : Env W) (machine : Machine W) :
    callback (boundCompletion env machine) w = (commandNames.filter (startsWith t)).map bytes := by
  have hsame : completionsOf (quoteNameIfNecessary t) commandNames =
      commandNames.filter (startsWith t) := by
    refine List.filter_congr fun name hname => ?_
    exact startsWith_quoteNameIfNecessary hne (commandNames_bare name hname)
  rw [callback, boundCompletion, commandCompletion_single ht, hsame]
  show ((commandNames.filter (startsWith t)).map bytes).map _ = _
  rw [List.map_map]
  refine List.map_congr_left fun name hname => ?_
  exact (commandNames_bytes name (List.mem_filter.mp hname).1).1

/-- **From the tab key to the command**: a token is typed, the tab key pressed a number of times,
    and enter; then the command is processed whose name is offered. -/
theorem readInputFromTerminal_completes {stack : Nat → List UInt8} (env : Env W)
    (hstack : ∀ n, (stack n).length = LINENOISE_MAX_LINE) {console : Console W}
    (h : console.history.Sound LINENOISE_MAX_LINE) {w : List UInt8} (hw : ∀ c ∈ w, Printable c)
    (hroom : w.length + 1 < LINENOISE_MAX_LINE) {t : String}
    (ht : parseLine (stringOf w) true = [t]) (hne : t ≠ "") {more : Nat} {name : String}
    (hname : (commandNames.filter (startsWith t))[more %
      ((commandNames.filter (startsWith t)).length + 1)]? = some name) (hfd : console.fd.Reports)
    {events rest : List Event} (htyped : Typed (w.map .char ++
      List.replicate (more + 1) (.char (byte '\t')) ++ [.char (byte '\r')]) events)
    (hinput : console.fd.input = events ++ rest) {outcome : Outcome String Stop Unit}
    {machine : Machine W}
    (hcommand : commandLineRound [name] env console.machine = (outcome, machine)) (rounds : Nat) :
    ∃ console', console'.machine = machine ∧ console'.fd.input = rest ∧
      console'.history.lines.getLast? = some (bytes name) ∧
      readInputFromTerminal (boundCompletion env) stack env (rounds + 1) console =
        if outcome = .ok () then
          readInputFromTerminal (boundCompletion env) stack env rounds console'
        else .ok (outcome, console') := by
  obtain ⟨hclean, hshort, hparse⟩ :=
    commandNames_bytes name (List.mem_filter.mp (List.mem_of_getElem? hname)).1
  have hoffered : offered (boundCompletion env console.machine) w more = bytes name := by
    have hget : ((commandNames.filter (startsWith t)).map bytes ++ [w])[more %
        ((commandNames.filter (startsWith t)).length + 1)]? = some (bytes name) := by
      have hlt := (List.getElem?_eq_some_iff.mp hname).1
      rw [List.getElem?_append_left (by rw [List.length_map]; exact hlt), List.getElem?_map, hname]
      rfl
    simp only [offered, callback_commandNames ht hne, List.length_map,
      List.getD_eq_getElem?_getD, hget, Option.getD_some]
    exact List.take_of_length_le (Nat.le_pred_of_lt hshort)
  obtain ⟨fd, hrun, hrest⟩ :=
    linenoise_completes (boundCompletion env console.machine) h (hstack rounds) (bytes "fep> ") hw
      hroom more hfd htyped hinput
  have hleft := (returned_of_ok h (hstack rounds) hrun).history
  rw [hoffered] at hrun
  have hloop := readInputFromTerminal_line (boundCompletion env) env hrun rfl hleft
  have htokens : (parseLine (stringOf (bytes name))).isEmpty = false := by
    rw [hparse]
    rfl
  let left : History := { console.history with lines := console.history.opened.dropLast }
  let before : Console W := ⟨console.machine, left.remember (bytes name), fd⟩
  have hcommand' : commandLineRound (parseLine (stringOf (bytes name))) env before.machine =
      (outcome, machine) := by
    rw [hparse]
    exact hcommand
  have hafter := afterLine_of_command (boundCompletion env) env stack htokens hcommand' rounds
  have hlast : (left.remember (bytes name)).lines.getLast? = some (bytes name) := by
    rw [History.remember, if_neg (Bool.eq_false_iff.mp htokens)]
    exact History.getLast?_added _ _
  exact ⟨{ before with machine }, rfl, hrest, hlast, hloop.trans hafter⟩

/-- Two letters are typed with which commands begin, and the tab key is pressed twice. -/
def aCompletion : Console Unit :=
  ⟨Machine.new false "" (), oneLine, .typing (completingKeys (bytes "di") 1)⟩

/-- Some letters, tabs and enter, and the discovery is processed. -/
theorem readInputFromTerminal_completes_discoverSystem : ∃ console',
    console'.machine = (commandLineRound ["discoverSystem"] Env.offline aCompletion.machine).2 ∧
      console'.fd.input = [] ∧
      console'.history.lines.getLast? = some (bytes "discoverSystem") ∧
      readInputFromTerminal (boundCompletion Env.offline) (fun _ => List.replicate 4096 0)
        Env.offline
          2 aCompletion =
        if (commandLineRound ["discoverSystem"] Env.offline aCompletion.machine).1 = .ok () then
          readInputFromTerminal (boundCompletion Env.offline) (fun _ => List.replicate 4096 0)
            Env.offline 1 console'
        else .ok ((commandLineRound ["discoverSystem"] Env.offline aCompletion.machine).1,
          console') := by
  have hprintable : ∀ c ∈ bytes "di", Printable c := by decide +kernel
  have htoken : parseLine (stringOf (bytes "di")) true = ["di"] := by decide +kernel
  have hname : (commandNames.filter (startsWith "di"))[1 %
      ((commandNames.filter (startsWith "di")).length + 1)]? = some "discoverSystem" := by
    decide +kernel
  exact readInputFromTerminal_completes Env.offline (fun _ => List.length_replicate)
    oneLine_reached.sound hprintable (by decide) htoken (by decide) hname
    (Terminal.typing_reports _) (typed_events _) (Terminal.typing_input _) rfl 1

end Linenoise

end FepControl
