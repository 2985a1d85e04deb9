/-
  The command line front end on a terminal: `FepControlCommandLine::readInputFromSource` with the
  line editor behind it.

  The line editor knows nothing of commands, and the commands nothing of keys.  Between them is a
  loop of eight lines, and all that goes from the one to the other is a string, the history, and
  what the session answers when the tab key is pressed.  So what a user types in a whole session can
  be reduced to what `readInputFromSource` does with a list of lines, which the rest of this
  development is about.

  1. **The loop** -- a line is read, tokenized, added to the history, and processed, until the
     editor returns NULL.  The session, the history and the terminal are the state.  The completion
     answers in the session as it is by then, and is taken to leave it so.

  2. **A turn** -- what the user does at one prompt, and what the desk makes of it: the moves, and
     enter or `ctrl-c` behind them.  `deskLines` plays the turns one after the other; since the
     completions of a turn depend on what was processed before, it carries the session along.

  3. **The simulation** -- the loop processes the lines of the desk, in their order, exactly as
     `readInputFromSource` does that is given these lines.  `Passes` is the statement for a list of
     turns, and the induction adds a turn in front (`Passes.cons`).

  4. **The end of the input** -- at the prompt at which the terminal hangs up, nobody looks at the
     -1 of `fd_read`: the editor returns the line as far as it is written, and it is processed as if
     it had been entered.  After that the terminal cannot be set to raw mode any more, so that the
     next call reads with `fgets`, which finds nothing, and the loop ends.
-/
import FepControl.Failures
import FepControl.Linenoise.Overrun

namespace FepControl

namespace Linenoise

open Lib

variable {W : Type}

/-! ## The loop -/

/-- `line = strLine`. -/
def stringOf (s : List UInt8) : String := String.ofList (s.map fun c => Char.ofNat c.toNat)

/-- The process, as the loop sees it. -/
structure Console (W : Type) where
  machine : Machine W
  history : History
  fd : Terminal

variable (completion : Machine W → Callback) (stack : Nat → List UInt8) (env : Env W)

/-- `readInputFromSource`, for a number of lines at most.  `completion` is what the completion
    answers in a session, and `stack` is what each call of `linenoise` finds in its array. -/
def readInputFromTerminal : (rounds : Nat) → Console W →
    Checked (Outcome String Stop Unit × Console W)
  | 0, _ => throw .unfinished
  | rounds + 1, console => do
    let (strLine, history, fd) ← linenoise (some (completion console.machine)) console.history
      (stack rounds) (bytes "fep> ") console.fd
    let console := { console with history, fd }
    match readLine strLine with
    | none => pure (.ok (), console)
    | some line =>
      let lineTokens := parseLine (stringOf line)
      if lineTokens.isEmpty then readInputFromTerminal rounds console
      else do
        let (_, history) ← linenoiseHistoryAdd console.history line
        let (outcome, machine) := commandLineRound lineTokens env console.machine
        let console := { console with machine, history }
        match outcome with
        | .ok () => readInputFromTerminal rounds console
        | outcome => pure (outcome, console)

/-! ## Turns -/

/-- What the user does at one prompt. -/
structure Turn where
  moves : List Move
  ending : Ending
  deriving DecidableEq, Repr

/-- The keys of a turn. -/
def Turn.keys (t : Turn) : List Key := lineKeys t.moves t.ending

/-- The moves of the turn can be made, and there is a line at its end. -/
structure Turn.Fits (t : Turn) : Prop where
  fits : Linenoise.fits t.moves t.ending = true
  line : t.ending = .enter ∨ t.ending = .ctrlC

/-- The history once a line was processed: one without tokens is not added. -/
def History.remember (history : History) (line : List UInt8) : History :=
  if (parseLine (stringOf line)).isEmpty then history
  else { history with lines := history.added line }

/-- The session once a line was processed. -/
def sessionAfter (line : List UInt8) (machine : Machine W) : Machine W :=
  if (parseLine (stringOf line)).isEmpty then machine
  else (commandLineRound (parseLine (stringOf line)) env machine).2

/-- A history that remembers a line is sound. -/
theorem History.Sound.remember {history : History} (h : history.Sound LINENOISE_MAX_LINE)
    {line : List UInt8} (hnul : 0 ∉ line) (hshort : line.length < LINENOISE_MAX_LINE) :
    (history.remember line).Sound LINENOISE_MAX_LINE := by
  rw [History.remember]
  split
  · exact h
  · exact h.add hnul (by omega)

section Loop

variable {stack : Nat → List UInt8}

/-- What the loop does with a line that was read. -/
def afterLine (stack : Nat → List UInt8) (rounds : Nat) (line : List UInt8) (console : Console W) :
    Checked (Outcome String Stop Unit × Console W) :=
  if (parseLine (stringOf line)).isEmpty then
    readInputFromTerminal completion stack env rounds console
  else
    match commandLineRound (parseLine (stringOf line)) env console.machine with
    | (.ok (), machine) =>
      readInputFromTerminal completion stack env rounds { console with machine }
    | (outcome, machine) => pure (outcome, { console with machine })

/-- A line is remembered, and processed if it has tokens. -/
theorem readInputFromTerminal_line {console : Console W} {rounds : Nat} {strLine : Line}
    {left : History} {fd : Terminal} {line : List UInt8}
    (hrun : linenoise (some (completion console.machine)) console.history (stack rounds)
      (bytes "fep> ") console.fd = .ok (strLine, left, fd))
    (hread : readLine strLine = some line) (hleft : left.Sound LINENOISE_MAX_LINE) :
    readInputFromTerminal completion stack env (rounds + 1) console =
      afterLine completion env stack rounds line ⟨console.machine, left.remember line, fd⟩ := by
  rw [readInputFromTerminal, hrun, ok_bind, afterLine]
  simp only [hread]
  by_cases hempty : (parseLine (stringOf line)).isEmpty = true
  · rw [if_pos hempty, if_pos hempty, History.remember, if_pos hempty]
  · obtain ⟨ret, hadd⟩ := linenoiseHistoryAdd_added hleft.pos hleft.fits line
    rw [if_neg hempty, if_neg hempty, hadd, ok_bind, History.remember, if_neg hempty]
    rcases commandLineRound (parseLine (stringOf line)) env console.machine with
      ⟨⟨⟩ | e | d, machine⟩ <;> rfl

/-- A line with tokens is processed. -/
theorem afterLine_of_command (stack : Nat → List UInt8) {line : List UInt8}
    (hline : (parseLine (stringOf line)).isEmpty = false) {console : Console W}
    {outcome : Outcome String Stop Unit} {machine : Machine W}
    (hcommand :
      commandLineRound (parseLine (stringOf line)) env console.machine = (outcome, machine))
    (rounds : Nat) : afterLine completion env stack rounds line console =
      if outcome = .ok () then
        readInputFromTerminal completion stack env rounds { console with machine }
      else .ok (outcome, { console with machine }) := by
  rw [afterLine, if_neg (Bool.eq_false_iff.mp hline), hcommand]
  clear hcommand
  cases outcome with
  | ok u => rw [if_pos rfl]
  | throws e => rw [if_neg fun heq => by cases heq]; rfl
  | stops d => rw [if_neg fun heq => by cases heq]; rfl

/-- The loop comes to what is behind some lines, with the session as `readInputFromSource` leaves it
    that is given these lines; or it ends with a command among them that does not return. -/
structure Passes (stack : Nat → List UInt8) (lines : List (List UInt8)) (rounds rounds' : Nat)
    (console : Console W) (history : History) (fd : Terminal) : Prop where
  goes_on : ∀ machine,
    readInputFromSource commandLineRound (lines.map stringOf) env console.machine =
      (.ok (), machine) →
    readInputFromTerminal completion stack env rounds console =
      readInputFromTerminal completion stack env rounds' ⟨machine, history, fd⟩
  ends : ∀ outcome machine, readInputFromSource commandLineRound (lines.map stringOf) env
      console.machine = (outcome, machine) → outcome ≠ .ok () →
    ∃ console', readInputFromTerminal completion stack env rounds console =
      .ok (outcome, console') ∧ console'.machine = machine

variable {completion env}

/-- No lines. -/
theorem Passes.nil (rounds : Nat) (console : Console W) :
    Passes completion env stack [] rounds rounds console console.history console.fd where
  goes_on := by
    intro machine heq
    obtain ⟨-, rfl⟩ := Prod.mk.inj heq
    rfl
  ends := by
    intro outcome machine heq hne
    obtain ⟨rfl, -⟩ := Prod.mk.inj heq
    exact absurd rfl hne

/-- A line and then others, which are processed in the session that the first one leaves. -/
theorem Passes.cons {line : List UInt8} {lines : List (List UInt8)} {rounds rounds' rounds'' : Nat}
    {console : Console W} {between history : History} {fd fd' : Terminal}
    (hround : readInputFromTerminal completion stack env rounds'' console =
      afterLine completion env stack rounds line ⟨console.machine, between, fd⟩)
    (hnext : Passes completion env stack lines rounds rounds'
      ⟨sessionAfter env line console.machine, between, fd⟩ history fd') :
    Passes completion env stack (line :: lines) rounds'' rounds' console history fd' := by
  obtain ⟨hok, hstops⟩ := hnext
  rw [sessionAfter] at hok hstops
  constructor
  · intro machine hsource
    rw [List.map_cons, readInputFromSource] at hsource
    rw [hround, afterLine]
    by_cases hempty : (parseLine (stringOf line)).isEmpty = true
    · rw [if_pos hempty] at hsource hok ⊢
      exact hok machine hsource
    · rw [if_neg hempty, Eff.bind_apply] at hsource
      rw [if_neg hempty] at hok ⊢
      rcases hcommand : commandLineRound (parseLine (stringOf line)) env console.machine with
        ⟨⟨⟩ | e | d, machine'⟩
      · rw [hcommand] at hsource hok
        exact hok machine hsource
      · rw [hcommand] at hsource
        cases hsource
      · rw [hcommand] at hsource
        cases hsource
  · intro outcome machine hsource hne
    rw [List.map_cons, readInputFromSource] at hsource
    rw [hround, afterLine]
    by_cases hempty : (parseLine (stringOf line)).isEmpty = true
    · rw [if_pos hempty] at hsource hstops ⊢
      exact hstops outcome machine hsource hne
    · rw [if_neg hempty, Eff.bind_apply] at hsource
      rw [if_neg hempty] at hstops ⊢
      rcases hcommand : commandLineRound (parseLine (stringOf line)) env console.machine with
        ⟨⟨⟩ | e | d, machine'⟩
      · rw [hcommand] at hsource hstops
        exact hstops outcome machine hsource hne
      · rw [hcommand] at hsource
        obtain ⟨rfl, rfl⟩ := Prod.mk.inj hsource
        exact ⟨_, rfl, rfl⟩
      · rw [hcommand] at hsource
        obtain ⟨rfl, rfl⟩ := Prod.mk.inj hsource
        exact ⟨_, rfl, rfl⟩

/-- A turn has a key, so the terminal is there. -/
theorem Turn.Fits.input_ne_nil {t : Turn} (ht : t.Fits) {events rest : List Event}
    (htyped : Typed t.keys events) {fd : Terminal} (hinput : fd.input = events ++ rest) :
    fd.input ≠ [] := by
  have hkey : t.ending.key ≠ .eof := by
    rcases ht.line with hline | hline <;> rw [hline] <;> exact Key.char_ne_eof _
  exact Linenoise.input_ne_nil hkey htyped hinput

variable (completion env)

end Loop

end Linenoise

end FepControl
