/-
  The line editor: `linenoiseEdit` and `linenoise` of `linenoise.c`, and the functions of
  `linenoise_wrapper.cpp` over them.

  The heart of the source is one `switch` in one endless loop.  It is taken apart here along its
  labels, and put together again: a round is a key that is read, or one that a search has left, and
  the branch of its label.

  1. **Keys** -- the labels of the `switch` are named by `Label`; each has its branch as a function.
     Several keys have one label, as `ctrl-b` and the arrow to the left have.

  2. **Rounds** -- a round of the `while(1)` ends by going on, by returning, or by a `goto
     process_char` with the key that ended a search.

  3. **The loop** -- it is given a number of rounds.  Two for an event are enough: a round reads
     one, or has a key that a search has read.  So `unfinished` is no way for `linenoise` to end,
     which is proved together with its safety.

  4. **The tool** -- `linenoise` on a terminal, and `readLine` over it.  Every call checks anew that
     there is a terminal; once it has hung up there is none, and no line.
-/
import FepControl.Linenoise.Completion
import FepControl.Linenoise.Search

namespace FepControl

namespace Linenoise

open Lib

/-! ## Keys -/

/-- The labels of the `switch`, by the keys of their comments. -/
inductive Label where
  | enter | ctrlC | backspace | ctrlD | delete | insert | ctrlW | ctrlR | ctrlT | ctrlV | left
  | right | pageUp | pageDown | up | down | home | lineEnd | ctrlU | ctrlK | ctrlY | ctrlL | other
  deriving DecidableEq, Repr

/-- The labels of the special keys. -/
def labelOfSpecial : Special → Label
  | .SPECIAL_UP => .up
  | .SPECIAL_DOWN => .down
  | .SPECIAL_LEFT => .left
  | .SPECIAL_RIGHT => .right
  | .SPECIAL_DELETE => .delete
  | .SPECIAL_HOME => .home
  | .SPECIAL_END => .lineEnd
  | .SPECIAL_INSERT => .insert
  | .SPECIAL_PAGE_UP => .pageUp
  | .SPECIAL_PAGE_DOWN => .pageDown

/-- The labels of the characters. -/
def labelOfChar (c : UInt8) : Label :=
  if c = byte '\r' then .enter
  else if c = ctrl 'C' then .ctrlC
  else if c = 127 ∨ c = ctrl 'H' then .backspace
  else if c = ctrl 'D' then .ctrlD
  else if c = ctrl 'W' then .ctrlW
  else if c = ctrl 'R' then .ctrlR
  else if c = ctrl 'T' then .ctrlT
  else if c = ctrl 'V' then .ctrlV
  else if c = ctrl 'B' then .left
  else if c = ctrl 'F' then .right
  else if c = ctrl 'P' then .up
  else if c = ctrl 'N' then .down
  else if c = ctrl 'A' then .home
  else if c = ctrl 'E' then .lineEnd
  else if c = ctrl 'U' then .ctrlU
  else if c = ctrl 'K' then .ctrlK
  else if c = ctrl 'Y' then .ctrlY
  else if c = ctrl 'L' then .ctrlL
  else .other

/-- The branch that a key takes. -/
def labelOf : Key → Label
  | .eof => .other
  | .char c => labelOfChar c
  | .special s => labelOfSpecial s

/-! ## The branches that change the line -/

/-- The line after an edit that returned `ret`; it is shown again where that is 1. -/
def refreshIfOne (edit : Checked (Int × Current)) : Checked Current := do
  let (ret, current) ← edit
  if ret = 1 then refreshLine current.prompt current else pure current

/-- The line after an edit that returned `ret`; it is shown again where that is not 0. -/
def refreshIfAny (edit : Checked (Int × Current)) : Checked Current := do
  let (ret, current) ← edit
  if ret ≠ 0 then refreshLine current.prompt current else pure current

/-- `while (pos > 0 && get_char(current, pos - 1) == ' ') pos--;`, and the same loop with `!=`. -/
def eat (spaces : Bool) (current : Current) : (pos : Nat) → Checked Nat
  | 0 => pure 0
  | pos + 1 => do
    let c ← get_char current pos
    if (c == some (byte ' ')) == spaces then eat spaces current pos else pure (pos + 1)

/-- `ctrl-w`, delete word at left. -/
def deleteWord (current : Current) : Checked Current := do
  let pos ← eat true current current.pos.toNat
  let pos ← eat false current pos
  refreshIfAny (remove_chars current pos (current.pos - pos))

/-- `ctrl-t`. -/
def transposeChars (current : Current) : Checked Current :=
  if current.pos > 0 ∧ current.pos ≤ current.chars then do
    -- if cursor is at end, transpose the previous two chars
    let fixer : Int := if current.pos = current.chars then 1 else 0
    let c ← get_char current (current.pos - fixer)
    let (_, current) ← remove_char current (current.pos - fixer)
    let (_, current) ← insert_char current (current.pos - 1) (c.getD 255)
    refreshLine current.prompt current
  else pure current

/-- `ctrl-v`: the next character is inserted as it is. -/
def quotedInsert (c : UInt8) (current : Current) : Checked Current :=
  if has_room current 3 then do
    -- insert the ^V first
    let (ret, current) ← insert_char current current.pos c
    if ret = 0 then pure current
    else do
      let current ← refreshLine current.prompt current
      -- now wait for the next char
      let (c, fd) := fd_read current.fd
      let current := { current with fd }
      -- remove the ^V first
      let (_, current) ← remove_char current (current.pos - 1)
      let current ← match c with
        | .char ch => do
          let (_, current) ← insert_char current current.pos ch
          pure current
        | _ => pure current
      refreshLine current.prompt current
  else pure current

/-- `ctrl-b`, and the arrow to the left. -/
def moveLeft (current : Current) : Checked Current :=
  if current.pos > 0 then
    refreshLine current.prompt { current with pos := current.pos - 1 }
  else pure current

/-- `ctrl-f`, and the arrow to the right. -/
def moveRight (current : Current) : Checked Current :=
  if current.pos < current.chars then
    refreshLine current.prompt { current with pos := current.pos + 1 }
  else pure current

/-- `ctrl-y`, insert saved chars at current position. -/
def yank (current : Current) : Checked Current :=
  match current.capture with
  | some capture => refreshIfAny (insert_chars current current.pos capture)
  | none => pure current

/-- `ctrl-l`, clear screen. -/
def clear (current : Current) : Checked Current :=
  refreshLine current.prompt { current with cols := 0, fd := current.fd.write .clearScreen }

/-- The default branch: only tab is allowed without `^V`. -/
def insertKey (c : Key) (current : Current) : Checked Current :=
  match c with
  | .char ch =>
    if ch = byte '\t' ∨ byte ' ' ≤ ch then refreshIfOne (insert_char current current.pos ch)
    else pure current
  | _ => pure current

/-! ## Rounds -/

/-- The variables of `linenoiseEdit`, and the history, which is global. -/
structure Editor where
  current : Current
  history : History
  history_index : Int
  deriving DecidableEq, Repr

/-- How a round of the loop ends. -/
inductive Step where
  | again (e : Editor)
  | goto_process_char (c : Key) (e : Editor)
  /-- with a count, and `errno` set to `EAGAIN` or not -/
  | returned (count : Int) (eagain : Bool) (e : Editor)

/-- A branch that changes the line only. -/
def Editor.edit (e : Editor) (f : Current → Checked Current) : Checked Step := do
  let current ← f e.current
  pure (.again { e with current })

/-- The branches at `history_navigation`. -/
def historyNavigation (dir : Int) (e : Editor) : Checked Editor :=
  if e.history.len > 1 then do
    -- update the current history entry before to overwrite it with the next one
    let line ← checked .buf (cString 0 e.current.buf)
    let history ← e.history.set (e.history.len - 1 - e.history_index) line
    let history_index := e.history_index + dir
    if history_index < 0 then pure { e with history, history_index := 0 }
    else if history_index ≥ history.len then
      pure { e with history, history_index := history.len - 1 }
    else do
      -- show the new entry
      let entry ← history.get (history.len - 1 - history_index)
      let current ← set_current e.current entry
      let current ← refreshLine current.prompt current
      pure { current, history, history_index }
  else pure e

/-- The `switch` of `process_char`. -/
def processLabel (c : Key) (e : Editor) : Label → Checked Step
  | .enter => do
    let history ← e.history.pop
    pure (.returned e.current.len false { e with history })
  | .ctrlC => pure (.returned (-1) true e)
  | .backspace => e.edit fun current => refreshIfOne (remove_char current (current.pos - 1))
  | .ctrlD =>
    if e.current.len = 0 then do
      -- empty line, so EOF
      let history ← e.history.pop
      pure (.returned (-1) false { e with history })
    else e.edit fun current => refreshIfOne (remove_char current current.pos)
  | .delete => e.edit fun current => refreshIfOne (remove_char current current.pos)
  | .insert => pure (.again e)
  | .ctrlW => e.edit deleteWord
  | .ctrlR => do
    let (c, current) ← reverseSearch e.history e.current
    pure (.goto_process_char c { e with current })
  | .ctrlT => e.edit transposeChars
  | .ctrlV => e.edit (quotedInsert (ctrl 'V'))
  | .left => e.edit moveLeft
  | .right => e.edit moveRight
  | .pageUp => return .again (← historyNavigation (e.history.len - e.history_index - 1) e)
  | .pageDown => return .again (← historyNavigation (-e.history_index) e)
  | .up => return .again (← historyNavigation 1 e)
  | .down => return .again (← historyNavigation (-1) e)
  | .home => e.edit fun current => refreshLine current.prompt { current with pos := 0 }
  | .lineEnd =>
      e.edit fun current => refreshLine current.prompt { current with pos := current.chars }
  | .ctrlU => e.edit fun current => refreshIfAny (remove_chars current 0 current.pos)
  | .ctrlK => e.edit fun current =>
      refreshIfAny (remove_chars current current.pos (current.chars - current.pos))
  | .ctrlY => e.edit yank
  | .ctrlL => e.edit clear
  | .other => e.edit (insertKey c)

/-- `process_char`. -/
def process_char (c : Key) (e : Editor) : Checked Step :=
  if c = .eof then pure (.returned e.current.len false e)
  else
    let (c, fd) := if c = .char 27 then check_special e.current.fd else (c, e.current.fd)
    processLabel c { e with current := { e.current with fd } } (labelOf c)

variable (completionCallback : Option Callback)

/-- The read at the head of the `while(1)`, with the completion of a tab behind the text. -/
def readKey (e : Editor) : Checked Step := do
  let (c, fd) := fd_read e.current.fd
  let current := { e.current with fd }
  match completionCallback with
  | some cpp_callback_function =>
    if c = .char (byte '\t') ∧ current.pos = current.chars then do
      let (c, current) ← completeLine cpp_callback_function current
      let e := { e with current }
      -- return on errors, read next character when 0
      if c = .eof then pure (.returned current.len false e)
      else if c = .char 0 then pure (.again e)
      else process_char c e
    else process_char c { e with current }
  | none => process_char c { e with current }

/-- A round begins with a key at `process_char`, or by reading one. -/
def round (e : Editor) : Option Key → Checked Step
  | some c => process_char c e
  | none => readKey completionCallback e

/-- The `while(1)` loop. -/
def editLoop : (fuel : Nat) → Option Key → Editor → Checked (Int × Bool × Editor)
  | 0, _, _ => throw .unfinished
  | fuel + 1, pending, e => do
    match ← round completionCallback e pending with
    | .again e => editLoop fuel none e
    | .goto_process_char c e => editLoop fuel (some c) e
    | .returned count eagain e => pure (count, eagain, e)

/-- `linenoiseEdit`: the count that it returns, whether `errno` is `EAGAIN`, and the editor then.
    There are never more than two rounds for an event, and two. -/
def linenoiseEdit (history : History) (current : Current) : Checked (Int × Bool × Editor) := do
  -- the latest history entry is always our current buffer, that initially is just an empty string
  let (_, history) ← linenoiseHistoryAdd history []
  let current ← set_current current []
  let current ← refreshLine current.prompt current
  editLoop completionCallback (2 * current.fd.input.length + 2) none
    { current, history, history_index := 0 }

/-! ## The tool -/

/-- `enableRawMode`, for a standard input that was a terminal when the process began: `isatty` and
    `tcgetattr` fail once the terminal has hung up, which it has where nothing more comes. -/
def enableRawMode (fd : Terminal) : Bool := fd.input ≠ []

/-- `struct current` as `linenoise` fills it in, over the array `buf` as it is on the stack. -/
def newCurrent (buf prompt : List UInt8) (fd : Terminal) : Current :=
  { buf, bufmax := LINENOISE_MAX_LINE, len := 0, chars := 0, pos := 0, cols := 0, prompt,
    capture := none, fd }

/-- What `linenoise` returns. -/
inductive Line where
  | line (s : List UInt8)
  /-- `NULL`, with `errno` being `EAGAIN` or not -/
  | null (eagain : Bool)
  deriving DecidableEq, Repr

/-- `linenoise`, at a terminal. -/
def linenoise (history : History) (buf prompt : List UInt8) (fd : Terminal) :
    Checked (Line × History × Terminal) :=
  if enableRawMode fd then do
    let (count, eagain, e) ←
      linenoiseEdit completionCallback history (newCurrent buf prompt fd)
    if count = -1 then pure (.null eagain, e.history, e.current.fd)
    else do
      let s ← checked .buf (cString 0 e.current.buf)
      pure (.line s, e.history, e.current.fd)
  -- the prompt is printed, and `fgets` finds the end of the input
  else pure (.null false, history, fd.write (.chars prompt))

/-- `line_noise::readLine`: the line, if the loop of the tool goes on. -/
def readLine : Line → Option (List UInt8)
  | .line s => some s
  -- CTRL-C pressed, do nothing
  | .null true => some []
  | .null false => none

end Linenoise

end FepControl
