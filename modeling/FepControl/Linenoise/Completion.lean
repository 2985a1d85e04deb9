/-
  Completion with the tab key: `completeLine` of `linenoise.c`, and the callback of
  `linenoise_wrapper.cpp`.

  The callback is handed the text as a C string and fills a vector of strings, each of which is
  copied with `strdup`, so that it ends at its first NUL.  With that vector a small dialogue begins:
  every further tab shows the next completion, and behind the last one the line as it was.

  1. **Showing** -- the completion is shown as a line of its own, `tmp`, whose buffer is the string;
     the line that is edited stays as it is.

  2. **Ending** -- any key but a tab ends the dialogue.  Escape shows the original line again and
     drops the completion, the end of the input leaves the line, and every other key takes the
     completion that is shown, with `set_current`, and goes on as a key of the line.
-/
import FepControl.Linenoise.Display

namespace FepControl

namespace Linenoise

open Lib

/-- `cpp_callback_function`. -/
abbrev Callback := List UInt8 → List (List UInt8)

/-- `callback`: the completions, each as the C string that `strdup` takes of it. -/
def callback (cpp_callback_function : Callback) (input : List UInt8) : List (List UInt8) :=
  (cpp_callback_function input).map fun completion => completion.takeWhile (· ≠ 0)

/-- `tmp`: the line as it would be with the completion. -/
def tmp (current : Current) (completion : List UInt8) : Current :=
  let len : Int := completion.length
  { current with buf := completion ++ [0], pos := len, len := len, chars := len }

/-- Show completion or original buffer. -/
def showCompletion (cvec : List (List UInt8)) (i : Nat) (current : Current) : Checked Current :=
  match cvec[i]? with
  | some completion => do
    let tmp ← refreshLine current.prompt (tmp current completion)
    pure { current with fd := tmp.fd }
  | none => refreshLine current.prompt current

/-- The loop of `completeLine`, for the `i`-th completion. -/
def completeLoop (cvec : List (List UInt8)) :
    (fuel : Nat) → (i : Nat) → Current → Checked (Key × Current)
  | 0, _, _ => throw .unfinished
  | fuel + 1, i, current => do
    let current ← showCompletion cvec i current
    let (c, fd) := fd_read current.fd
    let current := { current with fd }
    if c = .eof then pure (c, current)
    else if c = .char (byte '\t') then
      let i := (i + 1) % (cvec.length + 1)
      let fd := if i = cvec.length then current.fd.write .beep else current.fd
      completeLoop cvec fuel i { current with fd }
    else if c = .char 27 then do
      -- re-show original buffer
      let current ← if i < cvec.length then refreshLine current.prompt current else pure current
      pure (c, current)
    else do
      -- update buffer and return
      let current ← match cvec[i]? with
        | some completion => set_current current completion
        | none => pure current
      pure (c, current)

/-- `completeLine`; there are never more rounds than events. -/
def completeLine (cpp_callback_function : Callback) (current : Current) :
    Checked (Key × Current) := do
  let input ← checked .buf (cString 0 current.buf)
  let cvec := callback cpp_callback_function input
  if cvec = [] then pure (.char 0, { current with fd := current.fd.write .beep })
  else completeLoop cvec (current.fd.input.length + 1) 0 current

end Linenoise

end FepControl
