/-
  Incremental search in the history: the `ctrl-r` branch of `linenoiseEdit`.

  It is a loop inside the loop, with a key of its own to read and a prompt of its own to show.  The
  pattern is an array `rbuf` of 50 characters on the stack, and the number of bytes in it is `rlen`.

  1. **The variables** -- the pattern, how long it is in bytes and in characters, and the entry at
     which the search stands.

  2. **Finding** -- from that entry on, upwards or downwards, the first one with the pattern in it
     is copied to the line, with the cursor at the match.  With `ctrl-p` and `ctrl-n` the entries
     that look like the line are passed over.

  3. **The guard** -- `rlen` is compared with the size of the array plus 3, which comes too late to
     stop anything: at 49 characters the next one is the last of the array, and the NUL behind it is
     outside.  This is where the model stops with a fault.

  4. **Ending** -- a key that is none of the search is the next key of the line, but for `ctrl-g`
     and `ctrl-c`, which clear the line, and `ctrl-j`, which keeps it.
-/
import FepControl.Linenoise.Display
import FepControl.Linenoise.History

namespace FepControl

namespace Linenoise

open Lib

/-- The characters of a text of the source. -/
def bytes (s : String) : List UInt8 := s.toList.map byte

/-- The variables of the search. -/
structure Search where
  /-- the array, of 50 characters -/
  rbuf : List UInt8
  rchars : Int
  rlen : Int
  searchpos : Int
  deriving DecidableEq, Repr

/-- `sizeof(rbuf)`. -/
def rbufSize : Nat := 50

/-- The search when `ctrl-r` was pressed; what stands behind the NUL of `rbuf` is never read. -/
def Search.start (history : History) : Search :=
  { rbuf := List.replicate rbufSize 0, rchars := 0, rlen := 0, searchpos := history.len - 1 }

/-- The search prompt, as `snprintf` puts it into 80 characters. -/
def rprompt (rbuf : List UInt8) : List UInt8 :=
  (bytes "(reverse-i-search)'" ++ rbuf ++ bytes "': ").take 79

/-- The loop through the history for a match: `p`, `searchpos` and the line after it. -/
def matchLoop (history : History) (pattern : List UInt8) (skipsame : Bool) (searchdir : Int) :
    (fuel : Nat) → (p : Option Nat) → (searchpos : Int) → Current →
      Checked (Option Nat × Int × Current)
  | 0, _, _, _ => throw .unfinished
  | fuel + 1, p, searchpos, current =>
    if 0 ≤ searchpos ∧ searchpos < history.len then do
      let line ← history.get searchpos
      match strstr pattern line with
      | some p => do
        let buf ← checked .buf (cString 0 current.buf)
        if skipsame ∧ line = buf then
          matchLoop history pattern skipsame searchdir fuel (some p) (searchpos + searchdir) current
        else do
          -- copy the matching line and set the cursor position
          let current ← set_current current line
          pure (some p, searchpos, { current with pos := p })
      | none =>
          matchLoop history pattern skipsame searchdir fuel none (searchpos + searchdir) current
    else pure (p, searchpos, current)

/-- Search through the history; there are never more rounds than entries and one. -/
def findMatch (history : History) (s : Search) (skipsame : Bool) (searchdir : Int)
    (current : Current) : Checked (Option Nat × Int × Current) := do
  let pattern ← checked .rbuf (cString 0 s.rbuf)
  matchLoop history pattern skipsame searchdir (history.lines.length + 1) none s.searchpos current

/-- The backspace key in the search. -/
def Search.erase (s : Search) : Checked Search :=
  if s.rchars ≠ 0 then do
    let rbuf ← checked .rbuf (store s.rbuf (s.rchars - 1) [0])
    let rest ← checked .rbuf (cString 0 rbuf)
    pure { s with rbuf, rchars := s.rchars - 1, rlen := rest.length }
  else pure s

/-- A character is added to the pattern, and stays there if there is a match. -/
def Search.extend (s : Search) (history : History) (ch : UInt8) (current : Current) :
    Checked (Search × Current) :=
  if s.rlen ≥ rbufSize + 3 then pure (s, current)
  else do
    let rbuf ← checked .rbuf (store s.rbuf s.rlen [ch])
    let rbuf ← checked .rbuf (store rbuf (s.rlen + 1) [0])
    -- adding a new char resets the search location
    let s := { rbuf, rchars := s.rchars + 1, rlen := s.rlen + 1, searchpos := history.len - 1 }
    let (p, searchpos, current) ← findMatch history s false (-1) current
    if p.isNone then do
      -- no match, so don't add it
      let rbuf ← checked .rbuf (store rbuf (s.rlen - 1) [0])
      pure ({ rbuf, rchars := s.rchars - 1, rlen := s.rlen - 1, searchpos }, current)
    else pure ({ s with searchpos }, current)

/-- Search for the previous (earlier) or the next (later) match. -/
def Search.again (s : Search) (history : History) (searchdir : Int) (current : Current) :
    Checked (Search × Current) := do
  let searchpos :=
    if searchdir < 0 then if s.searchpos > 0 then s.searchpos - 1 else s.searchpos
    else if s.searchpos < history.len then s.searchpos + 1 else s.searchpos
  let (_, searchpos, current) ← findMatch history { s with searchpos } true searchdir current
  pure ({ s with searchpos }, current)

/-- The loop of the search: the key that ended it. -/
def searchLoop (history : History) : (fuel : Nat) → Search → Current → Checked (Key × Current)
  | 0, _, _ => throw .unfinished
  | fuel + 1, s, current => do
    let pattern ← checked .rbuf (cString 0 s.rbuf)
    let current ← refreshLine (rprompt pattern) current
    let (c, fd) := fd_read current.fd
    if c = .char (ctrl 'H') ∨ c = .char 127 then do
      let s ← s.erase
      searchLoop history fuel s { current with fd }
    else do
      let (c, fd) := if c = .char 27 then check_special fd else (c, fd)
      let current := { current with fd }
      if c = .char (ctrl 'P') ∨ c = .special .SPECIAL_UP then do
        let (s, current) ← s.again history (-1) current
        searchLoop history fuel s current
      else if c = .char (ctrl 'N') ∨ c = .special .SPECIAL_DOWN then do
        let (s, current) ← s.again history 1 current
        searchLoop history fuel s current
      else match c with
        | .char ch =>
          if byte ' ' ≤ ch then do
            let (s, current) ← s.extend history ch current
            searchLoop history fuel s current
          else pure (c, current)
        | _ => pure (c, current)

/-- The `ctrl-r` branch: the key that is processed next, and the line. -/
def reverseSearch (history : History) (current : Current) : Checked (Key × Current) := do
  let (c, current) ←
    searchLoop history (current.fd.input.length + 1) (.start history) current
  let (c, current) ←
    if c = .char (ctrl 'G') ∨ c = .char (ctrl 'C') then do
      -- ctrl-g terminates the search with no effect
      let current ← set_current current []
      pure (.char 0, current)
    -- ctrl-j terminates the search leaving the buffer in place
    else if c = .char (ctrl 'J') then pure (.char 0, current)
    else pure (c, current)
  let current ← refreshLine current.prompt current
  pure (c, current)

end Linenoise

end FepControl
