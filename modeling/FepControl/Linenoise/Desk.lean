/-
  The line editor as its user sees it: a stack of lines, one of which is being edited.

  The functions of `linenoise.c` are about arrays and cursors; a user sees lines.  The desk is this
  view, as a state of its own with a meaning for every key, and the modules that follow show that
  the editor does to its arrays what is said here of the desk.

  1. **Desk** -- the entries of the history with the new line last, which of them is shown, and the
     draft of that one.  `Desk.press`, `Desk.search` and `Desk.complete` say what is done to it.  To
     leave an entry writes the draft back to it, and the history keeps what was written.

  2. **Moves** -- the keys that edit and navigate, the searches, and the completions, by the keys
     they are made of; and what ends the line.  Not among them are `ctrl-v`, which takes a byte that
     may be a part of the next key, and `ctrl-d` where it deletes: `SPECIAL_DELETE` does the same.

  3. **Fitting** -- a dialogue that is not ended by a key of its own is ended by the first key of
     what comes next (`leading`), so whether a move is one depends on its neighbour (`Move.fits`).

  4. **Playing** -- the moves one after the other, until one of them is a search that overruns
     `rbuf` (`Desk.play`), and what is returned and remembered in the end (`Desk.finish`).
-/
import FepControl.Linenoise.Offer
import FepControl.Linenoise.Seek

namespace FepControl

namespace Linenoise

open Lib

/-! ## The desk -/

/-- The lines, and the one that is being edited. -/
structure Desk where
  /-- the entries of the history, oldest first; the last one is the new line -/
  lines : List (List UInt8)
  /-- which entry is shown, counted from the last one -/
  index : Nat
  draft : Draft
  deriving DecidableEq, Repr

/-- The labels that neither end the line nor start a dialogue. -/
def Label.plain : Label → Bool
  | .enter | .ctrlC | .ctrlD | .ctrlR | .ctrlV => false
  | _ => true

/-- The keys that neither end the line nor start a dialogue. -/
def Key.plain : Key → Bool
  | .eof => false
  | .special _ => true
  | .char c => c != byte '\t' && (labelOfChar c).plain

namespace Desk

/-- The desk before the first key. -/
def start (history : History) : Desk := ⟨history.opened, 0, ⟨.atEnd [], none⟩⟩

/-- The text that is written back when the entry is left: it ends at a NUL. -/
def text (k : Desk) : List UInt8 := k.draft.zipper.text.takeWhile (· ≠ 0)

/-- The desk with another text to edit. -/
def withText (z : Zipper UInt8) (k : Desk) : Desk :=
  { k with draft := { k.draft with zipper := z } }

/-- The entries once the draft is written back. -/
def saved (k : Desk) : List (List UInt8) := k.lines.set (k.lines.length - 1 - k.index) k.text

/-- To go `dir` entries back in the history: the draft is written back, and the entry there shown;
    at the ends the draft stays. -/
def navigate (dir : Int) (k : Desk) : Desk :=
  if k.lines.length ≤ 1 then k
  else
    let index := (navigated k.index dir k.lines.length).toNat
    if 0 ≤ k.index + dir ∧ k.index + dir < k.lines.length then
      { lines := k.saved
        index
        draft := { k.draft with zipper := .atEnd (k.saved.getD (k.lines.length - 1 - index) []) } }
    else { lines := k.saved, index, draft := k.draft }

/-- What a key does that neither ends the line nor starts a dialogue. -/
def press (bufmax : Int) (k : Desk) (key : Key) : Desk :=
  match labelOf key with
  | .up => k.navigate 1
  | .down => k.navigate (-1)
  | .pageUp => k.navigate (k.lines.length - k.index - 1)
  | .pageDown => k.navigate (-k.index)
  | l => { k with draft := k.draft.press bufmax key l }

/-- A search, with the key that ended it if that was one of its own. -/
def search (keys : List Key) (stop : Option Key) (k : Desk) : Option Desk :=
  (Seek.dialogue k.lines (keys.filterMap Key.query) (.start k.lines k.draft.zipper)).map fun s =>
    k.withText (if ∃ key ∈ stop, key.abandons then .atEnd [] else s.zipper)

/-- The tab key, once and `more` times again.  Behind the text it offers completions, of which the
    next key takes one; elsewhere it inserts itself. -/
def complete (completionCallback : Option Callback) (bufmax : Int) (more : Nat) (next : Key)
    (k : Desk) : Desk :=
  match completionCallback with
  | some cpp_callback_function =>
    if k.draft.zipper.after = [] then
      let cvec := callback cpp_callback_function k.text
      if cvec = [] then k
      else k.withText (taken bufmax cvec (more % (cvec.length + 1)) next.first k.draft.zipper)
    else (List.replicate (more + 1) (.char (byte '\t'))).foldl (press bufmax) k
  | none => (List.replicate (more + 1) (.char (byte '\t'))).foldl (press bufmax) k

end Desk

/-! ## Moves -/

/-- What the user does, by the keys. -/
inductive Move where
  | press (key : Key)
  /-- `ctrl-r`, the keys of the dialogue, and the key that ends it unless the next move does -/
  | search (keys : List Key) (stop : Option Key)
  /-- the tab key, once and `more` times again -/
  | complete (more : Nat)
  deriving DecidableEq, Repr

/-- What ends the line. -/
inductive Ending where
  | enter
  | ctrlC
  /-- on an empty line -/
  | ctrlD
  /-- nothing more comes -/
  | eof
  deriving DecidableEq, Repr

/-- The key that ends the line in this way. -/
def Ending.key : Ending → Key
  | .enter => .char (byte '\r')
  | .ctrlC => .char (ctrl 'C')
  | .ctrlD => .char (ctrl 'D')
  | .eof => .eof

/-- The keys of a move. -/
def Move.keys : Move → List Key
  | .press key => [key]
  | .search keys stop => .char (ctrl 'R') :: (keys ++ stop.toList)
  | .complete more => List.replicate (more + 1) (.char (byte '\t'))

/-- All the keys of a line. -/
def lineKeys (moves : List Move) (ending : Ending) : List Key :=
  moves.flatMap Move.keys ++ [ending.key]

/-- The first key of the moves and the ending. -/
def leading : List Move → Ending → Key
  | .press key :: _, _ => key
  | .search _ _ :: _, _ => .char (ctrl 'R')
  | .complete _ :: _, _ => .char (byte '\t')
  | [], ending => ending.key

/-- The keys of a line start with the leading one. -/
theorem lineKeys_leading (moves : List Move) (ending : Ending) :
    ∃ keys, lineKeys moves ending = leading moves ending :: keys := by
  cases moves with
  | nil => exact ⟨[], rfl⟩
  | cons m moves =>
    cases m with
    | press key => exact ⟨_, rfl⟩
    | search keys stop => exact ⟨_, rfl⟩
    | complete more => exact ⟨_, rfl⟩

/-- The keys of a move, and those of the rest of the line. -/
theorem lineKeys_cons (m : Move) (moves : List Move) (ending : Ending) :
    lineKeys (m :: moves) ending = m.keys ++ lineKeys moves ending := by
  rw [lineKeys, List.flatMap_cons, List.append_assoc]
  rfl

/-- The key ends a search, and is then processed as it is. -/
def Key.endsSearch (key : Key) : Bool :=
  key.query.isNone && !key.abandons && key != .char (ctrl 'J') && key != .char 27 && key != .eof &&
    key != .char (byte '\t')

/-- The move can be made, and what comes behind it is not taken for a part of it. -/
def Move.fits (next : Key) : Move → Bool
  | .press key => key.plain
  | .search keys (some key) =>
    keys.all (·.query.isSome) && decide (key.abandons ∨ key = .char (ctrl 'J'))
  | .search keys none => keys.all (·.query.isSome) && next.endsSearch
  | .complete _ => next != .char (byte '\t') && next != .eof

/-- Every move of the line can be made. -/
def fits : List Move → Ending → Bool
  | [], _ => true
  | m :: moves, ending => m.fits (leading moves ending) && fits moves ending

/-- A move is made of keys that are typed. -/
theorem Move.keys_ne_eof {m : Move} {next : Key} (h : m.fits next = true) :
    ∀ key ∈ m.keys, key ≠ .eof := by
  intro key hin
  cases m with
  | press key' =>
    rw [List.mem_singleton.mp hin]
    rintro rfl
    cases h
  | complete more =>
    rw [List.eq_of_mem_replicate hin]
    exact Key.char_ne_eof _
  | search keys stop =>
    rcases List.mem_cons.mp hin with rfl | hin
    · exact Key.char_ne_eof _
    rcases List.mem_append.mp hin with hin | hin
    · have hall : keys.all (·.query.isSome) = true := by
        cases stop <;> exact (Bool.and_eq_true _ _ ▸ h).1
      exact Key.ne_eof_of_query (List.all_eq_true.mp hall key hin)
    · cases stop with
      | none => cases hin
      | some stop =>
        rw [List.mem_singleton.mp hin]
        have hstop : stop.abandons ∨ stop = .char (ctrl 'J') :=
          of_decide_eq_true (Bool.and_eq_true _ _ ▸ h).2
        rcases hstop with (rfl | rfl) | rfl <;> exact Key.char_ne_eof _

/-- So is every key before the ending. -/
theorem keys_ne_eof : ∀ {moves : List Move} {ending : Ending}, fits moves ending = true →
    ∀ key ∈ moves.flatMap Move.keys, key ≠ .eof
  | [], _, _, key, hin => absurd hin List.not_mem_nil
  | m :: moves, ending, h, key, hin => by
      rw [fits, Bool.and_eq_true] at h
      rcases List.mem_append.mp (List.flatMap_cons ▸ hin) with hin | hin
      · exact Move.keys_ne_eof h.1 key hin
      · exact keys_ne_eof h.2 key hin

namespace Desk

variable (completionCallback : Option Callback) (bufmax : Int)

/-- What a move makes of the desk. -/
def move (next : Key) (k : Desk) : Move → Option Desk
  | .press key => some (k.press bufmax key)
  | .search keys stop => k.search keys stop
  | .complete more => some (k.complete completionCallback bufmax more next)

/-- All the moves, until one of them overruns `rbuf`. -/
def play (ending : Ending) : List Move → Desk → Option Desk
  | [], k => some k
  | m :: moves, k =>
    (k.move completionCallback bufmax (leading moves ending) m).bind (play ending moves)

/-- What is returned at the end, and the history that is left. -/
def finish (k : Desk) : Ending → Line × List (List UInt8)
  | .enter => (.line k.text, k.lines.dropLast)
  | .ctrlC => (.null true, k.lines)
  | .ctrlD => (.null false, k.lines.dropLast)
  | .eof => (.line k.text, k.lines)

end Desk

end Linenoise

end FepControl
