/-
  The history of `linenoise.c`.

  The entries stand in an array of pointers that is allocated when the first line is added.  While a
  line is edited it is the last entry itself, so that the user can go back to it; the editor adds an
  empty one at the start, and takes it away again when the line is entered.

  1. **The source** -- the entries `history[0 .. history_len)`, oldest first, and the capacity
     `history_max_len` of the array.  A line that is the last entry already is not added again, and
     in a full array the oldest entry makes room.  An index outside the entries is a fault.

  2. **What is kept** -- a line that is added is the last entry, and the array is never overfull, as
     long as it has a place at all (`linenoiseHistoryAdd_added`).
-/
import FepControl.Linenoise.Buffer

namespace FepControl

namespace Linenoise

/-- `history`, `history_len` (the length of `lines`) and `history_max_len`. -/
structure History where
  lines : List (List UInt8)
  max_len : Nat
  deriving DecidableEq, Repr

/-- The capacity, unless it is set. -/
def LINENOISE_DEFAULT_HISTORY_MAX_LEN : Nat := 100

/-- The history when the process starts. -/
def History.initial : History := ⟨[], LINENOISE_DEFAULT_HISTORY_MAX_LEN⟩

/-- `linenoiseHistoryAdd`, with the value it returns. -/
def linenoiseHistoryAdd (history : History) (line : List UInt8) : Checked (Int × History) :=
  if history.max_len = 0 then pure (0, history)
  -- do not insert duplicate lines into history
  else if history.lines.getLast? = some line then pure (0, history)
  else
    let lines :=
      if history.lines.length = history.max_len then history.lines.drop 1 else history.lines
    if lines.length < history.max_len then pure (1, { history with lines := lines ++ [line] })
    else throw (.outside .history)

/-- `history_len--; free(history[history_len]);` -/
def History.pop (history : History) : Checked History :=
  if history.lines = [] then throw (.outside .history)
  else pure { history with lines := history.lines.dropLast }

/-- The number of entries. -/
def History.len (history : History) : Int := history.lines.length

/-- `history[i]`. -/
def History.get (history : History) (i : Int) : Checked (List UInt8) :=
  if 0 ≤ i then checked .history history.lines[i.toNat]? else throw (.outside .history)

/-- `history[i] = strdup(line)`. -/
def History.set (history : History) (i : Int) (line : List UInt8) : Checked History :=
  if 0 ≤ i ∧ i < history.len then
    pure { history with lines := history.lines.set i.toNat line }
  else throw (.outside .history)

/-! ## What is kept -/

/-- The entries with a line behind them, unless it is the last one already; in a history that is
    full the oldest one makes room. -/
def History.added (history : History) (line : List UInt8) : List (List UInt8) :=
  if history.lines.getLast? = some line then history.lines
  else
    (if history.lines.length = history.max_len then history.lines.drop 1 else history.lines) ++
      [line]

/-- The entries while a line is edited: the new line is the last one. -/
def History.opened (history : History) : List (List UInt8) := history.added []

/-- **Adding a line** makes the history that `added` says. -/
theorem linenoiseHistoryAdd_added {history : History} (hpos : 0 < history.max_len)
    (hfits : history.lines.length ≤ history.max_len) (line : List UInt8) :
    ∃ ret, linenoiseHistoryAdd history line =
      .ok (ret, { history with lines := history.added line }) := by
  rw [linenoiseHistoryAdd, if_neg (by omega), History.added]
  by_cases hdup : history.lines.getLast? = some line
  · rw [if_pos hdup, if_pos hdup]
    exact ⟨0, rfl⟩
  · rw [if_neg hdup, if_neg hdup]
    have hroom : (if history.lines.length = history.max_len then history.lines.drop 1
        else history.lines).length < history.max_len := by
      split
      · rw [List.length_drop]; omega
      · omega
    rw [if_pos hroom]
    exact ⟨1, rfl⟩

/-- The line is the last entry. -/
theorem History.getLast?_added (history : History) (line : List UInt8) :
    (history.added line).getLast? = some line := by
  rw [History.added]
  split
  · assumption
  · exact List.getLast?_concat

/-- Nothing else is added. -/
theorem History.mem_added {history : History} {line l : List UInt8}
    (h : l ∈ history.added line) : l ∈ history.lines ∨ l = line := by
  rw [History.added] at h
  split at h
  · exact .inl h
  · rcases List.mem_append.mp h with h | h
    · split at h
      · exact .inl (List.mem_of_mem_drop h)
      · exact .inl h
    · exact .inr (List.mem_singleton.mp h)

/-- There are never more entries than places. -/
theorem History.length_added {history : History} (hpos : 0 < history.max_len)
    (hfits : history.lines.length ≤ history.max_len) (line : List UInt8) :
    (history.added line).length ≤ history.max_len := by
  rw [History.added]
  split
  · exact hfits
  · rw [List.length_append, List.length_singleton]
    split
    · rw [List.length_drop]; omega
    · omega

end Linenoise

end FepControl
