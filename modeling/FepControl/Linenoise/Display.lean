/-
  The screen line of `linenoise.c`: `refreshLine` and what it uses.

  Most keys end with the line being shown again.  That writes, and under one condition it reads,
  too: the width of the window must be known to show a line, and if the system does not tell, the
  editor asks the terminal for it, in the middle of the user's keys.

  1. **The width** -- `getWindowSize` asks `ioctl`.  Where that does not tell, it asks the terminal
     itself, once for a line: it sends the cursor as far to the right as it goes and reads back
     where it is.  The replies come on the same line as the keys, and `queryCursor` reads whatever
     comes.

  2. **The source** -- `refreshLine` writes the prompt and as much of the text as fits.  Where the
     line is too long it leaves characters off at the front, until it fits or the cursor is at the
     left end.  A control character takes two columns.

  3. **Frame** -- whatever is shown, the line is the one that was there (`refreshLine_becomes`).
     Nothing is read for it once the width is known; what is shown depends on it, and the text does
     not (`refreshLine_cols`).

  4. **The query** -- where the width is not known, two things can go wrong in `queryCursor`: the
     digits of a reply are added up without a bound, and a reply that says nothing leaves its
     variable unset.  Apart from these it returns, has read from the front of the input, and leaves
     a width that is not zero (`getWindowSize_meets`, `refreshLine_meets`).
-/
import FepControl.Linenoise.Buffer

namespace FepControl

namespace Linenoise

open Lib

/-! ## The width -/

/-- The loop of `queryCursor` that reads the reply: what it stores in `*cols`, if anything. -/
def replyLoop : (fuel : Nat) → (n : Int) → Terminal → Checked (Option Int × Terminal)
  | 0, _, _ => throw .unfinished
  | fuel + 1, n, fd =>
    match fd_read_char fd (some 2) with
    | (none, fd) => pure (none, fd)
    | (some ch, fd) =>
      -- ignore rows
      if ch = byte ';' then replyLoop fuel 0 fd
      -- got cols
      else if ch = byte 'R' then pure (if n ≠ 0 ∧ n < 1000 then some n else none, fd)
      -- `ch >= 0 && ch <= '9'`: other characters than digits are counted too
      else if ch ≤ byte '9' then do
        let n ← checkedInt (n * 10)
        let n ← checkedInt (n + ch.toNat)
        let n ← checkedInt (n - (byte '0').toNat)
        replyLoop fuel n fd
      else pure (none, fd)

/-- `queryCursor`: whether there was a reply, and what is in `*cols` then, where `none` is a
    variable that was not written yet.  There are never more rounds than events and one. -/
def queryCursor (fd : Terminal) (cols : Option Int) : Checked (Bool × Option Int × Terminal) :=
  match fd_read_char (fd.write .reportCursor) (some 2) with
  | (none, fd) => pure (false, cols, fd)
  | (some c, fd) =>
    if c = 27 then
      match fd_read_char fd (some 2) with
      | (none, fd) => pure (false, cols, fd)
      | (some c, fd) =>
        if c = byte '[' then do
          let (reported, fd) ← replyLoop (fd.input.length + 1) 0 fd
          pure (true, reported.or cols, fd)
        else pure (false, cols, fd)
    else pure (false, cols, fd)

/-- The way back to where the cursor was, and the columns. -/
def moveBack (current : Current) (here : Option Int) (cols : Int) (fd : Terminal) :
    Checked Current := do
  let here ← match here with
    | some here => pure here
    | none => throw .unset
  if cols > here then do
    let n ← checkedInt (cols - here)
    pure { current with cols, fd := fd.write (.cursorBack n) }
  else pure { current with cols, fd }

/-- `getWindowSize`. -/
def getWindowSize (current : Current) : Checked Current :=
  if current.fd.ws_col ≠ 0 then pure { current with cols := current.fd.ws_col }
  else if current.cols = 0 then do
    -- (a)
    let (replied, here, fd) ← queryCursor current.fd none
    if replied then do
      -- (b), (c)
      let (replied, cols, fd) ← queryCursor (fd.write .cursorFarRight) (some 80)
      -- (d)
      if replied then moveBack current here (cols.getD 80) fd
      -- (d')
      else pure { current with cols := 80, fd := fd.write .cursorToLeft }
    else pure { current with cols := 80, fd }
  else pure current

/-! ## The source -/

/-- The states of `countColorControlChars`; `len` counts the sequence that is being read. -/
inductive ColorState where
  | search_esc
  | expect_bracket
  | expect_trail (len : Nat)

/-- The loop of `countColorControlChars`, with the columns found so far. -/
def colorLoop : ColorState → (found : Nat) → List UInt8 → Nat
  | _, found, [] => found
  | .search_esc, found, ch :: prompt =>
      if ch = 27 then colorLoop .expect_bracket found prompt else colorLoop .search_esc found prompt
  | .expect_bracket, found, ch :: prompt =>
      if ch = byte '[' then colorLoop (.expect_trail 3) found prompt
      else colorLoop .search_esc found prompt
  | .expect_trail len, found, ch :: prompt =>
      if ch = byte ';' ∨ (byte '0' ≤ ch ∧ ch ≤ byte '9') then
        colorLoop (.expect_trail (len + 1)) found prompt
      else if ch = byte 'm' then colorLoop .search_esc (found + len) prompt
      else colorLoop .search_esc found prompt

/-- `countColorControlChars`: the bytes of the prompt that take no column. -/
def countColorControlChars (prompt : List UInt8) : Nat := colorLoop .search_esc 0 prompt

/-- `ch < ' '`: the character is shown as two. -/
def isControl (ch : UInt8) : Bool := ch < byte ' '

/-- The columns of a character. -/
def width (ch : UInt8) : Int := if isControl ch then 2 else 1

/-- The loop that leaves characters off at the front: the cursor in what stays, and what stays. -/
def strip (cols : Int) : (n pos : Int) → List UInt8 → Int × List UInt8
  | _, pos, [] => (pos, [])
  | n, pos, ch :: buf =>
      if n ≥ cols ∧ pos > 0 then strip cols (n - width ch) (pos - 1) buf else (pos, ch :: buf)

/-- The loop that writes the text, from the `i`-th character on; `n` control characters were
    written, and `unwritten` is what was passed over since.  The value is what is written, and
    `backup`. -/
def putChars (pchars cols pos : Int) :
    (i n : Int) → (unwritten : List UInt8) → List UInt8 → List Output × Int
  | _, _, unwritten, [] => ([.chars unwritten], 0)
  | i, n, unwritten, ch :: buf =>
      let n := if isControl ch then n + 1 else n
      if pchars + i + n ≥ cols then ([.chars unwritten], 0)
      else if isControl ch then
        let (written, backup) := putChars pchars cols pos (i + 1) n [] buf
        (.chars unwritten :: .outputControlChar (ch + byte '@') :: written,
          if i < pos then backup + 1 else backup)
      else putChars pchars cols pos (i + 1) n (unwritten ++ [ch]) buf

/-- `refreshLine`. -/
def refreshLine (prompt : List UInt8) (current : Current) : Checked Current := do
  let current ← getWindowSize current
  let pchars : Int := prompt.length - countColorControlChars prompt
  let buf ← checked .buf (load current.buf 0 current.chars)
  let ch ← get_char current current.pos
  let n := pchars + current.len + (buf.take current.pos.toNat).countP isControl +
    if ch.any isControl then 1 else 0
  let (pos, buf) := strip current.cols n current.pos buf
  let (written, backup) := putChars pchars current.cols pos 0 0 [] buf
  pure { current with
    fd := current.fd.writes
      ([.cursorToLeft, .chars prompt] ++ written ++
        [.eraseEol, .setCursorPos (pos + pchars + backup)]) }

/-! ## Frame -/

variable {c : Current} {z : Zipper UInt8}

/-- The text is read from the buffer. -/
theorem Current.Holds.load_text (h : c.Holds z) : load c.buf 0 c.chars = some z.text := by
  have := load_append [] z.text (List.replicate (c.bufmax - z.text.length).toNat 0)
  rw [h.buf, h.chars]
  simpa using this

/-- The character at the cursor. -/
theorem get_char_cursor (h : c.Holds z) : get_char c c.pos = .ok z.after.head? := by
  have hsize : z.text.length = z.before.length + z.after.length := List.length_append
  cases hafter : z.after with
  | nil =>
    rw [get_char, if_neg]
    · rfl
    · rw [h.chars, h.pos, hsize, hafter, List.length_nil]; omega
  | cons x ys =>
    rw [h.pos]
    exact get_char_at h (show z.text = z.before ++ x :: ys by rw [Zipper.text, hafter])

/-- The columns that are known without a query. -/
def Current.knownCols (c : Current) : Int := if c.fd.ws_col ≠ 0 then c.fd.ws_col else c.cols

/-- Where the width is reported, or is known already, nothing is read for it. -/
theorem getWindowSize_known (h : c.fd.ws_col ≠ 0 ∨ c.cols ≠ 0) :
    getWindowSize c = .ok { c with cols := c.knownCols } := by
  rw [getWindowSize, Current.knownCols]
  by_cases hws : c.fd.ws_col ≠ 0
  · rw [if_pos hws, if_pos hws]
    rfl
  · rw [if_neg hws, if_neg hws, if_neg (h.resolve_left hws)]
    rfl

/-- A width that is known is not zero. -/
theorem knownCols_ne_zero (h : c.fd.ws_col ≠ 0 ∨ c.cols ≠ 0) : c.knownCols ≠ 0 := by
  rw [Current.knownCols]
  split
  · omega
  · rename_i hws
    exact h.resolve_left hws

/-- `refreshLine` reads the text and the character at the cursor, and writes to the terminal, once
    the width is known. -/
theorem refreshLine_ok {c₁ : Current} (hsize : getWindowSize c = .ok c₁) {text : List UInt8}
    {ch : Option UInt8} (hload : load c₁.buf 0 c₁.chars = some text)
    (hget : get_char c₁ c₁.pos = .ok ch) (prompt : List UInt8) :
    ∃ written, refreshLine prompt c = .ok { c₁ with fd := c₁.fd.writes written } := by
  rw [refreshLine, hsize, ok_bind]
  simp only [hload, hget, checked_some, ok_bind]
  exact ⟨_, rfl⟩

/-- **To show the line** changes nothing about it. -/
theorem refreshLine_becomes (h : c.Holds z) (prompt : List UInt8) :
    ∃ c', refreshLine prompt c = .ok c' ∧ c.Becomes z c.capture c' := by
  have hsized : ({ c with cols := c.knownCols } : Current).Holds z :=
    ⟨h.buf, h.room, h.len, h.chars, h.pos, knownCols_ne_zero (.inr h.sized)⟩
  obtain ⟨written, hrun⟩ := refreshLine_ok (getWindowSize_known (.inr h.sized)) h.load_text
    (get_char_cursor hsized) prompt
  exact ⟨_, hrun, ⟨h.buf, h.room, h.len, h.chars, h.pos, hsized.sized⟩, rfl, rfl, rfl, rfl, rfl⟩

/-- Where the width is reported, it makes no difference which one was known. -/
theorem refreshLine_cols (hws : c.fd.ws_col ≠ 0) (prompt : List UInt8) (cols : Int) :
    refreshLine prompt { c with cols } = refreshLine prompt c := by
  have hsame : getWindowSize { c with cols } = getWindowSize c := by
    rw [getWindowSize, getWindowSize, if_pos hws, if_pos hws]
  rw [refreshLine, refreshLine, hsame]

/-! ### The query -/

/-- What can go wrong in a query: the digits are too many, or the first reply had none. -/
def Fault.ofQuery (e : Fault) : Prop := e = .overflow ∨ e = .unset

/-- An `int` may overflow. -/
theorem checkedInt_meets (n : Int) : Meets Fault.ofQuery (checkedInt n) (fun _ => True) := by
  rw [checkedInt]
  split
  · exact .pure trivial
  · exact .error rfl (.inl rfl)

/-- The loop for the reply ends, and stores a number of columns or nothing. -/
theorem replyLoop_meets : ∀ (fuel : Nat) (n : Int) (fd : Terminal), fd.input.length < fuel →
    Meets Fault.ofQuery (replyLoop fuel n fd) fun (reported, fd') =>
      reported ≠ some 0 ∧ fd.Reads fd'
  | 0, _, _, hfuel => absurd hfuel (Nat.not_lt_zero _)
  | fuel + 1, n, fd, hfuel => by
      have hreads := fd_read_char_reads fd (some 2)
      have hless := nextByte_some (some 2) fd.input fd.ws_col
      rw [replyLoop]
      rcases hr : fd_read_char fd (some 2) with ⟨_ | ch, fd₁⟩
      · rw [hr] at hreads
        exact .pure ⟨fun heq => (by cases heq), hreads⟩
      rw [hr] at hreads
      have hlt : fd₁.input.length < fuel := by
        have hbyte : (nextByte (some 2) fd.input fd.ws_col).1 = some ch := congrArg Prod.fst hr
        have hrest : (nextByte (some 2) fd.input fd.ws_col).2.1 = fd₁.input :=
          congrArg (fun r => r.2.input) hr
        have hlt := hless (by rw [hbyte]; exact Option.some_ne_none ch)
        rw [hrest] at hlt
        omega
      have hnext : ∀ n, Meets Fault.ofQuery (replyLoop fuel n fd₁) fun (reported, fd') =>
          reported ≠ some 0 ∧ fd.Reads fd' := fun n =>
        (replyLoop_meets fuel n fd₁ hlt).mono (fun _ h => ⟨h.1, hreads.trans h.2⟩) fun _ => id
      show Meets _ (if ch = byte ';' then _ else _) _
      by_cases hrows : ch = byte ';'
      · rw [if_pos hrows]
        exact hnext 0
      · rw [if_neg hrows]
        by_cases hcols : ch = byte 'R'
        · rw [if_pos hcols]
          refine .pure ⟨?_, hreads⟩
          split
          · rename_i hn
            exact fun heq => hn.1 (Option.some.inj heq)
          · exact fun heq => (by cases heq)
        · rw [if_neg hcols]
          by_cases hdigit : ch ≤ byte '9'
          · rw [if_pos hdigit]
            exact (checkedInt_meets _).bind fun _ _ => (checkedInt_meets _).bind fun _ _ =>
              (checkedInt_meets _).bind fun n _ => hnext n
          · rw [if_neg hdigit]
            exact .pure ⟨fun heq => (by cases heq), hreads⟩

/-- **`queryCursor` returns, or ends with one of the two faults**; it reads from the front of the
    input. -/
theorem queryCursor_meets (fd : Terminal) (cols : Option Int) :
    Meets Fault.ofQuery (queryCursor fd cols) fun (_, cols', fd') =>
      (cols ≠ some 0 → cols' ≠ some 0) ∧ (cols ≠ none → cols' ≠ none) ∧ fd.Reads fd' := by
  have hwrite : fd.Reads (fd.write .reportCursor) := .of_same rfl rfl
  have hreads := hwrite.trans (fd_read_char_reads (fd.write .reportCursor) (some 2))
  rw [queryCursor]
  rcases hr : fd_read_char (fd.write .reportCursor) (some 2) with ⟨_ | c, fd₁⟩ <;> rw [hr] at hreads
  · exact .pure ⟨id, id, hreads⟩
  show Meets _ (if c = 27 then _ else _) _
  by_cases hesc : c = 27
  · have hreads₂ := hreads.trans (fd_read_char_reads fd₁ (some 2))
    rw [if_pos hesc]
    rcases hr₂ : fd_read_char fd₁ (some 2) with ⟨_ | c₂, fd₂⟩ <;> rw [hr₂] at hreads₂
    · exact .pure ⟨id, id, hreads₂⟩
    show Meets _ (if c₂ = byte '[' then _ else _) _
    by_cases hbracket : c₂ = byte '['
    · rw [if_pos hbracket]
      refine (replyLoop_meets _ 0 fd₂ (Nat.lt_succ_self _)).bind ?_
      rintro ⟨reported, fd₃⟩ ⟨hreported, hreply⟩
      refine .pure ⟨fun hcols => ?_, fun hcols => ?_, hreads₂.trans hreply⟩
      · cases reported with
        | none => exact hcols
        | some n => exact hreported
      · cases reported with
        | none => exact hcols
        | some n => exact Option.some_ne_none n
    · rw [if_neg hbracket]
      exact .pure ⟨id, id, hreads₂⟩
  · rw [if_neg hesc]
    exact .pure ⟨id, id, hreads⟩

/-- The width was found out, and some input read for that. -/
structure Current.Measures (c c' : Current) : Prop where
  frame : c' = { c with cols := c'.cols, fd := c'.fd }
  sized : c'.cols ≠ 0
  reads : c.fd.Reads c'.fd

/-- Moving the cursor back writes only. -/
theorem moveBack_meets {here : Option Int} {cols : Int} {fd : Terminal} (hcols : cols ≠ 0)
    (hfd : c.fd.Reads fd) : Meets Fault.ofQuery (moveBack c here cols fd) c.Measures := by
  cases here with
  | none => exact .error rfl (.inr rfl)
  | some here =>
    show Meets _ (if cols > here then _ else _) _
    split
    · refine (checkedInt_meets _).bind fun n _ => .pure ⟨rfl, hcols, hfd.trans ?_⟩
      exact .of_same rfl rfl
    · exact .pure ⟨rfl, hcols, hfd⟩

/-- **`getWindowSize`**, whatever the terminal replies. -/
theorem getWindowSize_meets (c : Current) :
    Meets (fun e => c.fd.ws_col = 0 ∧ e.ofQuery) (getWindowSize c) c.Measures := by
  by_cases hknown : c.fd.ws_col ≠ 0 ∨ c.cols ≠ 0
  · exact .of_ok ⟨_, getWindowSize_known hknown, rfl, knownCols_ne_zero hknown, .refl _⟩
  · obtain ⟨hws, hcols⟩ := not_or.mp hknown
    have hws : c.fd.ws_col = 0 := Decidable.not_not.mp hws
    have hdefault : (80 : Int) ≠ 0 := by decide
    have hquery : Meets Fault.ofQuery (getWindowSize c) c.Measures := by
      rw [getWindowSize, if_neg (by omega), if_pos (Decidable.not_not.mp hcols)]
      refine (queryCursor_meets c.fd none).bind ?_
      rintro ⟨replied, here, fd⟩ ⟨-, -, hreads⟩
      cases replied with
      | false => exact .pure ⟨rfl, hdefault, hreads⟩
      | true =>
        refine (queryCursor_meets (fd.write .cursorFarRight) (some 80)).bind ?_
        rintro ⟨replied', cols, fd'⟩ ⟨hzero, hnone, hreads'⟩
        have hfar : fd.Reads (fd.write .cursorFarRight) := .of_same rfl rfl
        have hboth := (hreads.trans hfar).trans hreads'
        cases replied' with
        | false => exact .pure ⟨rfl, hdefault, hboth.trans (.of_same rfl rfl)⟩
        | true =>
          refine moveBack_meets ?_ hboth
          have hzero := hzero (by decide)
          cases cols with
          | none => exact absurd rfl (hnone (by decide))
          | some n => exact fun heq => hzero (congrArg some heq)
    exact hquery.mono (fun _ h => h) fun e he => ⟨hws, he⟩

/-- **To show the line for the first time**, or for the first time after it was forgotten how wide
    the window is. -/
theorem refreshLine_meets (h : c.Holds z) (prompt : List UInt8) (cols : Int) (fd : Terminal) :
    Meets (fun e => fd.ws_col = 0 ∧ e.ofQuery) (refreshLine prompt { c with cols, fd }) fun c' =>
      c'.Holds z ∧ c'.capture = c.capture ∧ c'.bufmax = c.bufmax ∧ c'.prompt = c.prompt ∧
        fd.Reads c'.fd := by
  have hsize := getWindowSize_meets { c with cols, fd }
  rcases hsize with ⟨c₁, hrun, hc₁⟩ | ⟨e, hrun, he⟩
  · have hholds : c₁.Holds z := by
      rw [hc₁.frame]
      exact ⟨h.buf, h.room, h.len, h.chars, h.pos, hc₁.sized⟩
    have hframe : c₁.capture = c.capture ∧ c₁.bufmax = c.bufmax ∧ c₁.prompt = c.prompt := by
      rw [hc₁.frame]
      exact ⟨rfl, rfl, rfl⟩
    obtain ⟨written, hshow⟩ :=
      refreshLine_ok hrun hholds.load_text (get_char_cursor hholds) prompt
    refine .of_ok
      ⟨_, hshow, ?_, hframe.1, hframe.2.1, hframe.2.2, hc₁.reads.trans (.of_same rfl rfl)⟩
    exact ⟨hholds.buf, hholds.room, hholds.len, hholds.chars, hholds.pos, hholds.sized⟩
  · refine .error (e := e) ?_ he
    rw [refreshLine, hrun, error_bind]

/-- A terminal of 132 columns that replies; what is typed behind the replies stays. -/
example : getWindowSize ⟨[0], 1, 0, 0, 0, 0, [], none, ⟨typedBytes (27 :: [byte '[', byte '6',
      byte 'R'] ++ 27 :: [byte '[', byte '1', byte '3', byte '2', byte 'R', byte 'a']), 0, []⟩⟩ =
    .ok ⟨[0], 1, 0, 0, 0, 132, [], none, ⟨typedBytes [byte 'a'], 0,
      [.reportCursor, .cursorFarRight, .reportCursor, .cursorBack 126]⟩⟩ := by decide

/-- The first of two replies has no column. -/
example : getWindowSize ⟨[0], 1, 0, 0, 0, 0, [], none, ⟨typedBytes (27 :: [byte '[', byte 'R'] ++
    27 :: [byte '[', byte '8', byte '0', byte 'R']), 0, []⟩⟩ = .error .unset := by decide

end Linenoise

end FepControl
