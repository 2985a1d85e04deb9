/-
  The keyboard of `linenoise.c`: reading bytes from the terminal, and the keys they stand for.

  1. **Terminal** -- what the process can see of the terminal behind `fd`: the events that are still
     to come, the width that `ioctl` reports (0 where it fails or reports none), and everything that
     was written so far.  Time is counted in pauses of 50 ms, of which the timeouts of the source
     are multiples.  Where the events end the terminal has hung up: from then on nothing can be
     read, and it is no terminal any more.

  2. **Keys** -- the source codes the special keys as negative numbers "to co-exist with normal
     unicode chars", and an error of `fd_read` as -1.  Here these are the constructors of `Key`.
     `SPECIAL_NONE` is 0, the code of the NUL byte.

  3. **Typing** -- what a terminal sends for some keys (`Typed`): the bytes of a key come together,
     and any time may go by between two keys.

  4. **Reads** -- what the functions take from the terminal is a part of what comes next, and a
     terminal that reports its width goes on doing that.

  5. **Build** -- the tool is built without `USE_UTF8`, so a character is a byte, and with
     `USE_TERMIOS`.
-/

namespace FepControl

namespace Linenoise

/-- A byte, by the character it is written as in the source. -/
def byte (c : Char) : UInt8 := c.toUInt8

/-- `ctrl(C)`. -/
def ctrl (c : Char) : UInt8 := byte c - byte '@'

/-! ## The terminal -/

/-- What comes from the terminal. -/
inductive Event where
  | byte (c : UInt8)
  /-- nothing, for 50 ms -/
  | pause
  /-- the window has another width from now on -/
  | resize (ws_col : Nat)
  deriving DecidableEq, Repr

/-- What goes to the terminal, by the functions that write it. -/
inductive Output where
  /-- `outputChars`, and the plain `write` of `insert_char` -/
  | chars (buf : List UInt8)
  | outputControlChar (ch : UInt8)
  | cursorToLeft
  | eraseEol
  | setCursorPos (x : Int)
  | clearScreen
  /-- the `"\b \b"` of `remove_char` -/
  | rubOut
  | beep
  /-- the `"\x1b[6n"` of `queryCursor`: the terminal is asked where the cursor is -/
  | reportCursor
  /-- the `"\x1b[999C"` of `getWindowSize` -/
  | cursorFarRight
  /-- and its `"\x1b[%dD"` -/
  | cursorBack (n : Int)
  deriving DecidableEq, Repr

/-- What the process sees of the terminal. -/
structure Terminal where
  input : List Event
  ws_col : Nat
  output : List Output
  deriving DecidableEq, Repr

/-- Something is written. -/
def Terminal.write (fd : Terminal) (o : Output) : Terminal :=
  { fd with output := fd.output ++ [o] }

/-- Several things are written, in this order. -/
def Terminal.writes (fd : Terminal) (os : List Output) : Terminal :=
  { fd with output := fd.output ++ os }

/-- What a read finds that waits at most `timeout` pauses, or for ever (`none`): the next byte, with
    what comes behind it and the width by then. -/
def nextByte : (timeout : Option Nat) → List Event → Nat → Option UInt8 × List Event × Nat
  | _, [], ws_col => (none, [], ws_col)
  | _, .byte c :: input, ws_col => (some c, input, ws_col)
  | timeout, .resize ws_col :: input, _ => nextByte timeout input ws_col
  | none, .pause :: input, ws_col => nextByte none input ws_col
  | some 0, .pause :: input, ws_col => (none, .pause :: input, ws_col)
  | some 1, .pause :: input, ws_col => (none, input, ws_col)
  | some (n + 2), .pause :: input, ws_col => nextByte (some (n + 1)) input ws_col

/-- `fd_read_char`, for a timeout in pauses.  `none` is its -1. -/
def fd_read_char (fd : Terminal) (timeout : Option Nat) : Option UInt8 × Terminal :=
  let (c, input, ws_col) := nextByte timeout fd.input fd.ws_col
  (c, { fd with input, ws_col })

/-! ## Keys -/

/-- The special keys. -/
inductive Special where
  | SPECIAL_UP | SPECIAL_DOWN | SPECIAL_LEFT | SPECIAL_RIGHT | SPECIAL_DELETE | SPECIAL_HOME
  | SPECIAL_END | SPECIAL_INSERT | SPECIAL_PAGE_UP | SPECIAL_PAGE_DOWN
  deriving DecidableEq, Repr

/-- What `fd_read` returns. -/
inductive Key where
  /-- -1 -/
  | eof
  | char (c : UInt8)
  | special (s : Special)
  deriving DecidableEq, Repr

theorem Key.char_ne_eof (c : UInt8) : Key.char c ≠ .eof := by
  intro h
  cases h

/-- `SPECIAL_NONE`. -/
def SPECIAL_NONE : Key := .char 0

/-- A byte that was read, or the error. -/
def Key.ofRead : Option UInt8 → Key
  | none => .eof
  | some c => .char c

/-- `fd_read`, which waits for ever. -/
def fd_read (fd : Terminal) : Key × Terminal :=
  let (c, fd) := fd_read_char fd none
  (.ofRead c, fd)

/-- The `switch` for a sequence of two bytes behind the escape. -/
def shortSequence (c2 : UInt8) : Option Special :=
  if c2 = byte 'A' then some .SPECIAL_UP
  else if c2 = byte 'B' then some .SPECIAL_DOWN
  else if c2 = byte 'C' then some .SPECIAL_RIGHT
  else if c2 = byte 'D' then some .SPECIAL_LEFT
  else if c2 = byte 'F' then some .SPECIAL_END
  else if c2 = byte 'H' then some .SPECIAL_HOME
  else none

/-- The `switch` for an extended sequence, which ends with a tilde. -/
def extendedSequence (c2 : UInt8) : Option Special :=
  if c2 = byte '2' then some .SPECIAL_INSERT
  else if c2 = byte '3' then some .SPECIAL_DELETE
  else if c2 = byte '5' then some .SPECIAL_PAGE_UP
  else if c2 = byte '6' then some .SPECIAL_PAGE_DOWN
  else if c2 = byte '7' then some .SPECIAL_HOME
  else if c2 = byte '8' then some .SPECIAL_END
  else none

/-- `while (c != -1 && c != '~') c = fd_read_char(fd, 50);` from the read on. -/
def discard : List Event → Nat → List Event × Nat
  | [], ws_col => ([], ws_col)
  | .byte c :: input, ws_col => if c = byte '~' then (input, ws_col) else discard input ws_col
  | .pause :: input, ws_col => (input, ws_col)
  | .resize ws_col :: input, _ => discard input ws_col

/-- The rest of an extended sequence, after its first byte. -/
def extended (c2 : UInt8) (fd : Terminal) : Key × Terminal :=
  match fd_read_char fd (some 1) with
  | (none, fd) => (SPECIAL_NONE, fd)
  | (some c, fd) =>
    if c = byte '~' then ((extendedSequence c2).elim SPECIAL_NONE .special, fd)
    else
      let (input, ws_col) := discard fd.input fd.ws_col
      (SPECIAL_NONE, { fd with input, ws_col })

/-- `check_special`: the key of an escape sequence, after its escape. -/
def check_special (fd : Terminal) : Key × Terminal :=
  match fd_read_char fd (some 1) with
  | (none, fd) => (.char 27, fd)
  | (some c, fd) =>
    match fd_read_char fd (some 1) with
    | (none, fd) => (.eof, fd)
    | (some c2, fd) =>
      let short := if c = byte '[' ∨ c = byte 'O' then shortSequence c2 else none
      match short with
      | some s => (.special s, fd)
      | none =>
        if c = byte '[' ∧ byte '1' ≤ c2 ∧ c2 ≤ byte '8' then extended c2 fd
        else (SPECIAL_NONE, fd)

/-! ## Typing -/

/-- What a terminal sends behind the escape. -/
def Special.sequence : Special → List UInt8
  | .SPECIAL_UP => [byte '[', byte 'A']
  | .SPECIAL_DOWN => [byte '[', byte 'B']
  | .SPECIAL_RIGHT => [byte '[', byte 'C']
  | .SPECIAL_LEFT => [byte '[', byte 'D']
  | .SPECIAL_END => [byte '[', byte 'F']
  | .SPECIAL_HOME => [byte '[', byte 'H']
  | .SPECIAL_INSERT => [byte '[', byte '2', byte '~']
  | .SPECIAL_DELETE => [byte '[', byte '3', byte '~']
  | .SPECIAL_PAGE_UP => [byte '[', byte '5', byte '~']
  | .SPECIAL_PAGE_DOWN => [byte '[', byte '6', byte '~']

/-- Bytes that come together. -/
def typedBytes (cs : List UInt8) : List Event := cs.map .byte

/-- What a terminal sends for a key.  The escape key is an escape that nothing follows for a
    pause. -/
def Key.events : Key → List Event
  | .eof => []
  | .char c => if c = 27 then [.byte 27, .pause] else [.byte c]
  | .special s => typedBytes (27 :: s.sequence)

/-- Nothing, for a time. -/
def pauses (n : Nat) : List Event := List.replicate n .pause

/-- These events come of typing these keys: the bytes of a key come together, after any time. -/
def Typed : List Key → List Event → Prop
  | [], events => events = []
  | key :: keys, events =>
    ∃ n events', events = pauses n ++ (key.events ++ events') ∧ Typed keys events'

/-- Keys that are typed without any time between them. -/
theorem typed_events : ∀ keys : List Key, Typed keys (keys.flatMap Key.events)
  | [] => rfl
  | _ :: keys => ⟨0, _, rfl, typed_events keys⟩

/-- Keys are typed in two parts. -/
theorem typed_append {keys' : List Key} : ∀ {keys : List Key} {events : List Event},
    Typed (keys ++ keys') events ↔
      ∃ before behind, events = before ++ behind ∧ Typed keys before ∧ Typed keys' behind
  | [], events => by
      constructor
      · intro h
        exact ⟨[], events, rfl, rfl, h⟩
      · rintro ⟨before, behind, rfl, rfl, h⟩
        exact h
  | key :: keys, events => by
      constructor
      · rintro ⟨n, events', rfl, h⟩
        obtain ⟨before, behind, rfl, hbefore, hbehind⟩ := typed_append.mp h
        refine ⟨pauses n ++ (key.events ++ before), behind, ?_, ⟨n, before, rfl, hbefore⟩, hbehind⟩
        simp only [List.append_assoc]
      · rintro ⟨_, behind, rfl, ⟨n, before, rfl, hbefore⟩, hbehind⟩
        refine ⟨n, before ++ behind, ?_, typed_append.mpr ⟨before, behind, rfl, hbefore, hbehind⟩⟩
        simp only [List.append_assoc]

/-- The first byte of a key. -/
def Key.first : Key → Key
  | .special _ => .char 27
  | key => key

/-- The first byte of a key. -/
theorem Key.events_first {key : Key} (heof : key ≠ .eof) :
    ∃ ch bs, key.events = .byte ch :: bs ∧ key.first = .char ch := by
  cases key with
  | eof => exact absurd rfl heof
  | special s => exact ⟨27, typedBytes s.sequence, rfl, rfl⟩
  | char c =>
    by_cases hc : c = 27
    · exact ⟨27, [.pause], if_pos hc, by rw [hc]; rfl⟩
    · exact ⟨c, [], if_neg hc, rfl⟩

/-- A key does not change the width of the window. -/
theorem Key.resize_not_mem_events (key : Key) (ws_col : Nat) : .resize ws_col ∉ key.events := by
  intro hin
  cases key with
  | eof => cases hin
  | special s =>
    obtain ⟨c, -, heq⟩ := List.mem_map.mp hin
    cases heq
  | char c =>
    by_cases hc : c = 27
    · rw [Key.events, if_pos hc] at hin
      simp at hin
    · rw [Key.events, if_neg hc] at hin
      simp at hin

/-- A key that is typed is an event at least. -/
theorem Typed.length_le : ∀ {keys : List Key} {events : List Event}, Typed keys events →
    (∀ key ∈ keys, key ≠ .eof) → keys.length ≤ events.length
  | [], _, _, _ => Nat.zero_le _
  | key :: keys, _, ⟨n, events', heq, h⟩, hkeys => by
      have hrest := h.length_le fun key' hin => hkeys key' (List.mem_cons_of_mem key hin)
      obtain ⟨ch, bs, hevents, -⟩ := key.events_first (hkeys key List.mem_cons_self)
      rw [heq, hevents, List.length_append, List.length_append, List.length_cons, List.length_cons]
      omega

/-! ## Reading what was typed -/

/-- Without a timeout, pauses are waited out. -/
theorem nextByte_pauses (input : List Event) (ws_col : Nat) :
    ∀ n : Nat, nextByte none (pauses n ++ input) ws_col = nextByte none input ws_col
  | 0 => rfl
  | n + 1 => nextByte_pauses input ws_col n

/-- A byte is read, after any time. -/
theorem fd_read_byte (fd : Terminal) {n : Nat} {c : UInt8} {rest : List Event}
    (h : fd.input = pauses n ++ .byte c :: rest) :
    fd_read fd = (.char c, { fd with input := rest }) := by
  rw [fd_read, fd_read_char, h, nextByte_pauses]
  rfl

/-- At the end of the input. -/
theorem fd_read_end (fd : Terminal) {n : Nat} (h : fd.input = pauses n) :
    fd_read fd = (.eof, { fd with input := [] }) := by
  have hnext := nextByte_pauses [] fd.ws_col n
  rw [List.append_nil] at hnext
  rw [fd_read, fd_read_char, h, hnext]
  rfl

/-- **The sequence of a special key is read as that key.** -/
theorem check_special_sequence (fd : Terminal) (s : Special) (rest : List Event)
    (h : fd.input = typedBytes s.sequence ++ rest) :
    check_special fd = (.special s, { fd with input := rest }) := by
  obtain ⟨input, ws_col, output⟩ := fd
  obtain rfl : input = typedBytes s.sequence ++ rest := h
  cases s <;> rfl

/-- An escape that nothing follows is the escape key. -/
theorem check_special_escape (fd : Terminal) (rest : List Event) (h : fd.input = .pause :: rest) :
    check_special fd = (.char 27, { fd with input := rest }) := by
  rw [check_special, fd_read_char, h]
  rfl

/-! ## Reads -/

/-- `ioctl` reports a width, now and after everything that is still to come. -/
structure Terminal.Reports (fd : Terminal) : Prop where
  ws_col : fd.ws_col ≠ 0
  resize : ∀ ws_col, .resize ws_col ∈ fd.input → ws_col ≠ 0

/-- A terminal of 80 columns, at which these keys are typed, and then it hangs up. -/
def Terminal.typing (keys : List Key) : Terminal := ⟨keys.flatMap Key.events, 80, []⟩

/-- What comes of these keys. -/
theorem Terminal.typing_input (keys : List Key) :
    (Terminal.typing keys).input = keys.flatMap Key.events ++ [] := (List.append_nil _).symm

/-- This terminal reports its width. -/
theorem Terminal.typing_reports (keys : List Key) : (Terminal.typing keys).Reports := by
  have hws : 80 ≠ 0 := by decide
  refine ⟨hws, fun ws_col hin => ?_⟩
  obtain ⟨key, -, hin⟩ := List.mem_flatMap.mp hin
  exact absurd hin (key.resize_not_mem_events ws_col)

/-- The same terminal in front of another input, if no width comes in it that did not come in the
    old one: what is left of the input after a read, or a key put back in front of it. -/
theorem Terminal.Reports.reading {fd : Terminal} (h : fd.Reports) {rest : List Event}
    (hrest : ∀ ws_col, .resize ws_col ∈ rest → .resize ws_col ∈ fd.input) :
    ({ fd with input := rest } : Terminal).Reports :=
  ⟨h.ws_col, fun ws_col hin => h.resize ws_col (hrest ws_col hin)⟩

/-- Some of the input was read, or none. -/
structure Terminal.Reads (fd fd' : Terminal) : Prop where
  input : fd'.input <:+ fd.input
  reports : fd.Reports → fd'.Reports

theorem Terminal.Reads.refl (fd : Terminal) : fd.Reads fd := ⟨List.suffix_refl _, id⟩

theorem Terminal.Reads.trans {fd fd' fd'' : Terminal} (h : fd.Reads fd') (h' : fd'.Reads fd'') :
    fd.Reads fd'' := ⟨h'.input.trans h.input, h'.reports ∘ h.reports⟩

/-- The width is the one before, or one that was read on the way. -/
theorem Terminal.Reads.of_suffix {fd fd' : Terminal} (hinput : fd'.input <:+ fd.input)
    (hws : fd'.ws_col = fd.ws_col ∨ .resize fd'.ws_col ∈ fd.input) : fd.Reads fd' := by
  refine ⟨hinput, fun h => ⟨?_, fun ws_col hin => h.resize ws_col (hinput.subset hin)⟩⟩
  rcases hws with hws | hin
  · rw [hws]
    exact h.ws_col
  · exact h.resize _ hin

/-- What is written makes no difference. -/
theorem Terminal.Reads.of_same {fd fd' : Terminal} (hinput : fd'.input = fd.input)
    (hws : fd'.ws_col = fd.ws_col) : fd.Reads fd' :=
  .of_suffix (hinput ▸ List.suffix_refl _) (.inl hws)

/-- What a read leaves, and the width by then. -/
theorem nextByte_suffix (timeout : Option Nat) (input : List Event) (ws_col : Nat) :
    (nextByte timeout input ws_col).2.1 <:+ input ∧
      ((nextByte timeout input ws_col).2.2 = ws_col ∨
        .resize (nextByte timeout input ws_col).2.2 ∈ input) := by
  induction timeout, input, ws_col using nextByte.induct with
  | case1 timeout ws_col => exact ⟨List.suffix_refl _, .inl rfl⟩
  | case2 timeout c input ws_col => exact ⟨List.suffix_cons _ _, .inl rfl⟩
  | case3 timeout ws_col input ws_col' ih =>
    obtain ⟨hsuffix, hws⟩ := ih
    rw [nextByte]
    refine ⟨hsuffix.trans (List.suffix_cons _ _), .inr ?_⟩
    rcases hws with hws | hin
    · rw [hws]
      exact List.mem_cons_self
    · exact List.mem_cons_of_mem _ hin
  | case4 input ws_col ih =>
    obtain ⟨hsuffix, hws⟩ := ih
    rw [nextByte]
    exact ⟨hsuffix.trans (List.suffix_cons _ _), hws.imp id (List.mem_cons_of_mem _)⟩
  | case5 input ws_col => exact ⟨List.suffix_refl _, .inl rfl⟩
  | case6 input ws_col => exact ⟨List.suffix_cons _ _, .inl rfl⟩
  | case7 n input ws_col ih =>
    obtain ⟨hsuffix, hws⟩ := ih
    rw [nextByte]
    exact ⟨hsuffix.trans (List.suffix_cons _ _), hws.imp id (List.mem_cons_of_mem _)⟩

/-- A byte that is read is an event less. -/
theorem nextByte_some (timeout : Option Nat) (input : List Event) (ws_col : Nat) :
    (nextByte timeout input ws_col).1 ≠ none →
      (nextByte timeout input ws_col).2.1.length < input.length := by
  induction timeout, input, ws_col using nextByte.induct with
  | case1 timeout ws_col => exact fun h => absurd rfl h
  | case2 timeout c input ws_col => exact fun _ => Nat.lt_succ_self _
  | case3 timeout ws_col input ws_col' ih => exact fun h => Nat.lt_succ_of_lt (ih h)
  | case4 input ws_col ih => exact fun h => Nat.lt_succ_of_lt (ih h)
  | case5 input ws_col => exact fun h => absurd rfl h
  | case6 input ws_col => exact fun _ => Nat.lt_succ_self _
  | case7 n input ws_col ih => exact fun h => Nat.lt_succ_of_lt (ih h)

/-- Without a timeout, nothing is read only at the end. -/
theorem nextByte_none : ∀ (input : List Event) (ws_col : Nat),
    (nextByte none input ws_col).1 = none → (nextByte none input ws_col).2.1 = []
  | [], _, _ => rfl
  | .byte c :: input, _, h => by cases h
  | .resize ws_col :: input, _, h => nextByte_none input ws_col h
  | .pause :: input, ws_col, h => nextByte_none input ws_col h

/-- Reading a byte, with a timeout or without. -/
theorem fd_read_char_reads (fd : Terminal) (timeout : Option Nat) :
    fd.Reads (fd_read_char fd timeout).2 := by
  obtain ⟨hsuffix, hws⟩ := nextByte_suffix timeout fd.input fd.ws_col
  exact .of_suffix hsuffix hws

/-- What one read leaves. -/
theorem fd_read_reads (fd : Terminal) : fd.Reads (fd_read fd).2 ∧
    (fd.input ≠ [] → (fd_read fd).2.input.length < fd.input.length) ∧
    ((fd_read fd).1 = .eof → (fd_read fd).2.input = []) := by
  have hlt := nextByte_some none fd.input fd.ws_col
  have hnone := nextByte_none fd.input fd.ws_col
  refine ⟨fd_read_char_reads fd none, fun hne => ?_, fun heof => ?_⟩
  · show (nextByte none fd.input fd.ws_col).2.1.length < fd.input.length
    by_cases hc : (nextByte none fd.input fd.ws_col).1 = none
    · rw [hnone hc]
      exact List.length_pos_iff.mpr hne
    · exact hlt hc
  · refine hnone ?_
    rw [fd_read, fd_read_char] at heof
    cases hc : (nextByte none fd.input fd.ws_col).1 with
    | none => rfl
    | some ch =>
      simp only [hc, Key.ofRead] at heof
      cases heof

/-- What is thrown away is a part of what comes next. -/
theorem discard_suffix : ∀ (input : List Event) (ws_col : Nat),
    (discard input ws_col).1 <:+ input ∧
      ((discard input ws_col).2 = ws_col ∨ .resize (discard input ws_col).2 ∈ input)
  | [], _ => ⟨List.suffix_refl _, .inl rfl⟩
  | .byte c :: input, ws_col => by
      obtain ⟨hsuffix, hws⟩ := discard_suffix input ws_col
      rw [discard]
      split
      · exact ⟨List.suffix_cons _ _, .inl rfl⟩
      · exact ⟨hsuffix.trans (List.suffix_cons _ _), hws.imp id (List.mem_cons_of_mem _)⟩
  | .pause :: input, _ => ⟨List.suffix_cons _ _, .inl rfl⟩
  | .resize ws_col :: input, _ => by
      obtain ⟨hsuffix, hws⟩ := discard_suffix input ws_col
      rw [discard]
      refine ⟨hsuffix.trans (List.suffix_cons _ _), .inr ?_⟩
      rcases hws with hws | hin
      · rw [hws]
        exact List.mem_cons_self
      · exact List.mem_cons_of_mem _ hin

/-- So is what the rest of a sequence takes. -/
theorem extended_reads (c2 : UInt8) (fd : Terminal) : fd.Reads (extended c2 fd).2 := by
  have hread := fd_read_char_reads fd (some 1)
  rw [extended]
  rcases hc : fd_read_char fd (some 1) with ⟨_ | c, fd'⟩
  · rw [hc] at hread
    exact hread
  · rw [hc] at hread
    show fd.Reads (if c = byte '~' then _ else _ : Key × Terminal).2
    split
    · exact hread
    · obtain ⟨hsuffix, hws⟩ := discard_suffix fd'.input fd'.ws_col
      exact hread.trans (.of_suffix hsuffix hws)

/-- What `check_special` takes. -/
theorem check_special_reads (fd : Terminal) : fd.Reads (check_special fd).2 := by
  have hread := fd_read_char_reads fd (some 1)
  rw [check_special]
  rcases hc : fd_read_char fd (some 1) with ⟨_ | c, fd₁⟩
  · rw [hc] at hread
    exact hread
  · rw [hc] at hread
    have hread₁ := fd_read_char_reads fd₁ (some 1)
    rcases hc₁ : fd_read_char fd₁ (some 1) with ⟨_ | c2, fd₂⟩
    · simp only [hc₁]
      rw [hc₁] at hread₁
      exact hread.trans hread₁
    · rw [hc₁] at hread₁
      have hread₂ := hread.trans hread₁
      simp only [hc₁]
      split
      · exact hread₂
      · split
        · exact hread₂.trans (extended_reads c2 fd₂)
        · exact hread₂

end Linenoise

end FepControl
