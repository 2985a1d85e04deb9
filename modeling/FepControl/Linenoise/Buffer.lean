/-
  The line buffer of `linenoise.c`: `struct current` and the functions that change its text.

  The source keeps the line in an array of 4096 bytes, with three numbers beside it, the length in
  bytes, the length in characters and the cursor; and it moves bytes about with `memmove`.  A
  character is a byte here, since the tool is built without UTF-8 support, so the two lengths are
  always the same.

  1. **Current** -- the members of the source, with the array `buf` as it stands in memory, the
     slack behind the text included.  The memory that is written and read is checked: an access
     outside its array is a `Fault`, and so are the other things that C does not define.

  2. **Meets** -- a computation returns as asked, or it ends with a fault that is allowed.  Most
     functions are shown to return outright; those that wait for a reply of the terminal are not.

  3. **Holds** -- what the members say together: the buffer holds a text with a cursor, and NULs
     from there on.  `insert_char` does not move the terminating NUL, and relies on them.  And the
     width of the window is known, so that nothing is read to find it out.

  4. **Becomes** -- a step from one such buffer to another, which reads nothing and keeps the size,
     the prompt and the terminal's side of things.  Steps compose (`Current.Becomes.trans`).

  5. **Edits** -- one lemma for each function of the source: it stays inside the buffer, and does to
     the text what the zipper says.  The loops of `remove_chars` and `insert_chars` are inductions
     over the characters that are left.
-/
import FepControl.Lib.CMemory
import FepControl.Lib.Zipper
import FepControl.Linenoise.Keyboard

namespace FepControl

namespace Linenoise

open Lib

/-! ## Checked memory -/

/-- The arrays of the line editor. -/
inductive Region where
  | buf | capture | history | rbuf
  deriving DecidableEq, Repr

/-- What ends a computation of the model. -/
inductive Fault where
  /-- an access outside the array -/
  | outside (r : Region)
  /-- an `int` is not large enough for the result -/
  | overflow
  /-- a variable is read that was never written -/
  | unset
  /-- not a fault of the code: a loop of the model was not given enough rounds -/
  | unfinished
  deriving DecidableEq, Repr

/-- A computation that may end with a fault. -/
abbrev Checked := Except Fault

/-- An access to an array, which is a fault if it is not inside. -/
def checked {α : Type} (r : Region) : Option α → Checked α
  | some a => .ok a
  | none => .error (.outside r)

/-- The result of an operation on `int`s. -/
def checkedInt (n : Int) : Checked Int :=
  if -2147483648 ≤ n ∧ n ≤ 2147483647 then .ok n else .error .overflow

@[simp] theorem checked_some {α : Type} (r : Region) (a : α) : checked r (some a) = .ok a := rfl

@[simp] theorem ok_bind {α β : Type} (a : α) (f : α → Checked β) :
    ((.ok a : Checked α) >>= f) = f a := rfl

/-- What has returned had a first part that returned. -/
theorem ok_of_bind {α β : Type} {x : Checked α} {f : α → Checked β} {b : β}
    (h : x >>= f = .ok b) : ∃ a, x = .ok a ∧ f a = .ok b := by
  cases x with
  | error e => cases h
  | ok a => exact ⟨a, rfl, h⟩

@[simp] theorem error_bind {α β : Type} (e : Fault) (f : α → Checked β) :
    ((.error e : Checked α) >>= f) = .error e := rfl

/-- The computation returns as asked, or it ends with a fault that is allowed. -/
def Meets {α : Type} (allowed : Fault → Prop) (x : Checked α) (Q : α → Prop) : Prop :=
  (∃ a, x = .ok a ∧ Q a) ∨ ∃ e, x = .error e ∧ allowed e

section Meets

variable {α β : Type} {allowed allowed' : Fault → Prop}

/-- A computation that returns as asked. -/
theorem Meets.of_ok {x : Checked α} {Q : α → Prop} (h : ∃ a, x = .ok a ∧ Q a) :
    Meets allowed x Q := .inl h

theorem Meets.pure {Q : α → Prop} {a : α} (h : Q a) : Meets allowed (pure a) Q := .inl ⟨a, rfl, h⟩

/-- A computation that ends with a fault that is allowed. -/
theorem Meets.error {x : Checked α} {Q : α → Prop} {e : Fault} (hx : x = .error e)
    (he : allowed e) : Meets allowed x Q := .inr ⟨e, hx, he⟩

/-- One computation after the other. -/
theorem Meets.bind {x : Checked α} {f : α → Checked β} {P : α → Prop} {Q : β → Prop}
    (hx : Meets allowed x P) (hf : ∀ a, P a → Meets allowed (f a) Q) :
    Meets allowed (x >>= f) Q := by
  rcases hx with ⟨a, rfl, ha⟩ | ⟨e, rfl, he⟩
  · exact hf a ha
  · exact .error rfl he

/-- Less may be asked, and more allowed. -/
theorem Meets.mono {x : Checked α} {P Q : α → Prop} (hx : Meets allowed x P)
    (h : ∀ a, P a → Q a) (he : ∀ e, allowed e → allowed' e) : Meets allowed' x Q := by
  rcases hx with ⟨a, rfl, ha⟩ | ⟨e, rfl, hallowed⟩
  · exact .inl ⟨a, rfl, h a ha⟩
  · exact .error rfl (he e hallowed)

end Meets

/-! ## The source -/

/-- The size of the array for a line. -/
def LINENOISE_MAX_LINE : Nat := 4096

/-- `struct current`. -/
structure Current where
  buf : List UInt8
  bufmax : Int
  len : Int
  chars : Int
  pos : Int
  cols : Int
  prompt : List UInt8
  /-- the allocated capture buffer, with its NUL -/
  capture : Option (List UInt8)
  fd : Terminal
  deriving DecidableEq, Repr

/-- `get_char`; `none` is its -1. -/
def get_char (current : Current) (pos : Int) : Checked (Option UInt8) :=
  if 0 ≤ pos ∧ pos < current.chars then do
    let cs ← checked .buf (load current.buf pos 1)
    pure cs.head?
  else pure none

/-- `set_current`. -/
def set_current (current : Current) (str : List UInt8) : Checked Current := do
  let buf ← checked .buf (store current.buf 0 (strncpy 0 str current.bufmax.toNat))
  let buf ← checked .buf (store buf (current.bufmax - 1) [0])
  let s ← checked .buf (cString 0 buf)
  pure { current with buf, len := s.length, chars := s.length, pos := s.length }

/-- `has_room`: the text has `bytes` more, and a NUL behind it. -/
def has_room (current : Current) (bytes : Int) : Bool := current.len + bytes < current.bufmax - 1

/-- `utf8_strlen(prompt, -1) + utf8_strlen(buf, len) < cols - 1`: the line does not reach the edge
    of the window. -/
def clearOfEdge (current : Current) : Bool :=
  current.prompt.length + current.len < current.cols - 1

/-- `*p >= ' '` for a `char`, which is signed. -/
def signedPrintable (c : UInt8) : Bool := byte ' ' ≤ c && c < 128

/-- `remove_char`, with the value it returns.  A character is a byte, so `p1` is `pos` and `p2` is
    `pos + 1`. -/
def remove_char (current : Current) (pos : Int) : Checked (Int × Current) :=
  if 0 ≤ pos ∧ pos < current.chars then do
    let cs ← checked .buf (load current.buf pos 1)
    let last := current.pos = pos + 1 ∧ current.pos = current.chars ∧
      cs.all signedPrintable ∧ clearOfEdge current
    let buf ← checked .buf (memmove current.buf pos (pos + 1) (current.len - (pos + 1) + 1))
    pure (if last then 2 else 1,
      { current with
        buf
        len := current.len - 1
        chars := current.chars - 1
        pos := if current.pos > pos then current.pos - 1 else current.pos
        fd := if last then current.fd.write .rubOut else current.fd })
  else pure (0, current)

/-- `insert_char`, with the value it returns. -/
def insert_char (current : Current) (pos : Int) (ch : UInt8) : Checked (Int × Current) :=
  if has_room current 1 ∧ 0 ≤ pos ∧ pos ≤ current.chars then do
    let last := current.pos = pos ∧ current.chars = pos ∧ byte ' ' ≤ ch ∧ clearOfEdge current
    let buf ← checked .buf (memmove current.buf (pos + 1) pos (current.len - pos))
    let buf ← checked .buf (store buf pos [ch])
    pure (if last then 2 else 1,
      { current with
        buf
        len := current.len + 1
        chars := current.chars + 1
        pos := if current.pos ≥ pos then current.pos + 1 else current.pos
        fd := if last then current.fd.write (.chars [ch]) else current.fd })
  else pure (0, current)

/-- `capture_chars`: what is about to be removed is kept for `ctrl-y`. -/
def capture_chars (current : Current) (pos n : Int) : Checked Current :=
  if 0 ≤ pos ∧ pos + n - 1 < current.chars ∧ n ≠ 0 then do
    let cs ← checked .buf (load current.buf pos n)
    pure { current with capture := some (cs ++ [0]) }
  else pure current

/-- The loop of `remove_chars`, with how many it has removed. -/
def removeLoop (pos : Int) : (n : Nat) → Current → Checked (Int × Current)
  | 0, current => pure (0, current)
  | n + 1, current => do
    let (ret, current) ← remove_char current pos
    if ret = 0 then pure (0, current)
    else
      let (removed, current) ← removeLoop pos n current
      pure (removed + 1, current)

/-- `remove_chars`; every caller passes the distance of two positions as `n`. -/
def remove_chars (current : Current) (pos n : Int) : Checked (Int × Current) := do
  let current ← capture_chars current pos n
  removeLoop pos n.toNat current

/-- `insert_chars`, with how many it has inserted. -/
def insert_chars (current : Current) (pos : Int) : List UInt8 → Checked (Int × Current)
  | [] => throw (.outside .capture)
  | ch :: chars =>
    if ch = 0 then pure (0, current)
    else do
      let (ret, current) ← insert_char current pos ch
      if ret = 0 then pure (0, current)
      else
        let (inserted, current) ← insert_chars current (pos + 1) chars
        pure (inserted + 1, current)

/-! ## What the buffer holds -/

/-- The buffer holds the text of `z`, with its cursor, and NULs behind it. -/
structure Current.Holds (current : Current) (z : Zipper UInt8) : Prop where
  buf : current.buf = z.text ++ List.replicate (current.bufmax - z.text.length).toNat 0
  room : z.text.length < current.bufmax
  len : current.len = z.text.length
  chars : current.chars = z.text.length
  pos : current.pos = z.before.length
  sized : current.cols ≠ 0

/-- The line was changed to hold `z`; nothing was read for that. -/
structure Current.Becomes (current : Current) (z : Zipper UInt8) (capture : Option (List UInt8))
    (current' : Current) : Prop where
  holds : current'.Holds z
  capture : current'.capture = capture
  bufmax : current'.bufmax = current.bufmax
  prompt : current'.prompt = current.prompt
  input : current'.fd.input = current.fd.input
  ws_col : current'.fd.ws_col = current.fd.ws_col

/-- Two steps, one after the other. -/
theorem Current.Becomes.trans {c c₁ c₂ : Current} {z₁ z₂ : Zipper UInt8}
    {k₁ k₂ : Option (List UInt8)} (h₁ : c.Becomes z₁ k₁ c₁) (h₂ : c₁.Becomes z₂ k₂ c₂) :
    c.Becomes z₂ k₂ c₂ where
  holds := h₂.holds
  capture := h₂.capture
  bufmax := h₂.bufmax.trans h₁.bufmax
  prompt := h₂.prompt.trans h₁.prompt
  input := h₂.input.trans h₁.input
  ws_col := h₂.ws_col.trans h₁.ws_col

/-- A step that does nothing. -/
theorem Current.Holds.becomes {c : Current} {z : Zipper UInt8} (h : c.Holds z) :
    c.Becomes z c.capture c := ⟨h, rfl, rfl, rfl, rfl, rfl⟩

namespace Current.Holds

variable {c : Current} {z : Zipper UInt8}

/-- The array has the size that `bufmax` says. -/
theorem length_buf (h : c.Holds z) : (c.buf.length : Int) = c.bufmax := by
  have hroom := h.room
  rw [h.buf, List.length_append, List.length_replicate]
  omega

/-- The terminating NUL, and the NULs behind it. -/
theorem buf_eq (h : c.Holds z) : ∃ n, c.buf = z.text ++ 0 :: List.replicate n 0 ∧
    (n : Int) = c.bufmax - z.text.length - 1 := by
  have hroom := h.room
  refine ⟨(c.bufmax - z.text.length - 1).toNat, ?_, by omega⟩
  rw [← List.replicate_succ, h.buf]
  congr 2
  omega

/-- `strdup(current->buf)`: the text, up to a NUL that was put into it. -/
theorem cString (h : c.Holds z) : cString 0 c.buf = some (z.text.takeWhile (· ≠ 0)) := by
  obtain ⟨n, hbuf, -⟩ := h.buf_eq
  rw [hbuf]
  exact cString_text 0 z.text _

end Current.Holds

/-! ## Edits -/

section Edits

variable {c : Current} {z : Zipper UInt8}

/-- A character of the text is read where it is. -/
theorem get_char_at (h : c.Holds z) {xs ys : List UInt8} {x : UInt8}
    (htext : z.text = xs ++ x :: ys) : get_char c xs.length = .ok (some x) := by
  have hlen : (xs.length : Int) < c.chars := by
    rw [h.chars, htext, List.length_append, List.length_cons]; omega
  have hload : load c.buf xs.length 1 = some [x] := by
    rw [h.buf, htext]
    have := load_append xs [x] (ys ++ List.replicate (c.bufmax - (xs ++ x :: ys).length).toNat 0)
    simpa using this
  rw [get_char, if_pos ⟨by omega, hlen⟩, hload]
  rfl

/-- **`set_current` replaces the text**, cut to the size of the buffer, and puts the cursor behind
    it. -/
theorem set_current_holds (hbuf : (c.buf.length : Int) = c.bufmax) (hmax : 0 < c.bufmax)
    (hcols : c.cols ≠ 0) {str : List UInt8} (hstr : 0 ∉ str) :
    ∃ c', set_current c str = .ok c' ∧
      c.Becomes (.atEnd (str.take (c.bufmax - 1).toNat)) c.capture c' ∧ c'.fd = c.fd := by
  obtain ⟨n, hn⟩ : ∃ n : Nat, c.bufmax = n + 1 := ⟨(c.bufmax - 1).toNat, by omega⟩
  have htake : (c.bufmax - 1).toNat = n := by omega
  have hlen : (str.take n).length ≤ n := List.length_take_le n str
  have hnul : 0 ∉ str.take n := fun hin => hstr (List.mem_of_mem_take hin)
  have hcopy : store c.buf 0 (strncpy 0 str c.bufmax.toNat) = some (strncpy 0 str (n + 1)) := by
    have hsize : c.bufmax.toNat = n + 1 := by omega
    have := store_append [] c.buf [] (strncpy 0 str (n + 1))
      (by rw [length_strncpy]; omega)
    simpa [hsize] using this
  have hterm : store (strncpy 0 str (n + 1)) (c.bufmax - 1) [0] =
      some (str.take n ++ List.replicate (n + 1 - (str.take n).length) 0) := by
    rw [hn, Int.add_sub_cancel, strncpy_terminated]
  have hread : cString 0 (str.take n ++ List.replicate (n + 1 - (str.take n).length) 0) =
      some (str.take n) := by
    rw [show n + 1 - (str.take n).length = n - (str.take n).length + 1 by omega,
      List.replicate_succ]
    exact cString_append hnul _
  have hrun : set_current c str = .ok { c with
      buf := str.take n ++ List.replicate (n + 1 - (str.take n).length) 0
      len := (str.take n).length
      chars := (str.take n).length
      pos := (str.take n).length } := by
    rw [set_current, hcopy, checked_some, ok_bind, hterm, checked_some, ok_bind, hread]
    rfl
  have htext : (Zipper.atEnd (str.take n)).text = str.take n := by simp [Zipper.atEnd, Zipper.text]
  refine ⟨_, hrun, ?_, rfl⟩
  rw [htake]
  refine ⟨⟨?_, ?_, ?_, ?_, rfl, hcols⟩, rfl, rfl, rfl, rfl, rfl⟩
  · rw [htext]
    show _ ++ _ = _ ++ List.replicate (c.bufmax - (str.take n).length).toNat 0
    congr 2
    omega
  · rw [htext]
    show ((str.take n).length : Int) < c.bufmax
    omega
  · rw [htext]
  · rw [htext]

/-- The width of the window makes no difference. -/
theorem set_current_cols {str : List UInt8} {cols : Int} {c' : Current}
    (h : set_current { c with cols } str = .ok c') :
    set_current c str = .ok { c' with cols := c.cols } := by
  rw [set_current] at h ⊢
  obtain ⟨buf, hcopy, h⟩ := ok_of_bind h
  obtain ⟨buf', hterm, h⟩ := ok_of_bind h
  obtain ⟨s, hread, h⟩ := ok_of_bind h
  cases h
  rw [hcopy, ok_bind, hterm, ok_bind, hread]
  rfl

/-- `remove_char`, wherever the cursor is. -/
theorem remove_char_at (h : c.Holds z) {z' : Zipper UInt8} {xs : List UInt8} (x : UInt8)
    (ys : List UInt8) (htext : z.text = xs ++ x :: ys) (htext' : z'.text = xs ++ ys)
    (hpos : (z'.before.length : Int) =
      if c.pos > xs.length then c.pos - 1 else c.pos) :
    ∃ ret c', remove_char c xs.length = .ok (ret, c') ∧ ret ≠ 0 ∧
      c.Becomes z' c.capture c' := by
  have hroom := h.room
  obtain ⟨n, hbuf, hn⟩ := h.buf_eq
  have hlen : z.text.length = xs.length + ys.length + 1 := by
    rw [htext, List.length_append, List.length_cons]; omega
  have hlen' : z'.text.length = xs.length + ys.length := by
    rw [htext', List.length_append]
  have hin : (0 : Int) ≤ xs.length ∧ (xs.length : Int) < c.chars := by
    rw [h.chars]; omega
  have hload : load c.buf xs.length 1 = some [x] := by
    have := load_append xs [x] (ys ++ 0 :: List.replicate n 0)
    rw [hbuf, htext]
    simpa using this
  -- the text behind moves down together with its NUL
  have hmove : memmove c.buf xs.length (xs.length + 1) (c.len - (xs.length + 1) + 1) =
      some (xs ++ ys ++ 0 :: 0 :: List.replicate n 0) := by
    have := memmove_down xs (ys ++ [0]) (List.replicate n 0) x
    rw [hbuf, htext, h.len, hlen]
    have hsize : ((xs.length + ys.length + 1 : Nat) : Int) - (xs.length + 1) + 1 =
        ((ys ++ [0]).length : Nat) := by
      rw [List.length_append, List.length_singleton]; omega
    rw [hsize]
    have hlast : (x :: (ys ++ [0])).drop (ys ++ [0]).length = [(0 : UInt8)] := by
      rw [List.length_append, List.length_singleton, List.drop_succ_cons, List.drop_left]
    rw [hlast] at this
    simpa using this
  rw [remove_char, if_pos hin, hload, checked_some, ok_bind, hmove, checked_some, ok_bind]
  refine ⟨_, _, rfl, ?_, ?_⟩
  · split <;> decide
  · refine ⟨⟨?_, ?_, ?_, ?_, ?_, h.sized⟩, rfl, rfl, rfl, ?_, ?_⟩
    · rw [htext']
      show xs ++ ys ++ 0 :: 0 :: List.replicate n 0 =
        xs ++ ys ++ List.replicate (c.bufmax - (xs ++ ys).length).toNat 0
      have hslack : (c.bufmax - (xs ++ ys).length).toNat = n + 1 + 1 := by
        rw [List.length_append]; omega
      rw [hslack, List.replicate_succ, List.replicate_succ]
    · show (z'.text.length : Int) < c.bufmax
      omega
    · show c.len - 1 = z'.text.length
      rw [h.len]; omega
    · show c.chars - 1 = z'.text.length
      rw [h.chars]; omega
    · exact hpos.symm
    · show (if _ then c.fd.write .rubOut else c.fd).input = c.fd.input
      split <;> rfl
    · show (if _ then c.fd.write .rubOut else c.fd).ws_col = c.fd.ws_col
      split <;> rfl

/-- `remove_char` of a character before the cursor. -/
theorem remove_char_before (h : c.Holds z) {xs ys : List UInt8} {x : UInt8}
    (hbefore : z.before = xs ++ x :: ys) :
    ∃ ret c', remove_char c xs.length = .ok (ret, c') ∧ ret ≠ 0 ∧
      c.Becomes ⟨xs ++ ys, z.after⟩ c.capture c' := by
  have hlen : z.before.length = xs.length + ys.length + 1 := by
    rw [hbefore, List.length_append, List.length_cons]; omega
  refine remove_char_at h x (ys ++ z.after) ?_ ?_ ?_
  · rw [Zipper.text, hbefore, List.append_assoc, List.cons_append]
  · rw [Zipper.text, List.append_assoc]
  · rw [if_pos (by rw [h.pos]; omega), h.pos, List.length_append]
    omega

/-- `remove_char` of the character at the cursor. -/
theorem remove_char_after (h : c.Holds z) {ys : List UInt8} {x : UInt8}
    (hafter : z.after = x :: ys) :
    ∃ ret c', remove_char c c.pos = .ok (ret, c') ∧ ret ≠ 0 ∧
      c.Becomes ⟨z.before, ys⟩ c.capture c' := by
  have hpos : (z.before.length : Int) = c.pos := h.pos.symm
  rw [← hpos]
  refine remove_char_at h x ys ?_ rfl ?_
  · rw [Zipper.text, hafter]
  · rw [if_neg (by omega), hpos]

/-- Where there is no character, nothing is removed. -/
theorem remove_char_none (h : c.Holds z) {pos : Int} (hpos : pos < 0 ∨ z.text.length ≤ pos) :
    remove_char c pos = .ok (0, c) := by
  rw [remove_char, if_neg]
  · rfl
  · rw [h.chars]; omega

/-- `insert_char` at the cursor or before it. -/
theorem insert_char_at (h : c.Holds z) {xs ys : List UInt8} (hbefore : z.before = xs ++ ys)
    (hfits : z.text.length + 2 < c.bufmax) (ch : UInt8) :
    ∃ ret c', insert_char c xs.length ch = .ok (ret, c') ∧ ret ≠ 0 ∧
      c.Becomes ⟨xs ++ ch :: ys, z.after⟩ c.capture c' := by
  obtain ⟨n, hbuf, hn⟩ := h.buf_eq
  obtain ⟨n, rfl⟩ : ∃ n', n = n' + 1 := ⟨n - 1, by omega⟩
  have htext : z.text = xs ++ (ys ++ z.after) := by
    rw [Zipper.text, hbefore, List.append_assoc]
  have hlen : z.text.length = xs.length + (ys ++ z.after).length := by
    rw [htext, List.length_append]
  have hin : has_room c 1 = true ∧ (0 : Int) ≤ xs.length ∧ (xs.length : Int) ≤ c.chars := by
    refine ⟨decide_eq_true ?_, by omega, ?_⟩
    · rw [h.len]; omega
    · rw [h.chars]; omega
  -- the NUL stays where it is: the text moves over it, and the next NUL ends it
  have hmove : memmove c.buf (xs.length + 1) xs.length (c.len - xs.length) =
      some (xs ++ (ys ++ z.after ++ [0]).take 1 ++ (ys ++ z.after) ++
        List.replicate (n + 1) 0) := by
    have := memmove_up xs (ys ++ z.after) (List.replicate (n + 1) 0) 0
    rw [hbuf, htext, h.len, hlen]
    have hsize : ((xs.length + (ys ++ z.after).length : Nat) : Int) - xs.length =
        ((ys ++ z.after).length : Nat) := by omega
    rw [hsize]
    simpa using this
  have hstore : store (xs ++ (ys ++ z.after ++ [0]).take 1 ++ (ys ++ z.after) ++
        List.replicate (n + 1) 0) xs.length [ch] =
      some (xs ++ [ch] ++ (ys ++ z.after ++ List.replicate (n + 1) 0)) := by
    rw [List.append_assoc (xs ++ _)]
    refine store_append xs _ _ _ ?_
    rw [List.length_take, List.length_append, List.length_singleton, List.length_singleton]
    omega
  rw [insert_char, if_pos hin, hmove, checked_some, ok_bind, hstore, checked_some, ok_bind]
  refine ⟨_, _, rfl, ?_, ?_⟩
  · split <;> decide
  · have htext' : (⟨xs ++ ch :: ys, z.after⟩ : Zipper UInt8).text =
        xs ++ [ch] ++ (ys ++ z.after) := by simp [Zipper.text]
    have hlen' : (xs ++ [ch] ++ (ys ++ z.after)).length = z.text.length + 1 := by
      rw [hlen, List.length_append, List.length_append, List.length_singleton]; omega
    have hpos : (xs.length : Int) ≤ c.pos := by
      rw [h.pos, hbefore, List.length_append]; omega
    refine ⟨⟨?_, ?_, ?_, ?_, ?_, h.sized⟩, rfl, rfl, rfl, ?_, ?_⟩
    · rw [htext']
      show xs ++ [ch] ++ (ys ++ z.after ++ List.replicate (n + 1) 0) = xs ++ [ch] ++
        (ys ++ z.after) ++
          List.replicate (c.bufmax - (xs ++ [ch] ++ (ys ++ z.after)).length).toNat 0
      have hslack : (c.bufmax - (xs ++ [ch] ++ (ys ++ z.after)).length).toNat = n + 1 := by
        rw [hlen']; omega
      rw [hslack, List.append_assoc (xs ++ [ch])]
    · rw [htext', hlen']
      show ((z.text.length + 1 : Nat) : Int) < c.bufmax
      omega
    · rw [htext', hlen']
      show c.len + 1 = _
      rw [h.len]; omega
    · rw [htext', hlen']
      show c.chars + 1 = _
      rw [h.chars]; omega
    · show (if c.pos ≥ xs.length then c.pos + 1 else c.pos) = ((xs ++ ch :: ys).length : Int)
      rw [if_pos hpos, h.pos, hbefore]
      simp only [List.length_append, List.length_cons]; omega
    · show (if _ then c.fd.write (.chars [ch]) else c.fd).input = c.fd.input
      split <;> rfl
    · show (if _ then c.fd.write (.chars [ch]) else c.fd).ws_col = c.fd.ws_col
      split <;> rfl

/-- Without room nothing is inserted, nor outside the text. -/
theorem insert_char_none (h : c.Holds z) {pos : Int}
    (hno : c.bufmax ≤ z.text.length + 2 ∨ pos < 0 ∨ z.text.length < pos) (ch : UInt8) :
    insert_char c pos ch = .ok (0, c) := by
  rw [insert_char, if_neg]
  · rfl
  · rintro ⟨hroom, hpos, hchars⟩
    have hroom := of_decide_eq_true hroom
    rw [h.len] at hroom
    rw [h.chars] at hchars
    omega

/-- `insert_char` at the cursor, where there is room. -/
theorem insert_char_cursor (h : c.Holds z) (hfits : z.text.length + 2 < c.bufmax) (ch : UInt8) :
    ∃ ret c', insert_char c c.pos ch = .ok (ret, c') ∧ ret ≠ 0 ∧
      c.Becomes (z.insert ch) c.capture c' := by
  rw [h.pos]
  exact insert_char_at h (List.append_nil _).symm hfits ch

/-- The cut buffer after `xs` was captured: an empty range leaves it as it is. -/
def captured (xs : List UInt8) (capture : Option (List UInt8)) : Option (List UInt8) :=
  if xs = [] then capture else some (xs ++ [0])

/-- `capture_chars` of a part of the text. -/
theorem capture_chars_part (h : c.Holds z) (xs ys zs : List UInt8)
    (htext : z.text = xs ++ ys ++ zs) :
    capture_chars c xs.length ys.length = .ok { c with capture := captured ys c.capture } := by
  rw [capture_chars]
  by_cases hys : ys = []
  · rw [if_neg (by rw [hys]; simp), captured, if_pos hys]
    rfl
  · have hne : ys.length ≠ 0 := fun h0 => hys (List.length_eq_zero_iff.mp h0)
    have hload : load c.buf xs.length ys.length = some ys := by
      rw [h.buf, htext, List.append_assoc]
      exact load_append xs ys _
    have hlen : z.text.length = xs.length + ys.length + zs.length := by
      rw [htext, List.length_append, List.length_append]
    rw [if_pos ⟨by omega, by rw [h.chars]; omega, by omega⟩, hload, captured, if_neg hys]
    rfl

/-- The loop of `remove_chars` over a part of the text before the cursor. -/
theorem removeLoop_before (xs : List UInt8) : ∀ {ys : List UInt8} {c : Current} {z : Zipper UInt8},
    c.Holds z → z.before = xs ++ ys →
      ∃ removed c', removeLoop xs.length ys.length c = .ok (removed, c') ∧
        c.Becomes ⟨xs, z.after⟩ c.capture c'
  | [], c, z, h, hbefore => by
      refine ⟨0, c, rfl, ?_⟩
      rw [List.append_nil] at hbefore
      rw [← hbefore]
      exact h.becomes
  | y :: ys, c, z, h, hbefore => by
      obtain ⟨ret, c₁, hremove, hret, h₁⟩ := remove_char_before h hbefore
      obtain ⟨removed, c₂, hloop, h₂⟩ := removeLoop_before xs h₁.holds rfl
      refine ⟨removed + 1, c₂, ?_, ?_⟩
      · rw [List.length_cons, removeLoop, hremove, ok_bind]
        simp only [if_neg hret, hloop, ok_bind]
        rfl
      · rw [h₁.capture] at h₂
        exact h₁.trans h₂

/-- The loop of `remove_chars` over a part of the text behind the cursor. -/
theorem removeLoop_after : ∀ {ys zs : List UInt8} {c : Current} {z : Zipper UInt8},
    c.Holds z → z.after = ys ++ zs →
      ∃ removed c', removeLoop c.pos ys.length c = .ok (removed, c') ∧
        c.Becomes ⟨z.before, zs⟩ c.capture c'
  | [], zs, c, z, h, hafter => by
      refine ⟨0, c, rfl, ?_⟩
      rw [List.nil_append] at hafter
      rw [← hafter]
      exact h.becomes
  | y :: ys, zs, c, z, h, hafter => by
      obtain ⟨ret, c₁, hremove, hret, h₁⟩ := remove_char_after h hafter
      obtain ⟨removed, c₂, hloop, h₂⟩ := removeLoop_after h₁.holds rfl
      have hpos : c₁.pos = c.pos := by rw [h₁.holds.pos, h.pos]
      refine ⟨removed + 1, c₂, ?_, ?_⟩
      · rw [List.length_cons, removeLoop, hremove, ok_bind]
        rw [hpos] at hloop
        simp only [if_neg hret, hloop, ok_bind]
        rfl
      · rw [h₁.capture] at h₂
        exact h₁.trans h₂

/-- What is kept for `ctrl-y` does not matter to the text. -/
theorem Current.Holds.withCapture (h : c.Holds z) (capture : Option (List UInt8)) :
    ({ c with capture } : Current).Holds z :=
  ⟨h.buf, h.room, h.len, h.chars, h.pos, h.sized⟩

/-- **`remove_chars` before the cursor**: the last `n` characters there are cut. -/
theorem remove_chars_before (h : c.Holds z) {n : Nat} (hn : n ≤ z.before.length) :
    ∃ removed c', remove_chars c (c.pos - n) n = .ok (removed, c') ∧
      c.Becomes (z.removeBefore n) (captured (z.before.drop (z.before.length - n)) c.capture)
        c' := by
  have hsplit := (List.take_append_drop (z.before.length - n) z.before).symm
  have hlen : (z.before.drop (z.before.length - n)).length = n := by
    rw [List.length_drop]; omega
  have hpos : c.pos - n = ((z.before.take (z.before.length - n)).length : Int) := by
    rw [h.pos, List.length_take]; omega
  have hcapture := capture_chars_part h (z.before.take (z.before.length - n))
    (z.before.drop (z.before.length - n)) z.after
    (by rw [List.take_append_drop]; rfl)
  obtain ⟨removed, c', hloop, hc'⟩ := removeLoop_before _ (h.withCapture
    (captured (z.before.drop (z.before.length - n)) c.capture)) hsplit
  refine ⟨removed, c', ?_, hc'.holds, hc'.capture, hc'.bufmax, hc'.prompt, hc'.input, hc'.ws_col⟩
  rw [hlen] at hcapture hloop
  rw [remove_chars, hpos, hcapture, ok_bind, Int.toNat_natCast, hloop]

/-- **`remove_chars` behind the cursor**: the first `n` characters there are cut. -/
theorem remove_chars_after (h : c.Holds z) {n : Nat} (hn : n ≤ z.after.length) :
    ∃ removed c', remove_chars c c.pos n = .ok (removed, c') ∧
      c.Becomes (z.removeAfter n) (captured (z.after.take n) c.capture) c' := by
  have hsplit := (List.take_append_drop n z.after).symm
  have hlen : (z.after.take n).length = n := by
    rw [List.length_take]; omega
  have hcapture := capture_chars_part h z.before (z.after.take n) (z.after.drop n)
    (by rw [List.append_assoc, List.take_append_drop]; rfl)
  obtain ⟨removed, c', hloop, hc'⟩ := removeLoop_after (h.withCapture
    (captured (z.after.take n) c.capture)) hsplit
  refine ⟨removed, c', ?_, hc'.holds, hc'.capture, hc'.bufmax, hc'.prompt, hc'.input, hc'.ws_col⟩
  rw [hlen] at hcapture hloop
  rw [← h.pos] at hcapture
  rw [remove_chars, hcapture, ok_bind, Int.toNat_natCast, ← hloop]

/-- How many characters can still be inserted. -/
def freeRoom (bufmax : Int) (z : Zipper UInt8) : Nat := (bufmax - 2 - z.text.length).toNat

/-- **`insert_chars` at the cursor**: a string is inserted, as far as there is room. -/
theorem insert_chars_cursor (zs : List UInt8) :
    ∀ {s : List UInt8} {c : Current} {z : Zipper UInt8}, c.Holds z → 0 ∉ s →
      ∃ inserted c', insert_chars c c.pos (s ++ 0 :: zs) = .ok (inserted, c') ∧
        c.Becomes (z.insertAll (s.take (freeRoom c.bufmax z))) c.capture c'
  | [], c, z, h, _ => by
      refine ⟨0, c, rfl, ?_⟩
      have hnil : z.insertAll (([] : List UInt8).take (freeRoom c.bufmax z)) = z := by
        rw [List.take_nil, Zipper.insertAll, List.append_nil]
      rw [hnil]
      exact h.becomes
  | ch :: s, c, z, h, hs => by
      have hch : ¬ ch = 0 := fun heq => hs (heq ▸ List.mem_cons_self)
      rw [List.cons_append, insert_chars, if_neg hch]
      by_cases hfits : z.text.length + 2 < c.bufmax
      · obtain ⟨ret, c₁, hinsert, hret, h₁⟩ := insert_char_cursor h hfits ch
        obtain ⟨inserted, c₂, hrest, h₂⟩ := insert_chars_cursor zs h₁.holds
          fun hin => hs (List.mem_cons_of_mem ch hin)
        have hpos : c₁.pos = c.pos + 1 := by
          rw [h₁.holds.pos, h.pos, Zipper.insert, Zipper.insertAll, List.length_append,
            List.length_singleton]
          omega
        have hroom : freeRoom c.bufmax z = freeRoom c₁.bufmax (z.insert ch) + 1 := by
          rw [freeRoom, freeRoom, h₁.bufmax, Zipper.insert, Zipper.insertAll]
          simp only [Zipper.text, List.length_append, List.length_singleton] at hfits ⊢
          omega
        refine ⟨inserted + 1, c₂, ?_, ?_⟩
        · rw [hinsert, ok_bind]
          rw [hpos] at hrest
          simp only [if_neg hret, hrest, ok_bind]
          rfl
        · have hall : z.insertAll ((ch :: s).take (freeRoom c.bufmax z)) =
              (z.insert ch).insertAll (s.take (freeRoom c₁.bufmax (z.insert ch))) := by
            rw [hroom, List.take_succ_cons]
            simp [Zipper.insert, Zipper.insertAll]
          rw [hall, ← h₁.capture]
          exact h₁.trans h₂
      · rw [insert_char_none h (.inl (by omega))]
        refine ⟨0, c, rfl, ?_⟩
        have hroom : freeRoom c.bufmax z = 0 := by rw [freeRoom]; omega
        rw [hroom, List.take_zero, Zipper.insertAll, List.append_nil]
        exact h.becomes

end Edits

end Linenoise

end FepControl
