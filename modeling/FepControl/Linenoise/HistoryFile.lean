/-
  The history file of `linenoise.c`.

  Entries may hold line ends, for a completion can bring them in, and a file of lines needs escapes
  for these.  Saving writes them; loading reads the file in pieces of at most 4095 bytes, and takes
  each piece for an entry, whether it is a whole line or not.

  1. **The source** -- `linenoiseHistorySave` writes an entry on a line, with escapes for
     backslashes and line ends; `linenoiseHistoryLoad` reads the file with `fgets` into an array on
     the stack, decodes what it has read in place, and adds it to the history.

  2. **Decoding in place** -- the part that is written never overtakes the one that is still to be
     read (`Decodes`).  A mark at the very end takes the terminating NUL for its letter, and the
     loop goes on behind it, where it finds what the array held before, or its end.

  3. **Text files** -- loading does to the history what the pieces of the file say (`entries`),
     unless one of them ends with a mark: then it reads behind the array
     (`linenoiseHistoryLoad_text`).  Only a piece that fills the array can end so in a text file,
     since any other one ends with its line or with the file.

  4. **The round trip** -- what is saved is what is loaded, exactly if no entry is too long
     (`entries_saved_iff`, `linenoiseHistoryLoad_saved`).  And a saved file may be one that is read
     beyond the array: where the first piece of an entry ends between a mark and its letter
     (`linenoiseHistoryLoad_saved_overruns_iff`).
-/
import FepControl.Lib.BoundedLog
import FepControl.Lib.Chunks
import FepControl.Lib.EscapeCode
import FepControl.Linenoise.Sound

namespace FepControl

namespace Linenoise

open Lib

/-! ## The source -/

/-- What `linenoiseHistorySave` writes for a character. -/
def savedChar (c : UInt8) : List UInt8 :=
  if c = byte '\\' then [byte '\\', byte '\\']
  else if c = byte '\n' then [byte '\\', byte 'n']
  else if c = byte '\r' then [byte '\\', byte 'r']
  else [c]

/-- What `linenoiseHistoryLoad` makes of the character behind a backslash. -/
def escapeValue (c : UInt8) : UInt8 :=
  if c = byte 'n' then byte '\n' else if c = byte 'r' then byte '\r' else c

/-- `linenoiseHistorySave`: the value it returns, and the file that is left.  `fp` says if the file
    can be opened. -/
def linenoiseHistorySave (history : History) (fp : Bool) (file : Option (List UInt8)) :
    Int × Option (List UInt8) :=
  if fp then
    (0, some (history.lines.flatMap fun str => str.flatMap savedChar ++ [byte '\n']))
  else (-1, file)

/-- `for (src = dest = buf; *src; src++)`, for a number of rounds at most: the array, and where
    `dest` stands at the end. -/
def decodeLoop : (rounds : Nat) → (buf : List UInt8) → (src dest : Nat) → Checked (List UInt8 × Nat)
  | 0, _, _, _ => throw .unfinished
  | rounds + 1, buf, src, dest => do
    let ch ← checked .buf buf[src]?
    if ch = 0 then pure (buf, dest)
    else if ch = byte '\\' then
      let src := src + 1
      let ch ← checked .buf buf[src]?
      let buf ← checked .buf (store buf dest [escapeValue ch])
      decodeLoop rounds buf (src + 1) (dest + 1)
    else
      let buf ← checked .buf (store buf dest [ch])
      decodeLoop rounds buf (src + 1) (dest + 1)

/-- What `linenoiseHistoryLoad` does with what was read into `buf`. -/
def loadLine (history : History) (buf : List UInt8) : Checked (History × List UInt8) := do
  -- decode backslash escaped values
  let (buf, dest) ← decodeLoop (buf.length + 1) buf 0 0
  -- remove trailing newline
  let trailing ←
    if dest = 0 then pure false
    else do
      let ch ← checked .buf buf[dest - 1]?
      pure (ch = byte '\n' ∨ ch = byte '\r')
  let dest := if trailing then dest - 1 else dest
  let buf ← checked .buf (store buf dest [0])
  let line ← checked .buf (cString 0 buf)
  let (_, history) ← linenoiseHistoryAdd history line
  pure (history, buf)

/-- The `while (fgets(…))` of `linenoiseHistoryLoad`. -/
def loadLoop : (rounds : Nat) → History → (buf fp : List UInt8) → Checked History
  | 0, _, _, _ => throw .unfinished
  | rounds + 1, history, buf, fp => do
    match ← checked .buf (Chunks.fgets (byte '\n') 0 buf LINENOISE_MAX_LINE fp) with
    | none => pure history
    | some (buf, fp) =>
      let (history, buf) ← loadLine history buf
      loadLoop rounds history buf fp

/-- `linenoiseHistoryLoad`, with the value it returns; `buf` is what it finds in its array, and `fp`
    the file, if it can be opened. -/
def linenoiseHistoryLoad (history : History) (buf : List UInt8) (fp : Option (List UInt8)) :
    Checked (Int × History) :=
  match fp with
  | none => pure (-1, history)
  | some fp => do
    let history ← loadLoop (fp.length + 1) history buf fp
    pure (0, history)

/-! ## Decoding in place -/

/-- What the loop makes of the array from `src` on; nothing, if it leaves the array. -/
def decoded : List UInt8 → Option (List UInt8)
  | [] => none
  | [c] => if c = 0 then some [] else none
  | c :: c' :: cs =>
      if c = 0 then some []
      else if c = byte '\\' then (decoded cs).map (escapeValue c' :: ·)
      else (decoded (c' :: cs)).map (c :: ·)

/-- A character that is no mark stands for itself. -/
theorem decoded_char {c : UInt8} (hnul : c ≠ 0) (hmark : c ≠ byte '\\') (cs : List UInt8) :
    decoded (c :: cs) = (decoded cs).map (c :: ·) := by
  cases cs with
  | nil => exact if_neg hnul
  | cons c' cs => rw [decoded, if_neg hnul, if_neg hmark]

/-- `*dest++ = ch`: the cell behind the decoded part is one that was read. -/
theorem store_dest (done : List UInt8) (g : UInt8) (gap tail : List UInt8) (ch : UInt8) :
    store (done ++ g :: gap ++ tail) done.length [ch] = some (done ++ [ch] ++ gap ++ tail) := by
  have h := store_append done [g] (gap ++ tail) [ch] rfl
  rw [List.append_assoc, List.append_assoc] at h
  rw [List.append_assoc]
  exact h.trans (by simp)

/-- `*src` is the first character that is still to be read. -/
theorem getElem?_src (done gap : List UInt8) (c : UInt8) (tail : List UInt8) {src : Nat}
    (hsrc : src = done.length + gap.length) : (done ++ gap ++ c :: tail)[src]? = some c := by
  have hlen : src = (done ++ gap).length := by rw [hsrc, List.length_append]
  rw [hlen, List.getElem?_append_right (Nat.le_refl _), Nat.sub_self]
  rfl

/-- The end of the loop. -/
structure Decodes (rounds : Nat) (done gap tail : List UInt8) : Prop where
  leaves : decoded tail = none → decodeLoop rounds (done ++ gap ++ tail) (done.length + gap.length)
    done.length = .error (.outside .buf)
  ends : ∀ s, decoded tail = some s → ∃ z slack, decodeLoop rounds (done ++ gap ++ tail)
      (done.length + gap.length) done.length =
        .ok (done ++ s ++ z :: slack, done.length + s.length) ∧
    (done ++ s ++ z :: slack).length = (done ++ gap ++ tail).length

/-- A round that writes a character: from there the loop goes on. -/
theorem Decodes.step {rounds : Nat} {done gap gap' tail tail' : List UInt8} {ch : UInt8}
    (h : Decodes rounds (done ++ [ch]) gap' tail')
    (hdecoded : decoded tail = (decoded tail').map (ch :: ·))
    (hlen : gap'.length + 1 + tail'.length = gap.length + tail.length)
    (hrun : decodeLoop (rounds + 1) (done ++ gap ++ tail) (done.length + gap.length) done.length =
      decodeLoop rounds (done ++ [ch] ++ gap' ++ tail') ((done ++ [ch]).length + gap'.length)
        (done ++ [ch]).length) : Decodes (rounds + 1) done gap tail := by
  refine ⟨fun hnone => ?_, fun s hs => ?_⟩
  · rw [hdecoded, Option.map_eq_none_iff] at hnone
    rw [hrun]
    exact h.leaves hnone
  · rw [hdecoded, Option.map_eq_some_iff] at hs
    obtain ⟨s', hs', rfl⟩ := hs
    obtain ⟨z, slack, hend, hsize⟩ := h.ends s' hs'
    have happend : done ++ [ch] ++ s' = done ++ (ch :: s') := by
      rw [List.append_assoc, List.singleton_append]
    refine ⟨z, slack, ?_, ?_⟩
    · rw [hrun, hend, happend, List.length_append, List.length_singleton, List.length_cons,
        Nat.add_assoc, Nat.add_comm 1]
    · rw [← happend, hsize]
      simp only [List.length_append, List.length_singleton]
      omega

/-- What was read last becomes a part of the gap, of which a cell is written. -/
theorem exists_gap (gap : List UInt8) (c : UInt8) (cs : List UInt8) :
    ∃ g gap', gap ++ c :: cs = g :: gap' ∧ gap'.length = gap.length + cs.length := by
  cases gap with
  | nil => exact ⟨c, cs, rfl, (Nat.zero_add _).symm⟩
  | cons g gap =>
    refine ⟨g, gap ++ c :: cs, rfl, ?_⟩
    rw [List.length_append, List.length_cons, List.length_cons]
    omega

/-- **Decoding in place** does what decoding of the array does. -/
theorem decodeLoop_eq : ∀ (rounds : Nat) (done gap tail : List UInt8), tail.length < rounds →
    Decodes rounds done gap tail
  | 0, _, _, _, h => absurd h (Nat.not_lt_zero _)
  | rounds + 1, done, gap, [], _ => by
      refine ⟨fun _ => ?_, fun s hs => by cases hs⟩
      have hnone : (done ++ gap ++ [])[done.length + gap.length]? = none := by
        rw [List.append_nil, List.getElem?_eq_none_iff, List.length_append]
      rw [decodeLoop, hnone]
      rfl
  | rounds + 1, done, gap, c :: tail, h => by
      have hread := getElem?_src done gap c tail rfl
      by_cases hnul : c = 0
      · -- the end of the string
        have hempty : decoded (c :: tail) = some [] := by
          cases tail with
          | nil => exact if_pos hnul
          | cons c' tail => rw [decoded, if_pos hnul]
        refine ⟨fun hnone => ?_, fun s hs => ?_⟩
        · rw [hempty] at hnone
          cases hnone
        · rw [hempty] at hs
          cases hs
          obtain ⟨z, slack, hz, -⟩ := exists_gap gap c tail
          refine ⟨z, slack, ?_, ?_⟩
          · rw [decodeLoop, hread, List.append_nil, ← hz, ← List.append_assoc]
            exact if_pos hnul
          · rw [List.append_nil, ← hz, ← List.append_assoc]
      by_cases hmark : c = byte '\\'
      · -- an escape
        subst hmark
        cases tail with
        | nil =>
          have hnone : (done ++ gap ++ [byte '\\'])[done.length + gap.length + 1]? = none := by
            rw [List.getElem?_eq_none_iff, List.length_append, List.length_append,
              List.length_singleton]
          refine ⟨fun _ => ?_, fun s hs => by cases hs⟩
          rw [decodeLoop, hread, checked_some, ok_bind, if_neg hnul, if_pos rfl]
          dsimp only
          rw [hnone]
          rfl
        | cons c' tail =>
          obtain ⟨g, gap', hg, hlen⟩ := exists_gap gap (byte '\\') [c']
          have hbuf : done ++ gap ++ byte '\\' :: c' :: tail = done ++ g :: gap' ++ tail := by
            rw [← hg]
            simp
          have hletter : (done ++ gap ++ byte '\\' :: c' :: tail)[done.length + gap.length + 1]? =
              some c' := by
            have hread' := getElem?_src done (gap ++ [byte '\\']) c' tail
              (show done.length + gap.length + 1 = _ by
                rw [List.length_append, List.length_singleton, Nat.add_assoc])
            rw [← hread']
            simp
          have hsrc : done.length + gap.length + 1 + 1 =
              (done ++ [escapeValue c']).length + gap'.length := by
            rw [hlen, List.length_append, List.length_singleton, List.length_singleton]
            omega
          refine (decodeLoop_eq rounds (done ++ [escapeValue c']) gap' tail ?_).step
            (by rw [decoded, if_neg hnul, if_pos rfl]) ?_ ?_
          · rw [List.length_cons, List.length_cons] at h
            omega
          · rw [hlen, List.length_singleton, List.length_cons, List.length_cons]
            omega
          · rw [decodeLoop, hread, checked_some, ok_bind, if_neg hnul, if_pos rfl]
            dsimp only
            rw [hletter, checked_some, ok_bind, hbuf, store_dest, checked_some, ok_bind, hsrc,
              List.length_append, List.length_singleton]
      · -- a character that stands for itself
        obtain ⟨g, gap', hg, hlen⟩ := exists_gap gap c []
        have hbuf : done ++ gap ++ c :: tail = done ++ g :: gap' ++ tail := by
          rw [← hg]
          simp
        have hsrc : done.length + gap.length + 1 = (done ++ [c]).length + gap'.length := by
          rw [hlen, List.length_append, List.length_singleton, List.length_nil]
          omega
        refine (decodeLoop_eq rounds (done ++ [c]) gap' tail ?_).step (decoded_char hnul hmark tail)
          ?_ ?_
        · exact Nat.lt_of_succ_lt_succ h
        · rw [hlen, List.length_nil, List.length_cons]
          omega
        · rw [decodeLoop, hread, checked_some, ok_bind, if_neg hnul, if_neg hmark, hbuf, store_dest,
            checked_some, ok_bind, hsrc, List.length_append, List.length_singleton]

/-- A text without the line end behind it. -/
def trimmed (s : List UInt8) : List UInt8 :=
  if s.getLast? = some (byte '\n') ∨ s.getLast? = some (byte '\r') then s.dropLast else s

section Load

variable {history : History} {buf : List UInt8}

/-- What ends with a mark is read beyond the array. -/
theorem loadLine_leaves (h : decoded buf = none) :
    loadLine history buf = .error (.outside .buf) := by
  have hloop := (decodeLoop_eq (buf.length + 1) [] [] buf (Nat.lt_succ_self _)).leaves h
  have hloop : decodeLoop (buf.length + 1) buf 0 0 = .error (.outside .buf) := hloop
  rw [loadLine, hloop]
  rfl

/-- **A piece**: what is decoded is added without its line end, up to the first NUL. -/
theorem loadLine_ends (hpos : 0 < history.max_len) (hfits : history.lines.length ≤ history.max_len)
    {s : List UInt8} (h : decoded buf = some s) :
    ∃ buf', loadLine history buf =
        .ok ({ history with lines := history.added ((trimmed s).takeWhile (· ≠ 0)) }, buf') ∧
      buf'.length = buf.length := by
  obtain ⟨z, slack, hloop, hlen⟩ :=
    (decodeLoop_eq (buf.length + 1) [] [] buf (Nat.lt_succ_self _)).ends s h
  have hloop : decodeLoop (buf.length + 1) buf 0 0 = .ok (s ++ z :: slack, 0 + s.length) := hloop
  have hlen : (s ++ z :: slack).length = buf.length := hlen
  rw [Nat.zero_add] at hloop
  -- the terminating NUL, wherever the text ends
  have hend : ∀ t x xs, s ++ z :: slack = t ++ x :: xs →
      ∃ buf', (do
          let buf ← checked .buf (store (s ++ z :: slack) (t.length : Nat) [0])
          let line ← checked .buf (cString 0 buf)
          let (_, history) ← linenoiseHistoryAdd history line
          pure (history, buf) : Checked (History × List UInt8)) =
        .ok ({ history with lines := history.added (t.takeWhile (· ≠ 0)) }, buf') ∧
      buf'.length = buf.length := by
    intro t x xs heq
    have hstore : store (s ++ z :: slack) t.length [0] = some (t ++ 0 :: xs) := by
      have := store_append t [x] xs [0] rfl
      rw [heq]
      simpa using this
    obtain ⟨ret, hadd⟩ := linenoiseHistoryAdd_added hpos hfits (t.takeWhile (· ≠ 0))
    refine ⟨t ++ 0 :: xs, ?_, ?_⟩
    · rw [hstore, checked_some, ok_bind, cString_text, checked_some, ok_bind, hadd]
      rfl
    · rw [← hlen, heq, List.length_append, List.length_append]
      rfl
  rw [loadLine, hloop, ok_bind]
  rcases List.eq_nil_or_concat s with rfl | ⟨t, c, rfl⟩
  · exact hend [] z slack rfl
  · rw [List.concat_eq_append] at *
    have hne : ¬ (t ++ [c]).length = 0 := by simp
    have hlast : (t ++ [c] ++ z :: slack)[(t ++ [c]).length - 1]? = some c := by simp
    simp only [if_neg hne, hlast, checked_some, ok_bind]
    simp only [trimmed, List.getLast?_concat, Option.some.injEq, List.dropLast_concat]
    rw [show (pure (decide (c = byte '\n' ∨ c = byte '\r')) : Checked Bool) = .ok _ from rfl,
      ok_bind]
    by_cases htrail : c = byte '\n' ∨ c = byte '\r'
    · simp only [decide_eq_true htrail, if_pos htrail, if_true, List.length_append,
        List.length_singleton, Nat.add_sub_cancel]
      exact hend t c (z :: slack) (by simp)
    · simp only [decide_eq_false htrail, if_neg htrail]
      exact hend (t ++ [c]) z slack rfl

end Load

/-! ## Text files -/

/-- The letters of the escapes. -/
def escapeLetter (c : UInt8) : Option UInt8 :=
  if c = byte '\\' then some (byte '\\')
  else if c = byte '\n' then some (byte 'n')
  else if c = byte '\r' then some (byte 'r')
  else none

/-- The characters that are saved with an escape. -/
theorem escapeLetter_iff (c : UInt8) :
    escapeLetter c ≠ none ↔ c = byte '\\' ∨ c = byte '\n' ∨ c = byte '\r' := by
  rw [escapeLetter]
  split
  · next hc => exact iff_of_true (Option.some_ne_none _) (.inl hc)
  split
  · next hc => exact iff_of_true (Option.some_ne_none _) (.inr (.inl hc))
  split
  · next hc => exact iff_of_true (Option.some_ne_none _) (.inr (.inr hc))
  · next hmark hnl hcr =>
    exact iff_of_false (fun h => h rfl) fun h => h.elim hmark fun h => h.elim hnl hcr

/-- The code of the history file. -/
def historyCode : EscapeCode UInt8 where
  mark := byte '\\'
  letter := escapeLetter
  value := escapeValue
  letter_mark := by decide
  value_letter := by
    intro c l h
    rw [escapeLetter] at h
    split at h
    · next hc =>
      cases h
      exact hc.symm
    split at h
    · next hc =>
      cases h
      exact hc.symm
    split at h
    · next hc =>
      cases h
      exact hc.symm
    · cases h

/-- A string that does not end with a mark is decoded up to its NUL, whatever stands behind it. -/
theorem decoded_string {xs s : List UInt8} (hnul : 0 ∉ xs) (h : historyCode.decode xs = some s)
    (slack : List UInt8) : decoded (xs ++ 0 :: slack) = some s := by
  induction xs using EscapeCode.decode.induct historyCode generalizing s with
  | case1 =>
    cases h
    cases slack <;> rfl
  | case2 =>
    rw [EscapeCode.decode, if_pos rfl] at h
    cases h
  | case3 c hc =>
    have hne : c ≠ 0 := fun heq => hnul (heq ▸ List.mem_cons_self)
    rw [EscapeCode.decode, if_neg hc] at h
    cases h
    show decoded (c :: 0 :: slack) = _
    rw [decoded_char hne hc]
    cases slack <;> rfl
  | case4 c' cs ih =>
    rw [EscapeCode.decode_mark] at h
    obtain ⟨s', hs', rfl⟩ := Option.map_eq_some_iff.mp h
    simp only [List.mem_cons, not_or] at hnul
    show decoded (byte '\\' :: c' :: (cs ++ 0 :: slack)) = _
    rw [decoded, if_neg (by decide), if_pos rfl, ih hnul.2.2 hs']
    rfl
  | case5 c c' cs hc ih =>
    rw [EscapeCode.decode_cons hc] at h
    obtain ⟨s', hs', rfl⟩ := Option.map_eq_some_iff.mp h
    rw [List.mem_cons, not_or] at hnul
    show decoded (c :: (c' :: cs ++ 0 :: slack)) = _
    rw [decoded_char (Ne.symm hnul.1) hc, ih hnul.2 hs']
    rfl

/-- A mark in front of the NUL that ends the array leads out of it. -/
theorem decoded_cut {xs : List UInt8} (hnul : 0 ∉ xs) (h : historyCode.decode xs = none) :
    decoded (xs ++ [0]) = none := by
  induction xs using EscapeCode.decode.induct historyCode with
  | case1 => cases h
  | case2 => rfl
  | case3 c hc =>
    rw [EscapeCode.decode, if_neg hc] at h
    cases h
  | case4 c' cs ih =>
    rw [EscapeCode.decode_mark] at h
    simp only [List.mem_cons, not_or] at hnul
    show decoded (byte '\\' :: c' :: (cs ++ [0])) = _
    rw [decoded, if_neg (by decide), if_pos rfl, ih hnul.2.2 (Option.map_eq_none_iff.mp h)]
    rfl
  | case5 c c' cs hc ih =>
    rw [EscapeCode.decode_cons hc] at h
    rw [List.mem_cons, not_or] at hnul
    show decoded (c :: (c' :: cs ++ [0])) = _
    rw [decoded_char (Ne.symm hnul.1) hc, ih hnul.2 (Option.map_eq_none_iff.mp h)]
    rfl

/-- The entry that a piece of a file gives; nothing, if it ends with a mark. -/
def entryOf (piece : List UInt8) : Option (List UInt8) := (historyCode.decode piece).map trimmed

/-- The entries of a file. -/
def entries (file : List UInt8) : Option (List (List UInt8)) :=
  (Chunks.chunks (byte '\n') (LINENOISE_MAX_LINE - 1) file).mapM entryOf

/-- No escape stands for a NUL. -/
theorem escapeValue_ne_nul (c : UInt8) (hc : c ≠ 0) : escapeValue c ≠ 0 := by
  rw [escapeValue]
  split
  · decide
  split
  · decide
  · exact hc

/-- Without a NUL, the C string is all of it. -/
theorem takeWhile_trimmed {s : List UInt8} (h : 0 ∉ s) :
    (trimmed s).takeWhile (· ≠ 0) = trimmed s := by
  have hnul : 0 ∉ trimmed s := by
    rw [trimmed]
    split
    · exact fun hin => h (List.dropLast_subset _ hin)
    · exact h
  exact takeWhile_of_not_mem hnul

/-- A text file: no NULs, and every line has its end. -/
structure TextFile (fp : List UInt8) : Prop where
  string : 0 ∉ fp
  ends : fp = [] ∨ fp.getLast? = some (byte '\n')

/-- The rest of a text file behind a piece is one. -/
theorem TextFile.rest {fp : List UInt8} (h : TextFile fp) (room : Nat) :
    TextFile (Chunks.rest (byte '\n') room fp) := by
  have hsplit := Chunks.chunk_append_rest (byte '\n') room fp
  refine ⟨fun hin => h.string (List.mem_of_mem_drop hin), ?_⟩
  rcases List.eq_nil_or_concat (Chunks.rest (byte '\n') room fp) with hnil | ⟨ys, y, hys⟩
  · exact .inl hnil
  · refine .inr ?_
    rcases h.ends with rfl | hlast
    · rw [List.append_eq_nil_iff] at hsplit
      rw [hsplit.2] at hys
      simp at hys
    · rw [← hsplit, hys, List.concat_eq_append, ← List.append_assoc, List.getLast?_concat] at hlast
      rw [hys, List.concat_eq_append, List.getLast?_concat]
      exact hlast

/-- Only a piece that fills the array can end with a mark. -/
theorem TextFile.chunk_full {fp : List UInt8} (h : TextFile fp) {room : Nat}
    (hmark : historyCode.decode (Chunks.chunk (byte '\n') room fp) = none) :
    (Chunks.chunk (byte '\n') room fp).length = room := by
  have hlast := EscapeCode.getLast?_of_decode hmark
  have hne : ¬ some (byte '\n') = some historyCode.mark := by decide
  refine Nat.le_antisymm (Chunks.length_chunk_le _ _ _) (Nat.le_of_not_lt fun hlt => ?_)
  rcases Chunks.chunk_short hlt with hstop | hrest
  · exact hne (hstop.symm.trans hlast)
  · have hall := Chunks.chunk_append_rest (byte '\n') room fp
    rw [hrest, List.append_nil] at hall
    rcases h.ends with hnil | hstop
    · rw [hall, hnil] at hlast
      cases hlast
    · rw [hall] at hlast
      exact hne (hstop.symm.trans hlast)

section Load

variable {history : History} {buf : List UInt8}

/-- **The loop over the pieces**, by the length of the file. -/
theorem loadLoop_text {fp : List UInt8} (h : TextFile fp) : ∀ (history : History) (buf : List UInt8)
    (rounds : Nat), 0 < history.max_len → history.lines.length ≤ history.max_len →
    buf.length = LINENOISE_MAX_LINE → fp.length < rounds → loadLoop rounds history buf fp =
      (entries fp).elim (.error (.outside .buf)) fun lines =>
        .ok { history with
          lines := lines.foldl (BoundedLog.push history.max_len) history.lines } := by
  have hroom : 0 < LINENOISE_MAX_LINE - 1 := by decide
  induction fp using Chunks.chunks_rule (byte '\n') hroom with
  | nil =>
    intro history buf rounds hpos hfits hbuf hrounds
    obtain ⟨rounds, rfl⟩ := Nat.exists_eq_succ_of_ne_zero (Nat.ne_zero_of_lt hrounds)
    rfl
  | more fp hne ih =>
    intro history buf rounds hpos hfits hbuf hrounds
    obtain ⟨rounds, rfl⟩ := Nat.exists_eq_succ_of_ne_zero (Nat.ne_zero_of_lt hrounds)
    obtain ⟨slack, hlen, hread⟩ :=
      Chunks.fgets_eq (byte '\n') 0 (Nat.le_of_eq hbuf.symm) (by decide) hne
    have hless := Chunks.length_rest_lt (byte '\n') hroom hne
    have hnul : 0 ∉ Chunks.chunk (byte '\n') (LINENOISE_MAX_LINE - 1) fp := fun hin =>
      h.string (Chunks.chunk_append_rest (byte '\n') (LINENOISE_MAX_LINE - 1) fp ▸
        List.mem_append_left _ hin)
    rw [loadLoop, hread, checked_some, ok_bind, entries, Chunks.chunks_eq _ hroom hne,
      List.mapM_cons, entryOf]
    cases hdecode : historyCode.decode (Chunks.chunk (byte '\n') (LINENOISE_MAX_LINE - 1) fp) with
    | none =>
      -- the NUL is the last cell of the array
      have hfull := h.chunk_full hdecode
      have hslack : slack = [] := by
        rw [List.length_append, List.length_cons, hfull, hbuf] at hlen
        exact List.length_eq_zero_iff.mp (by simp only [LINENOISE_MAX_LINE] at hlen; omega)
      subst hslack
      show (loadLine history _ >>= _) = _
      rw [loadLine_leaves (decoded_cut hnul hdecode)]
      rfl
    | some s =>
      have hs : 0 ∉ s := EscapeCode.not_mem_decode escapeValue_ne_nul hdecode hnul
      obtain ⟨buf', hline, hbuf'⟩ :=
        loadLine_ends hpos hfits (decoded_string hnul hdecode slack)
      rw [takeWhile_trimmed hs] at hline
      have hnext := ih (h.rest _) { history with lines := history.added (trimmed s) } buf' rounds
        hpos (History.length_added hpos hfits _) (hbuf'.trans (hlen.trans hbuf)) (by omega)
      show (loadLine history _ >>= _) = _
      rw [hline, ok_bind]
      refine hnext.trans ?_
      rw [entries]
      cases List.mapM entryOf _ with
      | none => rfl
      | some lines => rfl

/-- **Loading a text file**: each piece of it is added to the history, without its escapes and its
    line end; unless one ends with a mark, which leads out of the array. -/
theorem linenoiseHistoryLoad_text {fp : List UInt8} (h : TextFile fp) (hpos : 0 < history.max_len)
    (hfits : history.lines.length ≤ history.max_len) (hbuf : buf.length = LINENOISE_MAX_LINE) :
    (linenoiseHistoryLoad history buf (some fp) = .error (.outside .buf) ↔ entries fp = none) ∧
    ∀ lines, entries fp = some lines → linenoiseHistoryLoad history buf (some fp) =
      .ok (0, { history with
        lines := lines.foldl (BoundedLog.push history.max_len) history.lines }) := by
  have hload := loadLoop_text h history buf (fp.length + 1) hpos hfits hbuf (Nat.lt_succ_self _)
  rw [linenoiseHistoryLoad, hload]
  cases entries fp with
  | none => exact ⟨⟨fun _ => rfl, fun _ => rfl⟩, fun lines heq => (by cases heq)⟩
  | some lines =>
    refine ⟨⟨fun heq => (by cases heq), fun heq => (by cases heq)⟩, fun lines' heq => ?_⟩
    cases heq
    rfl

end Load

/-- An escape, and a line that is empty. -/
theorem linenoiseHistoryLoad_text_two : linenoiseHistoryLoad .initial (List.replicate 4096 0)
    (some [byte 'a', byte '\\', byte 'r', byte 'b', byte '\n', byte '\n']) =
      .ok (0, ⟨[[byte 'a', byte '\r', byte 'b'], []], 100⟩) :=
  (linenoiseHistoryLoad_text ⟨by decide, by decide⟩ (by decide) (Nat.zero_le _)
    List.length_replicate).2 [[byte 'a', byte '\r', byte 'b'], []] (by decide)

/-! ## The round trip -/

/-- What is written for some entries. -/
def saved (lines : List (List UInt8)) : List UInt8 :=
  (lines.map historyCode.encodeAll).flatMap (· ++ [byte '\n'])

/-- What is saved of a character is its code. -/
theorem savedChar_eq (c : UInt8) : savedChar c = historyCode.encode c := by
  have hletter : historyCode.letter c = escapeLetter c := rfl
  rw [escapeLetter] at hletter
  rw [savedChar]
  by_cases hmark : c = byte '\\'
  · rw [if_pos hmark] at hletter ⊢
    rw [EscapeCode.encode_some hletter]
    rfl
  rw [if_neg hmark] at hletter ⊢
  by_cases hnl : c = byte '\n'
  · rw [if_pos hnl] at hletter ⊢
    rw [EscapeCode.encode_some hletter]
    rfl
  rw [if_neg hnl] at hletter ⊢
  by_cases hcr : c = byte '\r'
  · rw [if_pos hcr] at hletter ⊢
    rw [EscapeCode.encode_some hletter]
    rfl
  rw [if_neg hcr] at hletter ⊢
  exact (EscapeCode.encode_none hletter).symm

/-- The file that is written. -/
theorem linenoiseHistorySave_saved (history : History) (file : Option (List UInt8)) :
    linenoiseHistorySave history true file = (0, some (saved history.lines)) := by
  rw [linenoiseHistorySave, if_pos rfl, saved, List.flatMap_map, funext savedChar_eq]
  rfl

/-- The line ends in an entry are escaped. -/
theorem newline_not_mem_encodeAll (line : List UInt8) :
    byte '\n' ∉ historyCode.encodeAll line := by
  intro hin
  rcases EscapeCode.mem_encodeAll hin with heq | ⟨c, hc⟩ | ⟨-, hnone⟩
  · exact absurd heq (by decide)
  · have hvalue := historyCode.value_letter c _ hc
    have hc' : c = byte '\n' := hvalue.symm
    rw [hc'] at hc
    exact absurd hc (by decide)
  · exact absurd hnone (by decide)

/-- The code brings in no NUL. -/
theorem nul_not_mem_encodeAll {line : List UInt8} (h : 0 ∉ line) :
    0 ∉ historyCode.encodeAll line := by
  intro hin
  rcases EscapeCode.mem_encodeAll hin with heq | ⟨c, hc⟩ | ⟨hin, -⟩
  · exact absurd heq (by decide)
  · have hvalue := historyCode.value_letter c _ hc
    have hc' : c = 0 := hvalue.symm
    rw [hc'] at hc
    exact absurd hc (by decide)
  · exact h hin

/-- A saved history is a text file. -/
theorem textFile_saved {lines : List (List UInt8)} (h : ∀ line ∈ lines, 0 ∉ line) :
    TextFile (saved lines) := by
  refine ⟨fun hin => ?_, ?_⟩
  · obtain ⟨text, htext, hnul⟩ := List.mem_flatMap.mp hin
    obtain ⟨line, hline, rfl⟩ := List.mem_map.mp htext
    rcases List.mem_append.mp hnul with hnul | hnul
    · exact nul_not_mem_encodeAll (h line hline) hnul
    · exact absurd (List.mem_singleton.mp hnul) (by decide)
  · rcases List.eq_nil_or_concat lines with rfl | ⟨ys, y, rfl⟩
    · exact .inl rfl
    · refine .inr ?_
      rw [saved, List.concat_eq_append, List.map_append, List.flatMap_append, List.map_singleton,
        List.flatMap_singleton, ← List.append_assoc, List.getLast?_concat]

/-- A line of it is read as the entry. -/
theorem entryOf_saved (line : List UInt8) :
    entryOf (historyCode.encodeAll line ++ [byte '\n']) = some line := by
  have hend : historyCode.decode [byte '\n'] = some [byte '\n'] := rfl
  rw [entryOf, EscapeCode.decode_encodeAll_append, hend, Option.map_some, Option.map_some, trimmed,
    List.getLast?_concat, if_pos (.inl rfl), List.dropLast_concat]

/-- There is a result for each element. -/
theorem length_of_mapM {α β : Type} {f : α → Option β} : ∀ {xs : List α} {ys : List β},
    xs.mapM f = some ys → ys.length = xs.length
  | [], ys, h => by
      cases h
      rfl
  | x :: xs, ys, h => by
      rw [List.mapM_cons] at h
      obtain ⟨y, -, h⟩ := Option.bind_eq_some_iff.mp h
      obtain ⟨ys', hys', h⟩ := Option.bind_eq_some_iff.mp h
      cases h
      rw [List.length_cons, List.length_cons, length_of_mapM hys']

/-- **The round trip**: the entries of the file are the ones that were saved, exactly if none of
    them with its escapes is longer than what is read at once. -/
theorem entries_saved_iff (lines : List (List UInt8)) : entries (saved lines) = some lines ↔
    ∀ line ∈ lines, (historyCode.encodeAll line).length < LINENOISE_MAX_LINE - 1 := by
  have hstop : ∀ text ∈ lines.map historyCode.encodeAll, byte '\n' ∉ text := by
    intro text hin
    obtain ⟨line, -, rfl⟩ := List.mem_map.mp hin
    exact newline_not_mem_encodeAll line
  constructor
  · intro h line hin
    have hlen := length_of_mapM h
    have hroom : 0 < LINENOISE_MAX_LINE - 1 := by decide
    obtain ⟨-, hfits⟩ := Chunks.length_chunks_lines hroom hstop
    exact hfits (by rw [List.length_map, hlen]; rfl) _ (List.mem_map_of_mem hin)
  · intro h
    have hpieces : Chunks.chunks (byte '\n') (LINENOISE_MAX_LINE - 1) (saved lines) =
        (lines.map historyCode.encodeAll).map (· ++ [byte '\n']) := by
      refine Chunks.chunks_lines fun text hin => ⟨hstop text hin, ?_⟩
      obtain ⟨line, hline, rfl⟩ := List.mem_map.mp hin
      exact h line hline
    rw [entries, hpieces, List.map_map]
    clear hpieces hstop h
    induction lines with
    | nil => rfl
    | cons line lines ih =>
      rw [List.map_cons, List.mapM_cons, ih, Function.comp_apply, entryOf_saved]
      rfl

/-- A piece gives an entry, and then the rest does. -/
theorem mapM_entryOf_cons (piece : List UInt8) (pieces : List (List UInt8)) :
    (piece :: pieces).mapM entryOf = none ↔
      historyCode.decode piece = none ∨ pieces.mapM entryOf = none := by
  rw [List.mapM_cons, entryOf]
  cases historyCode.decode piece with
  | none => exact iff_of_true rfl (.inl rfl)
  | some s =>
    cases pieces.mapM entryOf with
    | none => exact iff_of_true rfl (.inr rfl)
    | some lines =>
      exact iff_of_false (fun heq => by cases heq) fun heq =>
        heq.elim (fun h => by cases h) fun h => by cases h

/-- The pieces of a saved entry: it is cut once, at most. -/
theorem entries_line {line : List UInt8} (hline : line.length < LINENOISE_MAX_LINE)
    (fp : List UInt8) : entries (historyCode.encodeAll line ++ byte '\n' :: fp) = none ↔
      historyCode.decode ((historyCode.encodeAll line).take (LINENOISE_MAX_LINE - 1)) = none ∨
        entries fp = none := by
  have hroom : 0 < LINENOISE_MAX_LINE - 1 := by decide
  have hstop := newline_not_mem_encodeAll line
  have hlen : (historyCode.encodeAll line).length ≤ 2 * (LINENOISE_MAX_LINE - 1) :=
    Nat.le_trans (EscapeCode.length_encodeAll_le line) (by omega)
  have hall := EscapeCode.decode_encodeAll (k := historyCode) line
  generalize historyCode.encodeAll line = text at *
  have hend : ∀ text s, historyCode.decode text = some s →
      historyCode.decode (text ++ [byte '\n']) ≠ none := by
    intro text s h heq
    rw [EscapeCode.decode_append h] at heq
    cases heq
  by_cases hshort : text.length < LINENOISE_MAX_LINE - 1
  · rw [entries, Chunks.chunks_line hstop hshort, mapM_entryOf_cons,
      List.take_of_length_le (Nat.le_of_lt hshort), hall]
    refine ⟨fun h => .inr (h.resolve_left (hend text line hall)), fun h => ?_⟩
    exact h.elim (fun h => by cases h) .inr
  · rw [entries, Chunks.chunks_cut hroom hstop (Nat.le_of_not_lt hshort), mapM_entryOf_cons]
    have hsplit := List.take_append_drop (LINENOISE_MAX_LINE - 1) text
    cases hcut : historyCode.decode (text.take (LINENOISE_MAX_LINE - 1)) with
    | none => exact iff_of_true (.inl rfl) (.inl rfl)
    | some s =>
      -- the second part begins with a character
      rw [← hsplit, EscapeCode.decode_append hcut, Option.map_eq_some_iff] at hall
      obtain ⟨s', hs', -⟩ := hall
      have hstop' : byte '\n' ∉ text.drop (LINENOISE_MAX_LINE - 1) := fun hin =>
        hstop (List.mem_of_mem_drop hin)
      have hlen' : (text.drop (LINENOISE_MAX_LINE - 1)).length ≤ LINENOISE_MAX_LINE - 1 := by
        rw [List.length_drop]
        omega
      generalize text.drop (LINENOISE_MAX_LINE - 1) = more at *
      simp only [reduceCtorEq, false_or]
      by_cases hfits : more.length < LINENOISE_MAX_LINE - 1
      · rw [Chunks.chunks_line hstop' hfits, mapM_entryOf_cons, or_iff_right (hend more s' hs')]
        rfl
      · have hnewline : Chunks.chunks (byte '\n') (LINENOISE_MAX_LINE - 1) (byte '\n' :: fp) =
            ([] ++ [byte '\n']) :: Chunks.chunks (byte '\n') (LINENOISE_MAX_LINE - 1) fp :=
          Chunks.chunks_line List.not_mem_nil hroom fp
        rw [Chunks.chunks_cut hroom hstop' (Nat.le_of_not_lt hfits), mapM_entryOf_cons,
          List.take_of_length_le hlen', hs', List.drop_of_length_le hlen', List.nil_append,
          hnewline,
          mapM_entryOf_cons, or_iff_right (fun heq => by cases heq),
          or_iff_right (hend [] [] rfl)]
        rfl

/-- **When loading leaves the array**, entry by entry. -/
theorem entries_saved_none : ∀ {lines : List (List UInt8)},
    (∀ line ∈ lines, line.length < LINENOISE_MAX_LINE) → (entries (saved lines) = none ↔
      ∃ line ∈ lines,
        historyCode.decode ((historyCode.encodeAll line).take (LINENOISE_MAX_LINE - 1)) = none)
  | [], _ => by
      refine iff_of_false (fun heq => by cases heq) ?_
      rintro ⟨line, hin, -⟩
      cases hin
  | line :: lines, h => by
      have hcons : saved (line :: lines) =
          historyCode.encodeAll line ++ byte '\n' :: saved lines := by
        rw [saved, List.map_cons, List.flatMap_cons, List.append_assoc]
        rfl
      rw [hcons, entries_line (h line List.mem_cons_self), List.exists_mem_cons_iff,
        entries_saved_none fun line' hin => h line' (List.mem_cons_of_mem line hin)]

section Saved

variable {history into : History} {buf : List UInt8}

/-- The code of a line, as the source writes it. -/
theorem encodeAll_eq (line : List UInt8) : historyCode.encodeAll line = line.flatMap savedChar := by
  rw [funext savedChar_eq]
  rfl

/-- **The round trip**: a history whose entries fit is loaded as it was saved, but for repetitions
    and for the entries that there is no room for. -/
theorem linenoiseHistoryLoad_saved (hstrings : ∀ line ∈ history.lines, 0 ∉ line)
    (hshort : ∀ line ∈ history.lines, (line.flatMap savedChar).length < LINENOISE_MAX_LINE - 1)
    (hempty : into.lines = []) (hpos : 0 < into.max_len) (hbuf : buf.length = LINENOISE_MAX_LINE)
    {file file' : Option (List UInt8)} {ret : Int}
    (hsave : linenoiseHistorySave history true file = (ret, file')) :
    linenoiseHistoryLoad into buf file' = .ok (0, { into with
      lines := (history.lines.destutter (· ≠ ·)).rtake into.max_len }) := by
  rw [linenoiseHistorySave_saved] at hsave
  obtain ⟨-, rfl⟩ := Prod.mk.inj hsave
  have hfits : into.lines.length ≤ into.max_len := by
    rw [hempty]
    exact Nat.zero_le _
  obtain ⟨-, hload⟩ := linenoiseHistoryLoad_text (textFile_saved hstrings) hpos hfits hbuf
  have hentries : entries (saved history.lines) = some history.lines := by
    refine (entries_saved_iff _).mpr fun line hin => ?_
    rw [encodeAll_eq]
    exact hshort line hin
  rw [hload _ hentries, hempty, BoundedLog.foldl_push hpos]
  rfl

/-- **When loading leaves its array**: what was saved of an entry is cut after 4095 characters,
    which goes through an escape exactly if 4094 characters stand before it. -/
theorem linenoiseHistoryLoad_saved_overruns_iff (h : history.Sound LINENOISE_MAX_LINE)
    (hpos : 0 < into.max_len) (hfits : into.lines.length ≤ into.max_len)
    (hbuf : buf.length = LINENOISE_MAX_LINE) {file file' : Option (List UInt8)} {ret : Int}
    (hsave : linenoiseHistorySave history true file = (ret, file')) :
    linenoiseHistoryLoad into buf file' = .error (.outside .buf) ↔
      ∃ xs c ys, xs ++ c :: ys ∈ history.lines ∧
        (xs.flatMap savedChar).length = LINENOISE_MAX_LINE - 2 ∧
        (c = byte '\\' ∨ c = byte '\n' ∨ c = byte '\r') := by
  rw [linenoiseHistorySave_saved] at hsave
  obtain ⟨-, rfl⟩ := Prod.mk.inj hsave
  have hshort : ∀ line ∈ history.lines, line.length < LINENOISE_MAX_LINE := by
    intro line hin
    have := h.short line hin
    omega
  rw [(linenoiseHistoryLoad_text (textFile_saved h.strings) hpos hfits hbuf).1,
    entries_saved_none hshort]
  constructor
  · rintro ⟨line, hin, hcut⟩
    obtain ⟨xs, c, ys, rfl, hlen, hletter⟩ := (EscapeCode.decode_take_encodeAll line _).mp hcut
    rw [encodeAll_eq] at hlen
    exact ⟨xs, c, ys, hin, by omega, (escapeLetter_iff c).mp hletter⟩
  · rintro ⟨xs, c, ys, hin, hlen, hc⟩
    refine ⟨_, hin, (EscapeCode.decode_take_encodeAll _ _).mpr
      ⟨xs, c, ys, rfl, ?_, (escapeLetter_iff c).mpr hc⟩⟩
    rw [encodeAll_eq, hlen]
    rfl

end Saved

/-- A line with a line end in it, and one without its end. -/
def aHistory : History := ⟨[[byte 'a', byte '\\', byte '\n'], [byte 'b'], [byte 'b']], 100⟩

/-- Two of the three entries are the same, and an escape is needed. -/
theorem linenoiseHistoryLoad_saved_aHistory :
    linenoiseHistoryLoad .initial (List.replicate 4096 0)
      (linenoiseHistorySave aHistory true none).2 =
      .ok (0, ⟨[[byte 'a', byte '\\', byte '\n'], [byte 'b']], 100⟩) :=
  linenoiseHistoryLoad_saved (by decide) (by decide) rfl (by decide) List.length_replicate
    (show linenoiseHistorySave aHistory true none = (0, _) from rfl)

/-- An entry that is cut inside of an escape. -/
def aLongHistory : History := ⟨[List.replicate 4094 (byte 'a') ++ [byte '\\']], 100⟩

/-- It is as long as the editor allows. -/
theorem aLongHistory_sound : aLongHistory.Sound LINENOISE_MAX_LINE where
  pos := by decide
  fits := by decide
  strings := by
    intro line hin hnul
    rw [List.mem_singleton.mp hin, List.mem_append, List.mem_replicate, List.mem_singleton] at hnul
    exact hnul.elim (fun h => absurd h.2 (by decide)) fun h => absurd h (by decide)
  short := by
    intro line hin
    rw [List.mem_singleton.mp hin, List.length_append, List.length_replicate]
    decide

/-- The two bytes of its backslash come in two pieces. -/
theorem linenoiseHistoryLoad_saved_overruns_aLongHistory :
    linenoiseHistoryLoad .initial (List.replicate 4096 0)
      (linenoiseHistorySave aLongHistory true none).2 = .error (.outside .buf) := by
  refine (linenoiseHistoryLoad_saved_overruns_iff aLongHistory_sound (by decide) (Nat.zero_le _)
    List.length_replicate (show linenoiseHistorySave aLongHistory true none = (0, _) from rfl)).mpr
    ⟨List.replicate 4094 (byte 'a'), byte '\\', [], List.mem_singleton.mpr rfl, ?_, .inl rfl⟩
  have hchar : savedChar (byte 'a') = [byte 'a'] := by decide
  rw [List.flatMap_replicate, hchar, List.length_flatten, List.map_replicate,
    List.sum_replicate_nat]
  rfl


end Linenoise

end FepControl
