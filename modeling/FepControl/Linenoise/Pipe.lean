/-
  The command line front end without a terminal: `linenoise` reads the standard input with `fgets`.

  This is how the tool is run in scripts: `fep_control < script`.  There is no editing, and no
  screen; but there is the array of 4096 bytes, and a line that is longer comes in pieces, each of
  which is a command.

  1. **The source** -- the branch of `linenoise` where there is no raw mode, and the loop over it.
     The loop is the one of the terminal, with the standard input as its state in place of keys.

  2. **The lines** -- the pieces that are read at once, without their line ends and up to their
     first NUL (`pipedLines`).  A line that does not fit is more than one of them; a script of lines
     that do fit is just these lines (`pipedLines_script`).

  3. **The simulation** -- whatever comes, the loop processes these lines as `readInputFromSource`
     does that is given them, and ends with the input at the latest (`readInputFromPipe_eq`).  The
     induction is on the pieces, and each of them is read without leaving the array
     (`linenoisePiped_eq`).
-/
import FepControl.Lib.Chunks
import FepControl.Linenoise.Console

namespace FepControl

namespace Linenoise

open Lib

variable {W : Type}

/-! ## The source -/

/-- `linenoise` without a raw mode: `errno` is `ENOTTY`. -/
def linenoisePiped (buf stdin : List UInt8) : Checked (Line × List UInt8) := do
  match ← checked .buf (Chunks.fgets (byte '\n') 0 buf LINENOISE_MAX_LINE stdin) with
  | none => pure (.null false, stdin)
  | some (buf, stdin) => do
    let s ← checked .buf (cString 0 buf)
    let count := s.length
    let buf ←
      if count = 0 then pure buf
      else do
        let last ← checked .buf buf[count - 1]?
        if last = byte '\n' then checked .buf (store buf (count - 1 : Nat) [0]) else pure buf
    let s ← checked .buf (cString 0 buf)
    pure (.line s, stdin)

/-- The process, as the loop sees it. -/
structure Piped (W : Type) where
  machine : Machine W
  history : History
  stdin : List UInt8

variable (stack : Nat → List UInt8) (env : Env W)

/-- `readInputFromSource`, for a number of lines at most; `stack` is what each call of `linenoise`
    finds in its array. -/
def readInputFromPipe : (rounds : Nat) → Piped W → Checked (Outcome String Stop Unit × Piped W)
  | 0, _ => throw .unfinished
  | rounds + 1, piped => do
    let (strLine, stdin) ← linenoisePiped (stack rounds) piped.stdin
    let piped := { piped with stdin }
    match readLine strLine with
    | none => pure (.ok (), piped)
    | some line =>
      let lineTokens := parseLine (stringOf line)
      if lineTokens.isEmpty then readInputFromPipe rounds piped
      else do
        let (_, history) ← linenoiseHistoryAdd piped.history line
        let (outcome, machine) := commandLineRound lineTokens env piped.machine
        let piped := { piped with machine, history }
        match outcome with
        | .ok () => readInputFromPipe rounds piped
        | outcome => pure (outcome, piped)

/-! ## The lines -/

/-- The line of a piece. -/
def pieceLine (piece : List UInt8) : List UInt8 :=
  let s := piece.takeWhile (· ≠ 0)
  if s.getLast? = some (byte '\n') then s.dropLast else s

/-- The lines of the input, as the tool takes them. -/
def pipedLines (stdin : List UInt8) : List (List UInt8) :=
  (Chunks.chunks (byte '\n') (LINENOISE_MAX_LINE - 1) stdin).map pieceLine

/-- A line without NULs that is read at once is a line. -/
theorem pieceLine_line {line : List UInt8} (hnul : 0 ∉ line) :
    pieceLine (line ++ [byte '\n']) = line := by
  have hclean : (line ++ [byte '\n']).takeWhile (· ≠ 0) = line ++ [byte '\n'] := by
    refine takeWhile_of_not_mem fun hin => ?_
    rw [List.mem_append, List.mem_singleton] at hin
    exact hin.elim hnul fun heq => absurd heq (by decide)
  simp only [pieceLine, hclean, List.getLast?_concat, if_true, List.dropLast_concat]

/-- **A script** of lines that fit gives these lines. -/
theorem pipedLines_script {lines : List (List UInt8)} (h : ∀ line ∈ lines, 0 ∉ line ∧
    byte '\n' ∉ line ∧ line.length < LINENOISE_MAX_LINE - 1) :
    pipedLines (lines.flatMap (· ++ [byte '\n'])) = lines := by
  rw [pipedLines, Chunks.chunks_lines fun line hin => (h line hin).2, List.map_map]
  exact (List.map_congr_left fun line hin => pieceLine_line (h line hin).1).trans
    (List.map_id lines)

/-- **A piece** is read, and the array not left. -/
theorem linenoisePiped_eq {buf : List UInt8} (hbuf : buf.length = LINENOISE_MAX_LINE)
    {stdin : List UInt8} (hne : stdin ≠ []) : linenoisePiped buf stdin =
      .ok (.line (pieceLine (Chunks.chunk (byte '\n') (LINENOISE_MAX_LINE - 1) stdin)),
        Chunks.rest (byte '\n') (LINENOISE_MAX_LINE - 1) stdin) := by
  obtain ⟨slack, -, hread⟩ :=
    Chunks.fgets_eq (byte '\n') 0 (Nat.le_of_eq hbuf.symm) (by decide) hne
  rw [linenoisePiped, hread, checked_some, ok_bind]
  generalize Chunks.chunk (byte '\n') (LINENOISE_MAX_LINE - 1) stdin = piece
  simp only [cString_text, checked_some, ok_bind]
  rw [pieceLine]
  obtain ⟨hnul, zs, hzs⟩ := Lib.takeWhile_nul 0 piece
  have hbuf : piece ++ 0 :: slack = piece.takeWhile (· ≠ 0) ++ 0 :: (zs ++ slack) := by
    rw [← List.singleton_append, ← List.append_assoc, hzs, List.append_assoc]
    rfl
  rw [hbuf]
  generalize piece.takeWhile (· ≠ 0) = s at *
  rcases List.eq_nil_or_concat s with rfl | ⟨t, c, rfl⟩
  · rfl
  · rw [List.concat_eq_append] at *
    have hpos : ¬ (t ++ [c]).length = 0 := by simp
    have hlast : (t ++ [c] ++ 0 :: (zs ++ slack))[t.length]? = some c := by simp
    have hlen : (t ++ [c]).length - 1 = t.length := by simp
    have hstore : store (t ++ [c] ++ 0 :: (zs ++ slack)) t.length [0] =
        some (t ++ 0 :: (0 :: (zs ++ slack))) := by
      have := store_append t [c] (0 :: (zs ++ slack)) [0] rfl
      rw [this]
      simp
    simp only [if_neg hpos, hlen, hlast, checked_some, ok_bind, List.getLast?_concat,
      Option.some.injEq, List.dropLast_concat]
    by_cases hc : c = byte '\n'
    · have ht : 0 ∉ t := fun hin => hnul (List.mem_append_left _ hin)
      rw [if_pos hc, if_pos hc, hstore, checked_some, ok_bind, cString_append ht]
      rfl
    · rw [if_neg hc, if_neg hc]
      show (checked .buf (cString 0 (t ++ [c] ++ 0 :: (zs ++ slack))) >>= _) = _
      rw [cString_append hnul]
      rfl

/-! ## The simulation -/

/-- **The simulation**: whatever is piped into the tool, the loop does to the session what
    `readInputFromSource` does with the lines of the input, and ends as it does. -/
theorem readInputFromPipe_eq {stack : Nat → List UInt8}
    (hstack : ∀ n, (stack n).length = LINENOISE_MAX_LINE) (env : Env W) (stdin : List UInt8) :
    ∀ (machine : Machine W) (history : History) (rounds : Nat), 0 < history.max_len →
      history.lines.length ≤ history.max_len → stdin.length < rounds →
      ∃ piped, readInputFromPipe stack env rounds ⟨machine, history, stdin⟩ =
          .ok ((readInputFromSource commandLineRound ((pipedLines stdin).map stringOf) env
              machine).1,
            piped) ∧
        piped.machine =
          (readInputFromSource commandLineRound ((pipedLines stdin).map stringOf) env
            machine).2 := by
  have hroom : 0 < LINENOISE_MAX_LINE - 1 := by decide
  induction stdin using Chunks.chunks_rule (byte '\n') hroom with
  | nil =>
    intro machine history rounds hpos hfits hrounds
    obtain ⟨rounds, rfl⟩ := Nat.exists_eq_succ_of_ne_zero (Nat.ne_zero_of_lt hrounds)
    exact ⟨⟨machine, history, []⟩, rfl, rfl⟩
  | more stdin hne ih =>
    intro machine history rounds hpos hfits hrounds
    obtain ⟨rounds, rfl⟩ := Nat.exists_eq_succ_of_ne_zero (Nat.ne_zero_of_lt hrounds)
    have hless := Chunks.length_rest_lt (byte '\n') hroom hne
    have hlines : pipedLines stdin = pieceLine (Chunks.chunk (byte '\n') (LINENOISE_MAX_LINE - 1)
        stdin) :: pipedLines (Chunks.rest (byte '\n') (LINENOISE_MAX_LINE - 1) stdin) := by
      rw [pipedLines, Chunks.chunks_eq _ hroom hne]
      rfl
    rw [readInputFromPipe, linenoisePiped_eq (hstack rounds) hne, ok_bind, hlines, List.map_cons,
      readInputFromSource]
    generalize Chunks.rest (byte '\n') (LINENOISE_MAX_LINE - 1) stdin = rest at *
    generalize pieceLine (Chunks.chunk (byte '\n') (LINENOISE_MAX_LINE - 1) stdin) = line
    show ∃ piped, (if (parseLine (stringOf line)).isEmpty then _ else _) = _ ∧ _
    by_cases hempty : (parseLine (stringOf line)).isEmpty = true
    · rw [if_pos hempty, if_pos hempty]
      exact ih machine history rounds hpos hfits (by omega)
    · obtain ⟨ret, hadd⟩ := linenoiseHistoryAdd_added hpos hfits line
      have hnext := fun machine =>
        ih machine { history with lines := history.added line } rounds hpos
        (History.length_added hpos hfits line) (by omega)
      rw [if_neg hempty, if_neg hempty, hadd, ok_bind, Eff.bind_apply]
      rcases commandLineRound (parseLine (stringOf line)) env machine with ⟨⟨⟩ | e | d, machine'⟩
      · exact hnext machine'
      · exact ⟨_, rfl, rfl⟩
      · exact ⟨_, rfl, rfl⟩

/-- Two commands and nothing else. -/
def aScript : List (List UInt8) := [bytes "help", bytes "exit"]

/-- The loop processes `help`, and ends at `exit`. -/
theorem readInputFromPipe_eq_aScript : ∃ piped,
    readInputFromPipe (fun _ => List.replicate 4096 0) Env.offline 20
        ⟨Machine.new false "" (), .initial, aScript.flatMap (· ++ [byte '\n'])⟩ =
      .ok ((readInputFromSource commandLineRound (aScript.map stringOf) Env.offline
        (Machine.new false "" ())).1, piped) ∧
    piped.machine = (readInputFromSource commandLineRound (aScript.map stringOf) Env.offline
      (Machine.new false "" ())).2 := by
  have hlines : pipedLines (aScript.flatMap (· ++ [byte '\n'])) = aScript :=
    pipedLines_script (by decide)
  have hstack : ∀ _ : Nat, (List.replicate 4096 (0 : UInt8)).length = LINENOISE_MAX_LINE :=
    fun _ => List.length_replicate
  have hrun := readInputFromPipe_eq hstack Env.offline
    (aScript.flatMap (· ++ [byte '\n'])) (Machine.new false "" ()) .initial 20 (by decide)
    (Nat.zero_le _) (by decide)
  rw [hlines] at hrun
  exact hrun

end Linenoise

end FepControl
