/-
  A stream that is read in pieces: to the end of a line, or as far as there is room.

  `fgets` reads a line if the line fits into its array, and else a part of one; the caller cannot
  tell the two apart without looking for the newline.  A loop over it does not see the lines of the
  file but these pieces, and this file says which they are, for any stream and any room.

  1. **chunk, rest** -- what is read at once, and what is left.  It ends behind the first `stop`,
     when there is no more room, or with the stream; together they are the stream
     (`chunk_append_rest`).

  2. **chunks** -- the whole stream.  The recursion is on the stream, with the open piece carried
     along; that it is the repetition of `chunk` is then a theorem (`chunks_eq`), and there is a
     rule of induction over the pieces (`chunks_rule`).

  3. **Lines** -- a line that fits is a piece of its own; one that does not is cut, and its rest is
     read as if it were a line (`chunks_line`, `chunks_cut`, `chunks_lines`).

  4. **fgets** -- the function of C reads a piece into an array, with a NUL behind it, and leaves
     what is further back in the array as it was (`fgets_eq`).
-/
import FepControl.Lib.CMemory

namespace Lib

namespace Chunks

variable {α : Type} [DecidableEq α] (stop : α)

/-! ## One piece -/

/-- What is read at once, with room for `room` elements. -/
def chunk : (room : Nat) → List α → List α
  | 0, _ => []
  | _ + 1, [] => []
  | room + 1, x :: xs => if x = stop then [x] else x :: chunk room xs

/-- What is left behind the first piece. -/
def rest (room : Nat) (xs : List α) : List α := xs.drop (chunk stop room xs).length

/-- Nothing is lost between a piece and the rest. -/
theorem chunk_append_rest : ∀ (room : Nat) (xs : List α),
    chunk stop room xs ++ rest stop room xs = xs
  | 0, _ => rfl
  | _ + 1, [] => rfl
  | room + 1, x :: xs => by
      rw [rest, chunk]
      split
      · rfl
      · exact congrArg (x :: ·) (chunk_append_rest room xs)

theorem length_chunk_le : ∀ (room : Nat) (xs : List α), (chunk stop room xs).length ≤ room
  | 0, _ => Nat.le_refl 0
  | _ + 1, [] => Nat.zero_le _
  | room + 1, x :: xs => by
      rw [chunk]
      split
      · exact Nat.succ_le_succ (Nat.zero_le _)
      · exact Nat.succ_le_succ (length_chunk_le room xs)

/-- Something is read where there is something and room for it. -/
theorem chunk_ne_nil {room : Nat} (hroom : 0 < room) {xs : List α} (hxs : xs ≠ []) :
    chunk stop room xs ≠ [] := by
  cases room with
  | zero => exact absurd hroom (Nat.lt_irrefl 0)
  | succ room =>
    cases xs with
    | nil => exact absurd rfl hxs
    | cons x xs =>
      rw [chunk]
      split <;> exact List.cons_ne_nil _ _

/-- Something is read, as long as there is something. -/
theorem length_rest_lt {room : Nat} (hroom : 0 < room) {xs : List α} (hxs : xs ≠ []) :
    (rest stop room xs).length < xs.length := by
  have hlen := congrArg List.length (chunk_append_rest stop room xs)
  have hpos := List.length_pos_iff.mpr (chunk_ne_nil stop hroom hxs)
  rw [List.length_append] at hlen
  omega

variable {stop}

/-- A piece that ends before there is no more room ends with a line, or with the stream. -/
theorem chunk_short : ∀ {room : Nat} {xs : List α}, (chunk stop room xs).length < room →
    (chunk stop room xs).getLast? = some stop ∨ rest stop room xs = []
  | 0, _, h => absurd h (Nat.not_lt_zero _)
  | _ + 1, [], _ => .inr rfl
  | room + 1, x :: xs, h => by
      rw [rest, chunk] at *
      by_cases hx : x = stop
      · rw [if_pos hx, hx]
        exact .inl rfl
      · rw [if_neg hx] at h ⊢
        have hlt : (chunk stop room xs).length < room := Nat.lt_of_succ_lt_succ h
        rcases chunk_short hlt with hlast | hrest
        · rw [List.getLast?_cons, hlast]
          exact .inl rfl
        · exact .inr hrest

/-- **A line that fits** is read with its end. -/
theorem chunk_line : ∀ {room : Nat} {line : List α}, stop ∉ line → line.length < room →
    ∀ xs, chunk stop room (line ++ stop :: xs) = line ++ [stop]
  | 0, _, _, h, _ => absurd h (Nat.not_lt_zero _)
  | _ + 1, [], _, _, _ => if_pos rfl
  | room + 1, x :: line, hstop, h, xs => by
      have hx : x ≠ stop := fun heq => hstop (heq ▸ List.mem_cons_self)
      rw [List.cons_append, chunk, if_neg hx,
        chunk_line (fun hin => hstop (List.mem_cons_of_mem x hin)) (Nat.lt_of_succ_lt_succ h)]
      rfl

/-- **A line that does not fit** is cut. -/
theorem chunk_cut : ∀ {room : Nat} {line : List α}, stop ∉ line → room ≤ line.length →
    ∀ xs, chunk stop room (line ++ xs) = line.take room
  | 0, _, _, _, _ => rfl
  | room + 1, [], _, h, _ => absurd h (Nat.not_succ_le_zero room)
  | room + 1, x :: line, hstop, h, xs => by
      have hx : x ≠ stop := fun heq => hstop (heq ▸ List.mem_cons_self)
      rw [List.cons_append, chunk, if_neg hx,
        chunk_cut (fun hin => hstop (List.mem_cons_of_mem x hin)) (Nat.le_of_succ_le_succ h)]
      rfl

theorem rest_line {room : Nat} {line : List α} (hstop : stop ∉ line) (h : line.length < room)
    (xs : List α) : rest stop room (line ++ stop :: xs) = xs := by
  have hline : line ++ stop :: xs = line ++ [stop] ++ xs := by
    rw [List.append_assoc, List.singleton_append]
  rw [rest, chunk_line hstop h, hline, List.drop_left]

theorem rest_cut {room : Nat} {line : List α} (hstop : stop ∉ line) (h : room ≤ line.length)
    (xs : List α) : rest stop room (line ++ xs) = line.drop room ++ xs := by
  rw [rest, chunk_cut hstop h, List.length_take, Nat.min_eq_left h, List.drop_append_of_le_length h]

/-! ## The stream -/

variable (stop)

/-- The pieces, of which `done` was read for the first one. -/
def chunksFrom (room : Nat) : (done : List α) → List α → List (List α)
  | done, [] => if done = [] then [] else [done]
  | done, x :: xs =>
      if x = stop ∨ done.length + 1 = room then (done ++ [x]) :: chunksFrom room [] xs
      else chunksFrom room (done ++ [x]) xs

/-- The pieces of the stream. -/
def chunks (room : Nat) (xs : List α) : List (List α) := chunksFrom stop room [] xs

/-- The open piece is finished first, and then the stream goes on with a new one. -/
theorem chunksFrom_eq {room : Nat} : ∀ {xs done : List α}, done.length < room →
    done ++ chunk stop (room - done.length) xs ≠ [] → chunksFrom stop room done xs =
      (done ++ chunk stop (room - done.length) xs) ::
        chunks stop room (rest stop (room - done.length) xs)
  | [], done, hdone, hne => by
      obtain ⟨left, hleft⟩ := Nat.exists_eq_add_of_lt hdone
      have hroom : room - done.length = left + 1 := by omega
      rw [hroom, chunk, List.append_nil] at hne
      rw [rest, hroom, chunk, List.append_nil, chunksFrom, if_neg hne]
      rfl
  | x :: xs, done, hdone, _ => by
      obtain ⟨left, hleft⟩ := Nat.exists_eq_add_of_lt hdone
      have hroom : room - done.length = left + 1 := by omega
      rw [rest, hroom, chunk, chunksFrom]
      by_cases hx : x = stop
      · rw [if_pos (.inl hx), if_pos hx]
        rfl
      rw [if_neg hx]
      by_cases hfull : done.length + 1 = room
      · have hzero : left = 0 := by omega
        rw [if_pos (.inr hfull), hzero]
        rfl
      · have hmore : room - (done ++ [x]).length = left := by
          rw [List.length_append, List.length_singleton]
          omega
        have hlt : (done ++ [x]).length < room := by
          rw [List.length_append, List.length_singleton]
          omega
        rw [if_neg fun h => h.elim hx hfull,
          chunksFrom_eq hlt (by simp), hmore, rest, List.append_assoc]
        rfl

/-- **The stream**: what is read first, and then the rest. -/
theorem chunks_eq {room : Nat} (hroom : 0 < room) {xs : List α} (hxs : xs ≠ []) :
    chunks stop room xs = chunk stop room xs :: chunks stop room (rest stop room xs) :=
  chunksFrom_eq stop (show ([] : List α).length < room from hroom) (chunk_ne_nil stop hroom hxs)

/-- What holds at the end of a stream, and of every stream if of its rest, holds. -/
theorem chunks_rule {room : Nat} (hroom : 0 < room) {motive : List α → Prop} (nil : motive [])
    (more : ∀ xs, xs ≠ [] → motive (rest stop room xs) → motive xs) (xs : List α) : motive xs := by
  induction hn : xs.length using Nat.strongRecOn generalizing xs with
  | ind n ih =>
    by_cases hxs : xs = []
    · rw [hxs]
      exact nil
    · exact more xs hxs (ih _ (hn ▸ length_rest_lt stop hroom hxs) _ rfl)

/-- Nothing is lost. -/
theorem flatten_chunks {room : Nat} (hroom : 0 < room) (xs : List α) :
    (chunks stop room xs).flatten = xs := by
  induction xs using chunks_rule stop hroom with
  | nil => rfl
  | more xs hxs ih => rw [chunks_eq stop hroom hxs, List.flatten_cons, ih, chunk_append_rest]

/-! ## Lines -/

variable {stop}

/-- A line that fits is a piece of its own. -/
theorem chunks_line {room : Nat} {line : List α} (hstop : stop ∉ line) (h : line.length < room)
    (xs : List α) :
    chunks stop room (line ++ stop :: xs) = (line ++ [stop]) :: chunks stop room xs := by
  rw [chunks_eq stop (Nat.zero_lt_of_lt h) (by simp), chunk_line hstop h, rest_line hstop h]

/-- Of a line that does not fit the piece is as much as there is room for. -/
theorem chunks_cut {room : Nat} (hroom : 0 < room) {line : List α} (hstop : stop ∉ line)
    (h : room ≤ line.length) (xs : List α) :
    chunks stop room (line ++ xs) = line.take room :: chunks stop room (line.drop room ++ xs) := by
  have hne : line ++ xs ≠ [] := by
    intro heq
    rw [(List.append_eq_nil_iff.mp heq).1, List.length_nil] at h
    omega
  rw [chunks_eq stop hroom hne, chunk_cut hstop h, rest_cut hstop h]

/-- **Lines that fit** are the pieces. -/
theorem chunks_lines {room : Nat} : ∀ {lines : List (List α)},
    (∀ line ∈ lines, stop ∉ line ∧ line.length < room) →
    chunks stop room (lines.flatMap (· ++ [stop])) = lines.map (· ++ [stop])
  | [], _ => rfl
  | line :: lines, h => by
      obtain ⟨hstop, hlen⟩ := h line List.mem_cons_self
      rw [List.flatMap_cons, List.append_assoc, List.singleton_append, chunks_line hstop hlen,
        chunks_lines fun line' hin => h line' (List.mem_cons_of_mem line hin)]
      rfl

/-- A line that does not fit is more than one piece. -/
theorem length_chunks_line {room : Nat} (hroom : 0 < room) (xs : List α) : ∀ {line : List α},
    stop ∉ line → room ≤ line.length →
    (chunks stop room xs).length + 1 < (chunks stop room (line ++ stop :: xs)).length := by
  intro line
  induction hn : line.length using Nat.strongRecOn generalizing line with
  | ind n ih =>
    intro hstop hlong
    rw [chunks_cut hroom hstop (hn ▸ hlong), List.length_cons]
    have hstop' : stop ∉ line.drop room := fun hin => hstop (List.mem_of_mem_drop hin)
    have hlen : (line.drop room).length = n - room := by rw [List.length_drop, hn]
    by_cases hfits : (line.drop room).length < room
    · rw [chunks_line hstop' hfits, List.length_cons]
      omega
    · have := ih (n - room) (by omega) hlen hstop' (by omega)
      omega

/-- **Lines that are the pieces** fit. -/
theorem length_chunks_lines {room : Nat} (hroom : 0 < room) : ∀ {lines : List (List α)},
    (∀ line ∈ lines, stop ∉ line) →
    lines.length ≤ (chunks stop room (lines.flatMap (· ++ [stop]))).length ∧
    ((chunks stop room (lines.flatMap (· ++ [stop]))).length = lines.length →
      ∀ line ∈ lines, line.length < room)
  | [], _ => ⟨Nat.zero_le _, fun _ line hin => absurd hin List.not_mem_nil⟩
  | line :: lines, h => by
      obtain ⟨hle, hfits⟩ := length_chunks_lines hroom
        fun line' hin => h line' (List.mem_cons_of_mem line hin)
      have hstop := h line List.mem_cons_self
      rw [List.flatMap_cons, List.append_assoc, List.singleton_append, List.length_cons]
      by_cases hlen : line.length < room
      · rw [chunks_line hstop hlen, List.length_cons]
        refine ⟨Nat.succ_le_succ hle, fun heq line' hin => ?_⟩
        rcases List.mem_cons.mp hin with rfl | hin
        · exact hlen
        · exact hfits (Nat.succ.inj heq) line' hin
      · have := length_chunks_line hroom (lines.flatMap (· ++ [stop])) hstop (by omega)
        exact ⟨by omega, fun heq => by omega⟩

/-! ## fgets -/

variable (stop)

/-- `fgets`: the array, and what is left of the stream; nothing at its end. -/
def fgets (nul : α) (buf : List α) (size : Nat) (xs : List α) : Option (Option (List α × List α)) :=
  if xs = [] then some none
  else (store buf 0 (chunk stop (size - 1) xs ++ [nul])).map fun buf =>
    some (buf, rest stop (size - 1) xs)

/-- **What `fgets` leaves** in the array: the next piece, a NUL, and behind that what was there. -/
theorem fgets_eq (nul : α) {buf : List α} {size : Nat} (hsize : size ≤ buf.length) (hpos : 0 < size)
    {xs : List α} (hxs : xs ≠ []) : ∃ slack, (chunk stop (size - 1) xs ++ nul :: slack).length =
        buf.length ∧ fgets stop nul buf size xs =
      some (some (chunk stop (size - 1) xs ++ nul :: slack, rest stop (size - 1) xs)) := by
  have hlen := length_chunk_le stop (size - 1) xs
  refine ⟨buf.drop ((chunk stop (size - 1) xs).length + 1), ?_, ?_⟩
  · rw [List.length_append, List.length_cons, List.length_drop]
    omega
  · rw [fgets, if_neg hxs, store, if_pos (by
      rw [List.length_append, List.length_singleton]
      omega)]
    simp

end Chunks

end Lib
