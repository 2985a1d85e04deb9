/-
  Texts with escapes: a mark, and behind it a letter that stands for a character.

  Such a code is given by two functions that are not each other's inverse.  The writer asks for each
  character whether it is to be escaped, and by which letter; the reader asks for each letter which
  character it stands for, and has an answer for every letter, also for those that no writer writes.
  All that is needed is that the reader reads back what the writer has written, which is a field of
  the structure.

  1. **EscapeCode** -- the mark, the letters, and what they stand for.  That the letters can be read
     back, and that the mark itself is escaped, is a part of it.

  2. **The round trip** -- what is encoded is decoded again (`decode_encodeAll`), also in front of
     something else (`decode_encodeAll_append`), which is what the induction is about.

  3. **What is decoded** -- every text that does not end with a mark that nothing follows; and it
     has no characters but those of the text and what its letters stand for (`getLast?_of_decode`,
     `not_mem_decode`).

  4. **Cuts** -- what was encoded and is cut is decoded in two parts, unless the cut goes through an
     escape (`decode_take_encodeAll`).
-/
namespace Lib

/-- An escape code; the mark itself needs an escape. -/
structure EscapeCode (α : Type) where
  mark : α
  /-- the letter behind the mark, for the characters that are escaped -/
  letter : α → Option α
  /-- what a letter behind the mark stands for -/
  value : α → α
  letter_mark : letter mark ≠ none
  value_letter : ∀ c l, letter c = some l → value l = c

namespace EscapeCode

variable {α : Type} (k : EscapeCode α)

/-- What is written for a character. -/
def encode (c : α) : List α :=
  match k.letter c with
  | some l => [k.mark, l]
  | none => [c]

/-- What is written for a text. -/
def encodeAll (s : List α) : List α := s.flatMap k.encode

variable {k}

theorem encode_some {c l : α} (h : k.letter c = some l) : k.encode c = [k.mark, l] := by
  rw [encode, h]

theorem encode_none {c : α} (h : k.letter c = none) : k.encode c = [c] := by
  rw [encode, h]

/-- The mark is never written for itself. -/
theorem ne_mark_of_letter {c : α} (h : k.letter c = none) : c ≠ k.mark := by
  rintro rfl
  exact k.letter_mark h

/-- An encoded text is at most twice as long. -/
theorem length_encodeAll_le (s : List α) : (k.encodeAll s).length ≤ 2 * s.length := by
  induction s with
  | nil => exact Nat.zero_le _
  | cons c s ih =>
    have hc : (k.encode c).length ≤ 2 := by
      cases hletter : k.letter c with
      | none =>
        rw [encode_none hletter]
        exact Nat.le_succ 1
      | some l =>
        rw [encode_some hletter]
        exact Nat.le_refl 2
    rw [encodeAll, List.flatMap_cons, List.length_append, List.length_cons, ← encodeAll]
    omega

/-- In an encoded text there are marks, letters, and characters that stand for themselves. -/
theorem mem_encodeAll {x : α} {s : List α} (h : x ∈ k.encodeAll s) :
    x = k.mark ∨ (∃ c, k.letter c = some x) ∨ (x ∈ s ∧ k.letter x = none) := by
  obtain ⟨c, hcs, hc⟩ := List.mem_flatMap.mp h
  cases hletter : k.letter c with
  | none =>
    rw [encode_none hletter, List.mem_singleton] at hc
    exact .inr (.inr ⟨hc ▸ hcs, hc ▸ hletter⟩)
  | some l =>
    rw [encode_some hletter] at hc
    rcases List.mem_cons.mp hc with hc | hc
    · exact .inl hc
    · exact .inr (.inl ⟨c, List.mem_singleton.mp hc ▸ hletter⟩)

variable [DecidableEq α] (k)

/-- Nothing, if the text ends behind a mark. -/
def decode : List α → Option (List α)
  | [] => some []
  | [c] => if c = k.mark then none else some [c]
  | c :: c' :: cs =>
      if c = k.mark then (decode cs).map (k.value c' :: ·) else (decode (c' :: cs)).map (c :: ·)

variable {k}

theorem decode_cons {c : α} (h : c ≠ k.mark) (cs : List α) :
    k.decode (c :: cs) = (k.decode cs).map (c :: ·) := by
  cases cs with
  | nil => exact if_neg h
  | cons c' cs => rw [decode, if_neg h]

theorem decode_mark (c : α) (cs : List α) :
    k.decode (k.mark :: c :: cs) = (k.decode cs).map (k.value c :: ·) := by
  rw [decode, if_pos rfl]

/-! ## The round trip -/

/-- A character is read back. -/
theorem decode_encode (c : α) (cs : List α) :
    k.decode (k.encode c ++ cs) = (k.decode cs).map (c :: ·) := by
  cases h : k.letter c with
  | none =>
    rw [encode_none h]
    exact decode_cons (ne_mark_of_letter h) cs
  | some l =>
    rw [encode_some h]
    show k.decode (k.mark :: l :: cs) = _
    rw [decode_mark, k.value_letter c l h]

/-- An encoded text is read back, and what is behind it is read as if it stood alone. -/
theorem decode_encodeAll_append : ∀ (s cs : List α),
    k.decode (k.encodeAll s ++ cs) = (k.decode cs).map (s ++ ·)
  | [], cs => by
      show k.decode cs = _
      cases k.decode cs <;> rfl
  | c :: s, cs => by
      rw [encodeAll, List.flatMap_cons, List.append_assoc, decode_encode, ← encodeAll,
        decode_encodeAll_append s cs, Option.map_map]
      rfl

/-- **The round trip.** -/
theorem decode_encodeAll (s : List α) : k.decode (k.encodeAll s) = some s := by
  have h := decode_encodeAll_append (k := k) s []
  rw [List.append_nil] at h
  exact h.trans (congrArg some (List.append_nil s))

/-! ## What is decoded -/

/-- A text that is not decoded ends with a mark. -/
theorem getLast?_of_decode {xs : List α} (h : k.decode xs = none) : xs.getLast? = some k.mark := by
  induction xs using decode.induct k with
  | case1 => cases h
  | case2 => rfl
  | case3 c hc =>
    rw [decode, if_neg hc] at h
    cases h
  | case4 c' cs ih =>
    rw [decode_mark] at h
    rw [List.getLast?_cons_cons, List.getLast?_cons, ih (Option.map_eq_none_iff.mp h)]
    rfl
  | case5 c c' cs hc ih =>
    rw [decode_cons hc] at h
    rw [List.getLast?_cons_cons, ih (Option.map_eq_none_iff.mp h)]

/-- A character that does not stand in the text, and that no other letter stands for, is not
    decoded. -/
theorem not_mem_decode {x : α} (hvalue : ∀ c, c ≠ x → k.value c ≠ x) {xs s : List α}
    (h : k.decode xs = some s) (hx : x ∉ xs) : x ∉ s := by
  induction xs using decode.induct k generalizing s with
  | case1 =>
    cases h
    exact hx
  | case2 =>
    rw [decode, if_pos rfl] at h
    cases h
  | case3 c hc =>
    rw [decode, if_neg hc] at h
    cases h
    exact hx
  | case4 c' cs ih =>
    rw [decode_mark] at h
    obtain ⟨s', hs', rfl⟩ := Option.map_eq_some_iff.mp h
    simp only [List.mem_cons, not_or] at hx ⊢
    exact ⟨(hvalue c' (Ne.symm hx.2.1)).symm, ih hs' hx.2.2⟩
  | case5 c c' cs hc ih =>
    rw [decode_cons hc] at h
    obtain ⟨s', hs', rfl⟩ := Option.map_eq_some_iff.mp h
    rw [List.mem_cons, not_or] at hx ⊢
    exact ⟨hx.1, ih hs' hx.2⟩

/-! ## Cuts -/

/-- A text whose first part is decoded is decoded in two parts. -/
theorem decode_append {xs s : List α} (h : k.decode xs = some s) (ys : List α) :
    k.decode (xs ++ ys) = (k.decode ys).map (s ++ ·) := by
  induction xs using decode.induct k generalizing s with
  | case1 =>
    cases h
    exact Option.map_id'.symm
  | case2 =>
    rw [decode, if_pos rfl] at h
    cases h
  | case3 c hc =>
    rw [decode, if_neg hc] at h
    cases h
    exact decode_cons hc ys
  | case4 c' cs ih =>
    rw [decode_mark] at h
    obtain ⟨s', hs', rfl⟩ := Option.map_eq_some_iff.mp h
    show k.decode (k.mark :: c' :: (cs ++ ys)) = _
    rw [decode_mark, ih hs', Option.map_map]
    rfl
  | case5 c c' cs hc ih =>
    rw [decode_cons hc] at h
    obtain ⟨s', hs', rfl⟩ := Option.map_eq_some_iff.mp h
    show k.decode (c :: (c' :: cs ++ ys)) = _
    rw [decode_cons hc, ih hs', Option.map_map]
    rfl

/-- **A cut through an escape**, and no other, leaves a part that is not decoded. -/
theorem decode_take_encodeAll : ∀ (s : List α) (n : Nat), k.decode ((k.encodeAll s).take n) = none ↔
    ∃ xs c ys, s = xs ++ c :: ys ∧ (k.encodeAll xs).length + 1 = n ∧ k.letter c ≠ none
  | [], n => by
      have hnil : k.decode ((k.encodeAll []).take n) = some [] := by
        rw [show k.encodeAll [] = [] from rfl, List.take_nil, decode]
      rw [hnil]
      refine iff_of_false (Option.some_ne_none _) ?_
      rintro ⟨xs, c, ys, heq, -⟩
      simp at heq
  | c :: s, n => by
      have hcons : k.encodeAll (c :: s) = k.encode c ++ k.encodeAll s := List.flatMap_cons
      by_cases hlong : (k.encode c).length ≤ n
      · -- behind the first character
        obtain ⟨m, rfl⟩ := Nat.exists_eq_add_of_le hlong
        rw [hcons, List.take_length_add_append, decode_encode, Option.map_eq_none_iff,
          decode_take_encodeAll s m]
        constructor
        · rintro ⟨xs, c', ys, rfl, hlen, hletter⟩
          refine ⟨c :: xs, c', ys, rfl, ?_, hletter⟩
          rw [encodeAll, List.flatMap_cons, List.length_append, ← encodeAll]
          omega
        · rintro ⟨xs, c', ys, heq, hlen, hletter⟩
          cases xs with
          | nil =>
            obtain ⟨rfl, rfl⟩ := List.cons.inj heq
            obtain ⟨l, hl⟩ := Option.ne_none_iff_exists'.mp hletter
            rw [encode_some hl] at hlen
            simp only [encodeAll, List.flatMap_nil, List.length_nil, List.length_cons] at hlen
            omega
          | cons x xs =>
            obtain ⟨rfl, rfl⟩ := List.cons.inj heq
            refine ⟨xs, c', ys, rfl, ?_, hletter⟩
            rw [encodeAll, List.flatMap_cons, List.length_append, ← encodeAll] at hlen
            omega
      · -- inside the first escape
        cases hl : k.letter c with
        | none =>
          obtain rfl : n = 0 := by
            rw [encode_none hl, List.length_singleton] at hlong
            omega
          refine iff_of_false (fun heq => by cases heq) ?_
          rintro ⟨xs, c', ys, -, hlen, -⟩
          omega
        | some l =>
          rw [encode_some hl, List.length_cons, List.length_singleton] at hlong
          rcases Nat.eq_zero_or_pos n with rfl | hpos
          · refine iff_of_false (fun heq => by cases heq) ?_
            rintro ⟨xs, c', ys, -, hlen, -⟩
            omega
          · obtain rfl : n = 1 := by omega
            rw [hcons, encode_some hl]
            refine iff_of_true (if_pos rfl) ⟨[], c, s, rfl, rfl, ?_⟩
            rw [hl]
            exact Option.some_ne_none l

end EscapeCode

end Lib
