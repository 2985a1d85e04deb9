/-
  Arrays and strings of C, with every access checked.

  A function of C gets a pointer and a size and trusts them.  Here an array is the list of its
  elements, and reading or writing a range of it is an operation that may fail: it gives nothing
  when any part of the range is outside of the array, also when its offset or its size is negative,
  as it can be after a subtraction of two `int`.  A program over these operations that has a result
  has therefore made no access out of bounds, and to prove that it has a result is to prove just
  that.

  1. **load, store, memmove** -- a range is read, written, or moved within its array, where source
     and target may overlap.

  2. **The laws** -- they are stated on an array in three parts `xs ++ ys ++ zs`, where `ys` is the
     range in question.  The sizes are then the lengths of the parts, and no arithmetic on offsets
     is left to the callers (`load_append`, `store_append`, `memmove_up`, `memmove_down`).

  3. **Strings** -- a string ends at the first NUL of its array, and what is behind that is slack.
     `cString` fails where there is no NUL at all, as `strlen` runs out of the array then.

  4. **strncpy, strstr** -- the first fills up with NULs and leaves no NUL when the string is too
     long; the second finds what it is asked for, and finds it exactly where it is
     (`strstr_eq_some`, `strstr_isSome_iff`).
-/
import Mathlib.Data.List.TakeWhile

namespace Lib

variable {α : Type}

/-! ## Arrays -/

/-- `n` elements of an array, from the offset `i` on. -/
def load (a : List α) (i n : Int) : Option (List α) :=
  if 0 ≤ i ∧ 0 ≤ n ∧ i + n ≤ a.length then some ((a.drop i.toNat).take n.toNat) else none

/-- The array after `bs` is written from the offset `i` on. -/
def store (a : List α) (i : Int) (bs : List α) : Option (List α) :=
  if 0 ≤ i ∧ i + bs.length ≤ a.length then
    some (a.take i.toNat ++ bs ++ a.drop (i.toNat + bs.length))
  else none

/-- `memmove(a + dest, a + src, n)`; the two ranges may overlap. -/
def memmove (a : List α) (dest src n : Int) : Option (List α) :=
  (load a src n).bind (store a dest)

/-- The range that lies between `xs` and `zs`. -/
theorem load_append (xs ys zs : List α) :
    load (xs ++ ys ++ zs) xs.length ys.length = some ys := by
  rw [load, if_pos (by simp only [List.length_append]; omega)]
  simp

/-- A range of the array is written with as many elements, and the rest stays. -/
theorem store_append (xs ys zs bs : List α) (h : bs.length = ys.length) :
    store (xs ++ ys ++ zs) xs.length bs = some (xs ++ bs ++ zs) := by
  rw [store, if_pos (by simp only [List.length_append]; omega)]
  simp [h]

/-- A write keeps the size of the array. -/
theorem length_of_store {a a' bs : List α} {i : Int} (h : store a i bs = some a') :
    a'.length = a.length := by
  rw [store] at h
  split at h
  · next hin =>
    cases h
    simp only [List.length_append, List.length_take, List.length_drop]
    omega
  · cases h

/-- Moving a range up by one: the cell it leaves behind keeps its value. -/
theorem memmove_up (xs ys zs : List α) (z : α) :
    memmove (xs ++ ys ++ z :: zs) (xs.length + 1 : Nat) xs.length ys.length =
      some (xs ++ (ys ++ [z]).take 1 ++ ys ++ zs) := by
  rw [memmove, load_append]
  cases ys with
  | nil =>
    have h := store_append (xs ++ [z]) [] zs [] rfl
    simpa using h
  | cons y ys =>
    have h := store_append (xs ++ [y]) (ys ++ [z]) zs (y :: ys) (by simp)
    simpa using h

/-- Moving a range down over the cell before it: its last element is left behind. -/
theorem memmove_down (xs ys zs : List α) (x : α) :
    memmove (xs ++ x :: ys ++ zs) xs.length (xs.length + 1 : Nat) ys.length =
      some (xs ++ ys ++ (x :: ys).drop ys.length ++ zs) := by
  have hload := load_append (xs ++ [x]) ys zs
  have hsplit : xs ++ x :: ys = xs ++ (x :: ys).take ys.length ++ (x :: ys).drop ys.length := by
    rw [List.append_assoc, List.take_append_drop]
  rw [memmove, show xs ++ x :: ys ++ zs = xs ++ [x] ++ ys ++ zs by simp,
    show ((xs.length + 1 : Nat) : Int) = (xs ++ [x]).length by simp, hload, Option.bind_some,
    show xs ++ [x] ++ ys ++ zs = xs ++ x :: ys ++ zs by simp, hsplit, List.append_assoc _ _ zs]
  rw [store_append xs _ _ _ (by simp), List.append_assoc (xs ++ ys)]

/-! ## Strings -/

/-- What `strncpy` writes of the string `s`: `n` elements, cut off or filled up with NULs. -/
def strncpy (nul : α) (s : List α) (n : Nat) : List α :=
  s.take n ++ List.replicate (n - s.length) nul

/-- All of the target is written. -/
@[simp] theorem length_strncpy (nul : α) (s : List α) (n : Nat) :
    (strncpy nul s n).length = n := by
  simp only [strncpy, List.length_append, List.length_take, List.length_replicate]
  omega

/-- The last cell overwritten with a NUL: the string, cut off, with NULs up to the end. -/
theorem strncpy_terminated (nul : α) (s : List α) (n : Nat) :
    store (strncpy nul s (n + 1)) n [nul] =
      some (s.take n ++ List.replicate (n + 1 - (s.take n).length) nul) := by
  rw [strncpy]
  by_cases h : s.length ≤ n
  · have hrep : List.replicate (n + 1 - s.length) nul =
        List.replicate (n - s.length) nul ++ [nul] := by
      rw [← List.replicate_succ', show n + 1 - s.length = n - s.length + 1 by omega]
    have hlen : (s ++ List.replicate (n - s.length) nul).length = n := by
      rw [List.length_append, List.length_replicate]; omega
    have hstore := store_append (s ++ List.replicate (n - s.length) nul) [nul] [] [nul] rfl
    rw [hlen, List.append_nil, List.append_assoc, ← hrep] at hstore
    rw [List.take_of_length_le (by omega), List.take_of_length_le h]
    exact hstore
  · have hlen : (s.take n).length = n := by rw [List.length_take]; omega
    have htake : s.take (n + 1) = s.take n ++ [s[n]] := by
      rw [List.take_add_one, List.getElem?_eq_getElem (by omega), Option.toList_some]
    have hstore := store_append (s.take n) [s[n]] [] [nul] rfl
    rw [hlen, List.append_nil, List.append_nil] at hstore
    rw [htake, show n + 1 - s.length = 0 by omega, hlen, show n + 1 - n = 1 by omega]
    simpa using hstore

variable [DecidableEq α]

/-- The string that an array holds; nothing if it has no NUL. -/
def cString (nul : α) : List α → Option (List α)
  | [] => none
  | x :: xs => if x = nul then some [] else (cString nul xs).map (x :: ·)

variable {nul : α}

/-- `strstr`: where a string has another one first. -/
def strstr (needle : List α) : List α → Option Nat
  | [] => if needle = [] then some 0 else none
  | x :: xs =>
      if needle.isPrefixOf (x :: xs) then some 0 else (strstr needle xs).map (· + 1)

/-- A string that is followed by a NUL is read back. -/
theorem cString_append {s : List α} (h : nul ∉ s) (zs : List α) :
    cString nul (s ++ nul :: zs) = some s := by
  induction s with
  | nil => exact if_pos rfl
  | cons x s ih =>
    have hx : ¬ x = nul := fun heq => h (heq ▸ List.mem_cons_self)
    have hs : nul ∉ s := fun hin => h (List.mem_cons_of_mem x hin)
    rw [List.cons_append, cString, if_neg hx, ih hs]
    rfl

/-- `strstr` finds the string that is asked for. -/
theorem strstr_eq_some {needle : List α} : ∀ {s : List α} {i : Nat}, strstr needle s = some i →
    ∃ xs ys, s = xs ++ needle ++ ys ∧ xs.length = i
  | [], i, h => by
      rw [strstr] at h
      split at h
      · next hnil =>
        cases h
        exact ⟨[], [], by rw [hnil]; rfl, rfl⟩
      · cases h
  | x :: s, i, h => by
      rw [strstr] at h
      split at h
      · next hpre =>
        cases h
        obtain ⟨ys, hys⟩ := List.isPrefixOf_iff_prefix.mp hpre
        exact ⟨[], ys, hys.symm, rfl⟩
      · obtain ⟨j, hj, rfl⟩ := Option.map_eq_some_iff.mp h
        obtain ⟨xs, ys, hs, hlen⟩ := strstr_eq_some hj
        exact ⟨x :: xs, ys, by rw [hs]; rfl, by rw [List.length_cons, hlen]⟩

/-- What is found begins inside the string. -/
theorem strstr_le {needle s : List α} {i : Nat} (h : strstr needle s = some i) : i ≤ s.length := by
  obtain ⟨xs, ys, rfl, rfl⟩ := strstr_eq_some h
  rw [List.length_append, List.length_append]
  omega

/-- `strstr` finds every string that is there. -/
theorem strstr_isSome_iff {needle : List α} : ∀ {s : List α},
    (strstr needle s).isSome = true ↔ needle <:+: s
  | [] => by
      rw [strstr, List.infix_nil]
      split <;> simp [*]
  | x :: s => by
      rw [strstr, List.infix_cons_iff, ← strstr_isSome_iff]
      by_cases hpre : needle.isPrefixOf (x :: s) = true
      · rw [if_pos hpre]
        exact ⟨fun _ => .inl (List.isPrefixOf_iff_prefix.mp hpre), fun _ => rfl⟩
      · rw [if_neg hpre, Option.isSome_map]
        exact ⟨.inr, fun h => h.resolve_left fun hp => hpre (List.isPrefixOf_iff_prefix.mpr hp)⟩

/-- Every text with a NUL behind it is a string, up to its first NUL. -/
theorem takeWhile_nul (nul : α) (s : List α) :
    nul ∉ s.takeWhile (· ≠ nul) ∧ ∃ zs, s ++ [nul] = s.takeWhile (· ≠ nul) ++ nul :: zs := by
  induction s with
  | nil => exact ⟨List.not_mem_nil, [], rfl⟩
  | cons x s ih =>
    by_cases hx : x = nul
    · rw [List.takeWhile_cons_of_neg (by simp [hx]), hx]
      exact ⟨List.not_mem_nil, s ++ [nul], rfl⟩
    · obtain ⟨hnul, zs, hs⟩ := ih
      rw [List.takeWhile_cons_of_pos (by simp [hx])]
      refine ⟨?_, zs, by rw [List.cons_append, hs, List.cons_append]⟩
      intro hin
      rcases List.mem_cons.mp hin with heq | hin
      · exact hx heq.symm
      · exact hnul hin

/-- A text with a NUL behind it is read up to its first NUL. -/
theorem cString_text (nul : α) (s zs : List α) :
    cString nul (s ++ nul :: zs) = some (s.takeWhile (· ≠ nul)) := by
  obtain ⟨hnul, zs', hzs⟩ := takeWhile_nul nul s
  rw [← List.singleton_append, ← List.append_assoc, hzs, List.append_assoc, List.cons_append]
  exact cString_append hnul _

/-- A text without a NUL is the string in it. -/
theorem takeWhile_of_not_mem {nul : α} {s : List α} (h : nul ∉ s) : s.takeWhile (· ≠ nul) = s := by
  rw [List.takeWhile_eq_self_iff]
  exact fun x hx => decide_eq_true fun heq => h (heq ▸ hx)

end Lib
