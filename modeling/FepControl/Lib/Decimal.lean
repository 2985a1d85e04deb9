/-
  Signed decimal numerals.

  A program that reads an integer and prints it again has two functions to agree on: what it
  accepts, and what it writes.  The relation between a string and the integer it denotes stands
  between them.  A reader is right if it accepts only what denotes something; and since a numeral
  ends where its digits end, a reader that stops early has not read a numeral but the beginning of
  something else.

  1. **SignedDecimal** -- digits, with or without a sign, and the integer they denote.  Leading
     zeros are allowed, and so is a plus sign, so an integer has many numerals.

  2. **Canonical form** -- the string that an integer is printed as denotes it
     (`signedDecimal_toString`).

  3. **Shape** -- behind its first character a numeral has only digits (`shape`), so it ends where
     the digits end: it cannot be continued by anything else (`not_append`, `not_cons`).
-/

namespace Lib

/-- A numeral, and the integer it denotes. -/
inductive SignedDecimal : List Char → Int → Prop where
  | unsigned {digits : List Char} (hne : digits ≠ []) (hdigits : ∀ c ∈ digits, c.isDigit = true) :
      SignedDecimal digits (Nat.ofDigitChars 10 digits 0)
  | plus {digits : List Char} (hne : digits ≠ []) (hdigits : ∀ c ∈ digits, c.isDigit = true) :
      SignedDecimal ('+' :: digits) (Nat.ofDigitChars 10 digits 0)
  | minus {digits : List Char} (hne : digits ≠ []) (hdigits : ∀ c ∈ digits, c.isDigit = true) :
      SignedDecimal ('-' :: digits) (-(Nat.ofDigitChars 10 digits 0))

/-- The character can begin a numeral. -/
def BeginsNumeral (c : Char) : Prop := c.isDigit = true ∨ c = '+' ∨ c = '-'

namespace SignedDecimal

variable {cs : List Char} {n : Int}

/-- A numeral is a sign or a digit, and then digits only. -/
theorem shape (h : SignedDecimal cs n) :
    ∃ c ds, cs = c :: ds ∧ BeginsNumeral c ∧ ∀ d ∈ ds, d.isDigit = true := by
  cases h with
  | unsigned hne hdigits =>
    obtain ⟨c, ds, rfl⟩ := List.exists_cons_of_ne_nil hne
    exact ⟨c, ds, rfl, .inl (hdigits c List.mem_cons_self),
      fun d hd => hdigits d (List.mem_cons_of_mem c hd)⟩
  | plus hne hdigits => exact ⟨'+', _, rfl, .inr (.inl rfl), hdigits⟩
  | minus hne hdigits => exact ⟨'-', _, rfl, .inr (.inr rfl), hdigits⟩

/-- A numeral does not go on behind its digits. -/
theorem not_append (h : SignedDecimal cs n) {c : Char} (hc : c.isDigit = false) (rest : List Char)
    (n' : Int) : ¬ SignedDecimal (cs ++ c :: rest) n' := by
  intro h'
  obtain ⟨d, ds, rfl, -, -⟩ := h.shape
  obtain ⟨d', ds', heq, -, hdigits⟩ := h'.shape
  have hmem : c ∈ ds' := by
    rw [← (List.cons.inj heq).2]
    simp
  exact absurd ((hdigits c hmem).symm.trans hc) nofun

/-- A numeral does not begin with anything else. -/
theorem not_cons {c : Char} (hc : ¬ BeginsNumeral c) (rest : List Char) (n' : Int) :
    ¬ SignedDecimal (c :: rest) n' := by
  intro h
  obtain ⟨d, ds, heq, hbegins, -⟩ := h.shape
  obtain ⟨rfl, -⟩ := List.cons.inj heq
  exact hc hbegins

end SignedDecimal

/-- **The canonical form of an integer denotes it.** -/
theorem signedDecimal_toString (n : Int) : SignedDecimal (toString n).toList n := by
  have hnat : ∀ k : Nat, Nat.toDigits 10 k ≠ [] ∧
      (∀ c ∈ Nat.toDigits 10 k, c.isDigit = true) ∧
      Nat.ofDigitChars 10 (Nat.toDigits 10 k) 0 = k := by
    intro k
    refine ⟨Nat.toDigits_ne_nil, ?_, Nat.ofDigitChars_ten_toDigits⟩
    intro c hc
    exact Nat.isDigit_of_mem_toDigits (by decide) (by decide) hc
  cases n with
  | ofNat k =>
    obtain ⟨hne, hdigits, hvalue⟩ := hnat k
    have hlist : (toString (Int.ofNat k)).toList = Nat.toDigits 10 k := Nat.toList_repr
    have h := SignedDecimal.unsigned hne hdigits
    rw [hvalue] at h
    rw [hlist]
    exact h
  | negSucc k =>
    obtain ⟨hne, hdigits, hvalue⟩ := hnat (k + 1)
    have hlist : (toString (Int.negSucc k)).toList = '-' :: Nat.toDigits 10 (k + 1) := by
      show ("-" ++ Nat.repr (k + 1)).toList = _
      rw [String.toList_append, Nat.toList_repr]
      rfl
    have h := SignedDecimal.minus hne hdigits
    rw [hvalue] at h
    rw [hlist]
    exact h

end Lib
