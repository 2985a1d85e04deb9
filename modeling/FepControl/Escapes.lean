/-
  Escaped quotes.

  A backslash in front of a quote is to keep the quote from ending its section.  Two parts of the
  source have to agree about that: `getNextWord`, which looks for the end of a word, and `unEscape`,
  which takes the backslashes out of the word when it has been found.  `unEscape` has a toggle, so
  that of two backslashes the second is an ordinary character.  `getNextWord` has the last character
  instead.  This file says on which lines the difference matters.

  1. **Escaped** -- a character behind an odd number of backslashes, which is what `unEscape` takes
     as escaped (`unEscape_behind`).

  2. **The scanner** keeps of an escape no more than the last character, and only inside a quoted
     section.  So it knows a single backslash there from two of them, but takes three for none
     (`Tracks`); outside of a section it does not look for backslashes at all.

  3. **read** -- the scan as `unEscape` would have it, with a toggle.  It is defined without the
     scanner, and has its own idea of where in the line it is (`Place`).

  4. **Where the two differ** -- as long as they have not differed they are at the same place
     (`place_scan`), and a single character can part them in two ways only (`Place.Misreads`).  The
     scanner respects the escapes of a line exactly when this reading comes to none of these places
     (`escapesRespected_iff`).
-/
import FepControl.Scanner

namespace FepControl

/-! ## Escaped characters -/

/-- The backslashes at the end. -/
def backslashes (pre : List Char) : Nat := (pre.reverse.takeWhile (· == '\\')).length

/-- What comes behind these characters is escaped. -/
def Escaped (pre : List Char) : Prop := backslashes pre % 2 = 1

instance (pre : List Char) : Decidable (Escaped pre) := inferInstanceAs (Decidable (_ = _))

/-- How many backslashes there are in front of the next character. -/
theorem backslashes_append (pre : List Char) (c : Char) :
    backslashes (pre ++ [c]) = if c = '\\' then backslashes pre + 1 else 0 := by
  unfold backslashes
  rw [List.reverse_append, List.reverse_singleton, List.singleton_append, List.takeWhile_cons]
  by_cases hc : c = '\\'
  · simp [hc]
  · simp [hc]

/-- `escape_active` of `unEscape`, behind one more character. -/
def toggled (escape_active : Bool) (c : Char) : Bool := !escape_active && c == '\\'

/-- The next character is escaped by a backslash that is not escaped itself. -/
theorem escaped_append (pre : List Char) (c : Char) :
    Escaped (pre ++ [c]) ↔ ¬ Escaped pre ∧ c = '\\' := by
  unfold Escaped
  rw [backslashes_append]
  by_cases hc : c = '\\'
  · rw [if_pos hc]
    constructor
    · intro h
      exact ⟨by omega, hc⟩
    · rintro ⟨h, -⟩
      omega
  · rw [if_neg hc]
    exact iff_of_false (by decide) fun h => hc h.2

/-- The toggle of `unEscape` says whether the next character is escaped. -/
theorem toggled_escaped (pre : List Char) (c : Char) :
    toggled (decide (Escaped pre)) c = decide (Escaped (pre ++ [c])) := by
  rw [Bool.eq_iff_iff, decide_eq_true_iff, escaped_append, toggled, Bool.and_eq_true,
    Bool.not_eq_true', decide_eq_false_iff_not, beq_iff_eq]

/-- **What `unEscape` takes as escaped**: behind any part of a word it goes on with `escape_active`
    exactly if an odd number of backslashes stands there. -/
theorem unEscape_behind (pre : List Char) :
    ∃ out, ∀ rest, rest ≠ [] →
      unEscape (pre ++ rest) = out ++ unEscapeFrom (decide (Escaped pre)) rest := by
  -- one more part of the word, from any state
  have hfrom : ∀ (src pre : List Char), ∃ out, ∀ rest, rest ≠ [] →
      unEscapeFrom (decide (Escaped pre)) (src ++ rest) =
        out ++ unEscapeFrom (decide (Escaped (pre ++ src))) rest := by
    intro src
    induction src with
    | nil =>
      intro pre
      exact ⟨[], fun rest _ => by rw [List.append_nil]; rfl⟩
    | cons c src ih =>
      intro pre
      obtain ⟨out, hout⟩ := ih (pre ++ [c])
      rw [← toggled_escaped, List.append_assoc, List.singleton_append] at hout
      cases hescaped : (decide (Escaped pre) || c != '\\') with
      | true =>
        have htoggled : toggled (decide (Escaped pre)) c = false := by
          unfold toggled
          cases hp : decide (Escaped pre) with
          | true => rfl
          | false => simpa [hp] using hescaped
        refine ⟨c :: out, fun rest hne => ?_⟩
        rw [List.cons_append, unEscapeFrom, if_pos hescaped, ← htoggled, hout rest hne]
        rfl
      | false =>
        have htoggled : toggled (decide (Escaped pre)) c = true := by
          simpa [toggled] using hescaped
        refine ⟨out, fun rest hne => ?_⟩
        rw [List.cons_append, unEscapeFrom, if_neg (by rw [hescaped]; decide), ← htoggled,
          hout rest hne]
  exact hfrom pre []

/-! ## What the scanner knows of the backslashes -/

/-- Inside a quoted section `last_char` says whether there is a backslash at all, and
    `escape_active` whether there is exactly one. -/
def Tracks (n : Nat) : Mode → Prop
  | .embedded _ escape_active last_char | .quoted _ escape_active last_char =>
      (last_char = '\\' ↔ 0 < n) ∧ (escape_active = true ↔ n = 1)
  | _ => True

/-- What the scanner knows after one more character: whether there was a backslash, and whether
    there was exactly one. -/
theorem tracks_next {n : Nat} {escape_active : Bool} {last_char : Char}
    (h : (last_char = '\\' ↔ 0 < n) ∧ (escape_active = true ↔ n = 1)) (c : Char) :
    (c = '\\' ↔ 0 < if c = '\\' then n + 1 else 0) ∧
      (escapesNext last_char c = true ↔ (if c = '\\' then n + 1 else 0) = 1) := by
  obtain ⟨hlast, -⟩ := h
  unfold escapesNext
  by_cases hc : c = '\\'
  · rw [if_pos hc]
    refine ⟨iff_of_true hc (Nat.succ_pos n), ?_⟩
    rw [Bool.and_eq_true, beq_iff_eq, bne_iff_ne, ne_eq, hlast]
    constructor
    · intro h
      omega
    · intro h
      exact ⟨hc, by omega⟩
  · rw [if_neg hc]
    refine ⟨iff_of_false hc (Nat.lt_irrefl 0), ?_⟩
    rw [beq_eq_false_iff_ne.mpr hc]
    exact iff_of_false nofun nofun

/-- One character. -/
theorem Tracks.step {pre : List Char} {mode : Mode} (h : Tracks (backslashes pre) mode) (c : Char) :
    Tracks (backslashes (pre ++ [c])) (mode.step c) := by
  -- a section that has just been opened
  have hopened : ∀ {l : Char}, isQuote c = true → l ≠ '\\' →
      (l = '\\' ↔ 0 < backslashes (pre ++ [c])) ∧
        (false = true ↔ backslashes (pre ++ [c]) = 1) := by
    intro l hquote hl
    have hc : c ≠ '\\' := by
      rintro rfl
      exact absurd hquote (by decide)
    rw [backslashes_append, if_neg hc]
    exact ⟨iff_of_false hl (Nat.lt_irrefl 0), iff_of_false nofun nofun⟩
  cases mode with
  | between skipped =>
    rw [Mode.step]
    split
    · trivial
    · split
      · rename_i hquote
        exact hopened hquote (by decide)
      · trivial
  | word =>
    rw [Mode.step]
    split
    · rename_i hquote
      refine hopened hquote ?_
      rintro rfl
      exact absurd hquote (by decide)
    · split <;> trivial
  | embedded quote escape_active last_char =>
    rw [Mode.step]
    split
    · show _ ∧ _
      rw [backslashes_append]
      exact tracks_next h c
    · trivial
  | quoted quote escape_active last_char =>
    rw [Mode.step]
    split
    · show _ ∧ _
      rw [backslashes_append]
      exact tracks_next h c
    · trivial

/-- Every scan keeps track. -/
theorem tracks_scan (pre : List Char) : Tracks (backslashes pre) (scan .start pre) := by
  have hfrom : ∀ (src pre : List Char) (mode : Mode), Tracks (backslashes pre) mode →
      Tracks (backslashes (pre ++ src)) (scan mode src) := by
    intro src
    induction src with
    | nil =>
      intro pre mode h
      rw [List.append_nil]
      exact h
    | cons c src ih =>
      intro pre mode h
      have hrest := ih (pre ++ [c]) (mode.step c) (h.step c)
      rw [List.append_assoc] at hrest
      exact hrest
  exact hfrom pre [] .start trivial

/-- In a section the opening quote closes, unless exactly one backslash stands before it. -/
theorem Tracks.closes {n : Nat} {mode : Mode} (h : Tracks n mode) {c : Char}
    (hsection : mode.section = some c) : (mode.step c).isOpen = true ↔ n = 1 := by
  cases mode with
  | between => cases hsection
  | word => cases hsection
  | embedded quote escape_active last_char =>
    obtain rfl : quote = c := Option.some.inj hsection
    rw [← h.2, Mode.step]
    cases escape_active with
    | true => exact iff_of_true rfl rfl
    | false => simp [Mode.isOpen, Mode.section]
  | quoted quote escape_active last_char =>
    obtain rfl : quote = c := Option.some.inj hsection
    rw [← h.2, Mode.step]
    cases escape_active with
    | true => exact iff_of_true rfl rfl
    | false => simp [Mode.isOpen, Mode.section]

/-! ## The reading with a toggle -/

/-- Where a reader stands who takes the escapes as `unEscape` does. -/
inductive Place where
  | between
  | word
  /-- in a section opened by the quote, embedded in an unquoted word or a word of its own -/
  | section (quote : Char) (embedded : Bool)
  deriving DecidableEq, Repr

/-- One character, which is escaped or not. -/
def Place.step (escaped : Bool) : Place → Char → Place
  | .between, c =>
      if isspace c then .between else if isQuote c then .section c false else .word
  | .word, c =>
      if isQuote c && !escaped then .section c true else if isspace c then .between else .word
  | .section quote embedded, c =>
      if c == quote && !escaped then (if embedded then .word else .between)
      else .section quote embedded

/-- The reading of some characters: the place, and whether the next character is escaped. -/
def read (pre : List Char) : Place × Bool :=
  pre.foldl (fun r c => (r.1.step r.2 c, toggled r.2 c)) (.between, false)

/-- The reading of one more character. -/
theorem read_append (pre : List Char) (c : Char) :
    read (pre ++ [c]) = ((read pre).1.step (read pre).2 c, toggled (read pre).2 c) := by
  unfold read
  rw [List.foldl_append]
  rfl

/-- Induction over a line from its front. -/
theorem forall_prefix {p : List Char → Prop} (hnil : p [])
    (happend : ∀ pre c, p pre → p (pre ++ [c])) (pre : List Char) : p pre := by
  have hreverse : ∀ l : List Char, p l.reverse := by
    intro l
    induction l with
    | nil => exact hnil
    | cons c l ih =>
      rw [List.reverse_cons]
      exact happend _ c ih
  have h := hreverse pre.reverse
  rwa [List.reverse_reverse] at h

/-- The toggle is that of `unEscape`. -/
theorem read_escaped (pre : List Char) : (read pre).2 = decide (Escaped pre) := by
  induction pre using forall_prefix with
  | hnil => rfl
  | happend pre c ih => rw [read_append, ih, toggled_escaped]

/-! ## Where the two differ -/

/-- The place of a mode. -/
def Mode.place : Mode → Place
  | .between _ => .between
  | .word => .word
  | .embedded quote _ _ => .section quote true
  | .quoted quote _ _ => .section quote false

/-- The scanner misreads the character `c` behind `n` backslashes. -/
inductive Place.Misreads (c : Char) (n : Nat) : Place → Prop where
  /-- an escaped quote in an unquoted word opens a section -/
  | opened (hquote : isQuote c = true) (hescaped : n % 2 = 1) : Misreads c n .word
  /-- behind three backslashes or more the opening quote of a section closes it, escaped or not -/
  | closed (hescaped : n % 2 = 1) (hlong : 3 ≤ n) (embedded : Bool) :
      Misreads c n (.section c embedded)

/-- Everywhere else the two go on alike. -/
theorem place_step {n : Nat} {mode : Mode} (htracks : Tracks n mode) {c : Char}
    (h : ¬ mode.place.Misreads c n) {escaped : Bool} (hescaped : escaped = true ↔ n % 2 = 1) :
    (mode.step c).place = mode.place.step escaped c := by
  -- in a section, at its opening quote, the scanner and the toggle agree
  have hagree : ∀ {quote escape_active embedded}, (escape_active = true ↔ n = 1) → c = quote →
      ¬ (Place.section quote embedded).Misreads c n → escape_active = escaped := by
    rintro quote escape_active embedded hactive rfl hright
    rw [Bool.eq_iff_iff, hactive, hescaped]
    constructor
    · intro hn
      omega
    · intro hodd
      have hshort : ¬ 3 ≤ n := fun hlong => hright (.closed hodd hlong embedded)
      omega
  cases mode with
  | between skipped =>
    rw [Mode.step, Mode.place, Place.step]
    split
    · rfl
    · split <;> rfl
  | word =>
    rw [Mode.step, Mode.place, Place.step]
    by_cases hquote : isQuote c = true
    · have hfalse : escaped = false := by
        cases escaped with
        | false => rfl
        | true => exact absurd (.opened hquote (hescaped.mp rfl)) h
      rw [if_pos hquote, hfalse, hquote]
      rfl
    · have hquote : isQuote c = false := by simpa using hquote
      rw [hquote]
      show (if isspace c then Mode.between true else Mode.word).place =
        if isspace c then Place.between else Place.word
      split <;> rfl
  | embedded quote escape_active last_char =>
    rw [Mode.step, Mode.place, Place.step]
    by_cases hc : c = quote
    · rw [hagree htracks.2 hc h, hc]
      cases escaped <;> simp [Mode.place]
    · rw [if_pos (by simp [hc]), if_neg (by simp [hc])]
      rfl
  | quoted quote escape_active last_char =>
    rw [Mode.step, Mode.place, Place.step]
    by_cases hc : c = quote
    · rw [hagree htracks.2 hc h, hc]
      cases escaped <;> simp [Mode.place]
    · rw [if_pos (by simp [hc]), if_neg (by simp [hc])]
      rfl

/-- If the scanner misreads nothing on its way, or the reading comes to nothing it would misread,
    the two are at the same place. -/
theorem place_scan {line : List Char}
    (h : (∀ pre c post, line = pre ++ c :: post →
        ¬ (scan .start pre).place.Misreads c (backslashes pre)) ∨
      ∀ pre c post, line = pre ++ c :: post → ¬ (read pre).1.Misreads c (backslashes pre))
    (pre : List Char) : ∀ post, line = pre ++ post → (scan .start pre).place = (read pre).1 := by
  induction pre using forall_prefix with
  | hnil => exact fun _ _ => rfl
  | happend pre c ih =>
    intro post hline
    rw [List.append_assoc, List.singleton_append] at hline
    have hplace := ih (c :: post) hline
    have hright : ¬ (scan .start pre).place.Misreads c (backslashes pre) := by
      rcases h with h | h
      · exact h pre c post hline
      · rw [hplace]
        exact h pre c post hline
    have hescaped : (read pre).2 = true ↔ backslashes pre % 2 = 1 := by
      rw [read_escaped, decide_eq_true_iff]
      exact Iff.rfl
    rw [read_append, scan_append]
    show (Mode.step (scan .start pre) c).place = _
    rw [place_step (tracks_scan pre) hright hescaped, hplace]

/-! ## Escapes are respected -/

/-- An escaped quote does not open a section in an unquoted word, and inside a section the opening
    quote closes it exactly if it is not escaped. -/
structure EscapesRespected (line : List Char) : Prop where
  opening : ∀ pre c post, line = pre ++ c :: post → isQuote c = true → Escaped pre →
    scan .start pre = .word → (scan .start (pre ++ [c])).isOpen = false
  closing : ∀ pre c post, line = pre ++ c :: post → (scan .start pre).section = some c →
    ((scan .start (pre ++ [c])).isOpen = true ↔ Escaped pre)

/-- The reading of the line comes to a character that the scanner misreads. -/
def Misread (line : List Char) : Prop :=
  ∃ pre c post, line = pre ++ c :: post ∧ (read pre).1.Misreads c (backslashes pre)

/-- Respecting escapes, in terms of the place of the scanner. -/
theorem escapesRespected_iff_place (line : List Char) :
    EscapesRespected line ↔ ∀ pre c post, line = pre ++ c :: post →
      ¬ (scan .start pre).place.Misreads c (backslashes pre) := by
  have hsnoc : ∀ pre c, scan .start (pre ++ [c]) = (scan .start pre).step c := fun pre c =>
    scan_append .start pre [c]
  constructor
  · intro h pre c post hline hmisreads
    have hopening := h.opening pre c post hline
    have hclosing := h.closing pre c post hline
    rw [hsnoc] at hopening hclosing
    have htracks := tracks_scan pre
    -- what the scanner keeps of `pre` decides both properties: the rest is by its mode
    generalize scan .start pre = mode at hopening hclosing htracks hmisreads
    -- three backslashes or more leave `escape_active` unset whatever their parity
    have hlong : mode.section = some c → Escaped pre → 3 ≤ backslashes pre → False := by
      intro hsection hescaped hlong
      have hone := (htracks.closes hsection).mp ((hclosing hsection).mpr hescaped)
      omega
    cases mode with
    | between => cases hmisreads
    | word =>
      cases hmisreads with
      | opened hquote hescaped =>
        have hopen := hopening hquote hescaped rfl
        rw [Mode.step_word_quote hquote] at hopen
        cases hopen
    | embedded quote escape_active last_char =>
      cases hmisreads with
      | closed hescaped hthree => exact hlong rfl hescaped hthree
    | quoted quote escape_active last_char =>
      cases hmisreads with
      | closed hescaped hthree => exact hlong rfl hescaped hthree
  · intro h
    constructor
    · intro pre c post hline hquote hescaped hword
      have hright := h pre c post hline
      rw [hword] at hright
      exact absurd (.opened hquote hescaped) hright
    · intro pre c post hline hsection
      have hright := h pre c post hline
      have hplace : ∃ embedded, (scan .start pre).place = .section c embedded := by
        generalize scan .start pre = mode at hsection
        cases mode with
        | between => cases hsection
        | word => cases hsection
        | embedded => cases hsection; exact ⟨true, rfl⟩
        | quoted => cases hsection; exact ⟨false, rfl⟩
      obtain ⟨embedded, hplace⟩ := hplace
      rw [hplace] at hright
      rw [hsnoc, (tracks_scan pre).closes hsection]
      unfold Escaped
      constructor
      · intro hone
        omega
      · intro hodd
        have hshort : ¬ 3 ≤ backslashes pre := fun hlong => hright (.closed hodd hlong embedded)
        omega

/-- **Escaped quotes never delimit** a line exactly if the reading of the line, with `unEscape`'s
    toggle, comes to no escaped quote in an unquoted word, and in a section to no opening quote
    behind an odd number of backslashes that is more than one. -/
theorem escapesRespected_iff (line : String) :
    EscapesRespected (cStr line) ↔ ¬ Misread (cStr line) := by
  rw [escapesRespected_iff_place]
  constructor
  · rintro h ⟨pre, c, post, hline, hmisreads⟩
    have hplace := place_scan (.inl h) pre (c :: post) hline
    rw [← hplace] at hmisreads
    exact h pre c post hline hmisreads
  · intro h pre c post hline hmisreads
    have hright : ∀ pre c post, cStr line = pre ++ c :: post →
        ¬ (read pre).1.Misreads c (backslashes pre) :=
      fun pre c post hline hmisreads => h ⟨pre, c, post, hline, hmisreads⟩
    have hplace := place_scan (.inr hright) pre (c :: post) hline
    rw [hplace] at hmisreads
    exact hright pre c post hline hmisreads

/-- In `x\"y z` the escaped quote opens a section. -/
theorem not_escapesRespected :
    ¬ ∀ line : String, NulFree line → EscapesRespected line.toList := by
  intro h
  have hrespected := h "x\\\"y z" (by decide)
  have hclosed := hrespected.opening ['x', '\\'] '"' ['y', ' ', 'z'] (by decide) (by decide)
    (by decide) (by decide)
  exact absurd hclosed (by decide)

end FepControl
