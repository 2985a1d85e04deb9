/-
  The tokenizer of the FEP control tool: `control_tool_common_helper.h` (`quoteNameIfNecessary`,
  `unEscape`) and the line splitter of `helper.cpp` (`skipWhitespaces`, `getNextWord`, `parseLine`).

  Everything a user types goes through these functions before any command sees it, and every name
  that the tool completes is spelled by one of them for another to read.  They are written with raw
  pointers, nested loops that share a loop variable, and flags for what the last character was.  The
  definitions below keep all of that, since what goes wrong in them goes wrong in the flags.

  1. **Pointers** -- the source walks a NUL-terminated `const char*`.  Here a pointer is the list of
     characters it still has in front of it: `*p` is the head, `p++` is the tail, the terminating
     NUL is `[]`, and two pointers into one line are equal exactly when the lists are.

  2. **Loops** -- every loop of the source is a structural recursion over the pointer, so the
     definitions run in the kernel.  The two nested loops of an unquoted word (`while` around `do
     ... while`) are ONE recursion that carries the place in the loop body as a `Phase`.

  3. **Progress** -- a word takes at least one character off the line (`getNextWord_length_lt`), so
     that the loop of `parseLine` needs no more rounds than the line has characters, and more rounds
     change nothing (`parseLoop_congr`).

  4. **Characters** -- what is in a token was in the line, up to a backslash, and no token has a NUL
     in it (`nulFree_of_mem_parseLine`).

  5. **Alphabet** -- a `char` is a Lean `Char`; a byte is a `Char` below 256, and nothing here
     depends on the bound.  `isspace` is the one of the "C" locale.
-/

namespace FepControl

/-! ## `control_tool_common_helper.h` -/

/-- `std::isspace` of the "C" locale: space, `\t`, `\n`, `\v`, `\f`, `\r`. -/
def isspace (c : Char) : Bool :=
  c == ' ' || c == '\t' || c == '\n' || c == '\x0b' || c == '\x0c' || c == '\r'

/-- `c == '"' || c == '\\'`, the characters `quoteNameIfNecessary` puts a backslash before. -/
def needsBackslash (c : Char) : Bool := c == '"' || c == '\\'

/-- The copying loop of `quoteNameIfNecessary`. -/
def escape : List Char → List Char
  | [] => []
  | c :: name => if needsBackslash c then '\\' :: c :: escape name else c :: escape name

/-- `need_quotes`: the name is empty or holds whitespace. -/
def needQuotes (name : List Char) : Bool := name.isEmpty || name.any isspace

/-- `quoteNameIfNecessary`: the spelling of a name as one word of a command line. -/
def quoteNameIfNecessary (name : String) : String :=
  let need_quotes := needQuotes name.toList
  let need_backslash := name.toList.any needsBackslash
  if !need_quotes && !need_backslash then name
  else
    let quoted_name := escape name.toList
    String.ofList (if need_quotes then '"' :: (quoted_name ++ ['"']) else quoted_name)

/-- The loop of `unEscape`, with `escape_active`; the backslash of an escape that never gets its
    character is put back at the end. -/
def unEscapeFrom : (escape_active : Bool) → List Char → List Char
  | true, [] => ['\\']
  | false, [] => []
  | escape_active, c :: name =>
      if escape_active || c != '\\' then c :: unEscapeFrom false name else unEscapeFrom true name

/-- `unEscape`. -/
def unEscape (name : List Char) : List Char := unEscapeFrom false name

/-! ## `helper.cpp`: one word -/

/-- `skipWhitespaces` (the callers pass no additional white characters). -/
def skipWhitespaces (p : List Char) : List Char := p.dropWhile isspace

/-- `*src == '"' || *src == '\''`. -/
def isQuote (c : Char) : Bool := c == '"' || c == '\''

/-- `escape_active = use_escape && (*src == '\\' && last_char != '\\')`, with the default
    `use_escape`. -/
def escapesNext (last_char c : Char) : Bool := c == '\\' && last_char != '\\'

/-- `src++` past a character that belongs to the word. -/
def consume (c : Char) (scanned : List Char × List Char) : List Char × List Char :=
  (c :: scanned.1, scanned.2)

/-- The loop over a quoted word: the body up to the closing quote, and the pointer at that quote
    (or at the end of the line). -/
def quotedWord (quote : Char) :
    (escape_active : Bool) → (last_char : Char) → List Char → List Char × List Char
  | _, _, [] => ([], [])
  | escape_active, last_char, c :: src =>
      if escape_active || c != quote then
        consume c (quotedWord quote (escapesNext last_char c) c src)
      else ([], c :: src)

/-- Where the scan of an unquoted word stands. -/
inductive Phase where
  /-- at the head of the outer `while` -/
  | head
  /-- right after its `src++`, at the test for an embedded quote -/
  | stepped
  /-- at the condition of the inner `do ... while`, inside an embedded quotation -/
  | embedded (quote : Char) (escape_active : Bool)

/-- The nested loops over an unquoted word: the word, and the pointer behind it. -/
def unquotedWord : Phase → (last_char : Char) → List Char → List Char × List Char
  | _, _, [] => ([], [])
  | .head, last_char, c :: src =>
      if isspace c then ([], c :: src)
      else consume c (unquotedWord .stepped last_char src)
  | .stepped, last_char, c :: src =>
      if isQuote c then
        -- the `do` body runs once on the opening quote itself
        consume c (unquotedWord (.embedded c (escapesNext last_char c)) c src)
      else if isspace c then ([], c :: src)
      else consume c (unquotedWord .stepped last_char src)
  | .embedded quote escape_active, last_char, c :: src =>
      if escape_active || c != quote then
        consume c (unquotedWord (.embedded quote (escapesNext last_char c)) c src)
      -- the closing quote is an ordinary character of the outer loop
      else if isspace c then ([], c :: src)
      else consume c (unquotedWord .stepped last_char src)

/-- `getNextWord`: the raw word, if the line still has one, and the advanced pointer. -/
def getNextWord (src : List Char) : Option (List Char) × List Char :=
  match skipWhitespaces src with
  | [] => (none, [])
  | c :: src =>
      if isQuote c then
        -- the loop stops at the end of the line or at the closing quote, which is stepped over
        let scanned := quotedWord c false '\x00' src
        (some scanned.1, scanned.2.tail)
      else
        let scanned := unquotedWord .head '\x00' (c :: src)
        (some scanned.1, scanned.2)

/-! ## `helper.cpp`: the line -/

/-- What a `const char*` shows of a string: the characters before the first NUL. -/
def cStr (line : String) : List Char := line.toList.takeWhile (· != '\x00')

/-- The loop of `parseLine` from pointer `p` with `last_p`: the words, and the final pair
    `(last_p, p)`.  Every round moves `p` forward, so `fuel` bounds the rounds once it exceeds the
    length of the line (`parseLoop_congr`). -/
def parseLoop : (fuel : Nat) → (last_p p : List Char) → List (List Char) × List Char × List Char
  | 0, last_p, p => ([], last_p, p)
  | fuel + 1, last_p, p =>
      match getNextWord p with
      | (none, p') => ([], last_p, p')
      | (some word, p') =>
          let (words, ps) := parseLoop fuel p' p'
          (unEscape word :: words, ps)

/-- `parseLine`. -/
def parseLine (line : String) (add_empty : Bool := false) : List String :=
  let p := cStr line
  let (words, last_p, p') := parseLoop (p.length + 1) p p
  let words := words.map String.ofList
  if add_empty && last_p != p' then words ++ [""] else words

/-- A string without NUL, which `c_str()` shows whole. -/
def NulFree (s : String) : Prop := '\x00' ∉ s.toList

instance (s : String) : Decidable (NulFree s) := inferInstanceAs (Decidable (¬ _))

theorem takeWhile_nul : ∀ cs : List Char, '\x00' ∉ cs → cs.takeWhile (· != '\x00') = cs
  | [], _ => rfl
  | c :: cs, h => by
      obtain ⟨hc, hcs⟩ := not_or.mp (mt List.mem_cons.mpr h)
      rw [List.takeWhile_cons_of_pos (by simpa using Ne.symm hc), takeWhile_nul cs hcs]

/-- A string without a NUL is all of its C string. -/
theorem cStr_of_nulFree {s : String} (h : NulFree s) : cStr s = s.toList :=
  takeWhile_nul s.toList h

/-! ## Characters -/

/-- A quote is no whitespace. -/
theorem not_isspace_of_isQuote {c : Char} (h : isQuote c = true) : isspace c = false := by
  rw [isQuote, Bool.or_eq_true, beq_iff_eq, beq_iff_eq] at h
  rcases h with rfl | rfl
  · rfl
  · rfl

theorem not_isQuote_of_isspace {c : Char} (h : isspace c = true) : isQuote c = false := by
  cases hquote : isQuote c with
  | false => rfl
  | true => exact absurd ((not_isspace_of_isQuote hquote).symm.trans h) Bool.false_ne_true

/-- A quote does not escape what follows it. -/
theorem escapesNext_of_isQuote {c : Char} (h : isQuote c = true) (last_char : Char) :
    escapesNext last_char c = false := by
  rw [isQuote, Bool.or_eq_true, beq_iff_eq, beq_iff_eq] at h
  rcases h with rfl | rfl
  · rfl
  · rfl

/-- What closes a section is its quote. -/
theorem eq_of_closes {quote c : Char} {escape_active : Bool}
    (h : ¬ (escape_active || c != quote) = true) : c = quote := by
  rw [Bool.or_eq_true, not_or, bne_iff_ne] at h
  exact Classical.not_not.mp h.2

/-! ## The pointer moves forward

  `quotedWord` and `unquotedWord` return a pointer into the rest of the line, and a successful
  `getNextWord` returns one strictly behind the character it started with, so the fuel of
  `parseLoop` never runs out. -/

@[simp] theorem consume_fst (c : Char) (w : List Char × List Char) :
    (consume c w).1 = c :: w.1 := rfl

@[simp] theorem consume_snd (c : Char) (w : List Char × List Char) : (consume c w).2 = w.2 := rfl

/-- The word and the rest make up what was scanned. -/
theorem quotedWord_append (quote : Char) : ∀ (src : List Char) (escape_active : Bool)
    (last_char : Char), (quotedWord quote escape_active last_char src).1 ++
      (quotedWord quote escape_active last_char src).2 = src
  | [], _, _ => rfl
  | c :: src, escape_active, last_char => by
      rw [quotedWord]
      split
      · exact congrArg (c :: ·) (quotedWord_append quote src (escapesNext last_char c) c)
      · rfl

/-- What an unquoted word has read and what it has left are what was there. -/
theorem unquotedWord_append : ∀ (src : List Char) (phase : Phase) (last_char : Char),
    (unquotedWord phase last_char src).1 ++ (unquotedWord phase last_char src).2 = src
  | [], .head, _ | [], .stepped, _ | [], .embedded _ _, _ => rfl
  | c :: src, phase, last_char => by
      have hstep := fun ph l => congrArg (c :: ·) (unquotedWord_append src ph l)
      cases phase with
      | head =>
        rw [unquotedWord]
        split
        · rfl
        · exact hstep _ _
      | stepped =>
        rw [unquotedWord]
        split
        · exact hstep _ _
        · split
          · rfl
          · exact hstep _ _
      | embedded quote escape_active =>
        rw [unquotedWord]
        split
        · exact hstep _ _
        · split
          · rfl
          · exact hstep _ _

/-- A quoted word leaves no more than there was. -/
theorem quotedWord_length_le (quote : Char) (src : List Char) (escape_active : Bool)
    (last_char : Char) : (quotedWord quote escape_active last_char src).2.length ≤ src.length := by
  have h := congrArg List.length (quotedWord_append quote src escape_active last_char)
  rw [List.length_append] at h
  omega

theorem unquotedWord_length_le (src : List Char) (phase : Phase) (last_char : Char) :
    (unquotedWord phase last_char src).2.length ≤ src.length := by
  have h := congrArg List.length (unquotedWord_append src phase last_char)
  rw [List.length_append] at h
  omega

/-- What `skipWhitespaces` stops at is not whitespace. -/
theorem isspace_of_skipWhitespaces {p src : List Char} {c : Char}
    (h : skipWhitespaces p = c :: src) : isspace c = false := by
  have := List.head?_dropWhile_not isspace p
  rw [show p.dropWhile isspace = c :: src from h] at this
  simpa using this

/-- **Progress**: a word read moves the pointer strictly forward. -/
theorem getNextWord_length_lt {p p' word : List Char} (h : getNextWord p = (some word, p')) :
    p'.length < p.length := by
  have hskip : (skipWhitespaces p).length ≤ p.length := (List.dropWhile_suffix _).length_le
  unfold getNextWord at h
  split at h
  · simp at h
  · rename_i c src hc
    have hspace := isspace_of_skipWhitespaces hc
    rw [hc, List.length_cons] at hskip
    split at h
    · obtain ⟨-, rfl⟩ := Prod.mk.inj h
      have := quotedWord_length_le c src false '\x00'
      rw [List.length_tail]; omega
    · obtain ⟨-, rfl⟩ := Prod.mk.inj h
      have := unquotedWord_length_le src .stepped '\x00'
      rw [unquotedWord, if_neg (by simp [hspace]), consume_snd]; omega

/-- The loop ends with the first word that is not there. -/
theorem parseLoop_none {p p' : List Char} (h : getNextWord p = (none, p')) (fuel : Nat)
    (last_p : List Char) : parseLoop (fuel + 1) last_p p = ([], last_p, p') := by
  rw [parseLoop, h]

/-- A round of the loop unescapes one word and goes on behind it. -/
theorem parseLoop_some {p p' word : List Char} (h : getNextWord p = (some word, p')) (fuel : Nat)
    (last_p : List Char) :
    parseLoop (fuel + 1) last_p p =
      (unEscape word :: (parseLoop fuel p' p').1, (parseLoop fuel p' p').2) := by
  rw [parseLoop, h]

/-- Fuel irrelevance: any fuel above the length of the line gives the same words. -/
theorem parseLoop_congr : ∀ (f f' : Nat) (last_p p : List Char), p.length < f → p.length < f' →
    parseLoop f last_p p = parseLoop f' last_p p := by
  intro f
  induction f with
  | zero => intro f' last_p p hf; exact absurd hf (Nat.not_lt_zero _)
  | succ f ih =>
    intro f' last_p p hf hf'
    cases f' with
    | zero => exact absurd hf' (Nat.not_lt_zero _)
    | succ f' =>
      rcases hword : getNextWord p with ⟨_ | word, p'⟩
      · rw [parseLoop_none hword, parseLoop_none hword]
      · have := getNextWord_length_lt hword
        rw [parseLoop_some hword, parseLoop_some hword, ih f' p' p' (by omega) (by omega)]

/-! ## The tokens are made of the line

  Every character of a token is a character of the line, so a token holds no NUL: the line ends
  at its first one. -/

/-- A word that is read, and the rest of the line, are made of the line. -/
theorem mem_of_getNextWord {p p' word : List Char} (h : getNextWord p = (some word, p')) {c : Char}
    (hc : c ∈ word ∨ c ∈ p') : c ∈ p := by
  have hskip : ∀ d, d ∈ skipWhitespaces p → d ∈ p := fun _ h => (List.dropWhile_suffix _).subset h
  unfold getNextWord at h
  split at h
  · simp at h
  · rename_i d src hd
    refine hskip c (hd ▸ ?_)
    split at h
    · obtain ⟨hword, rfl⟩ := Prod.mk.inj h
      obtain rfl := Option.some.inj hword
      refine List.mem_cons_of_mem d ?_
      rw [← quotedWord_append d src false '\x00', List.mem_append]
      exact hc.imp id List.mem_of_mem_tail
    · obtain ⟨hword, rfl⟩ := Prod.mk.inj h
      obtain rfl := Option.some.inj hword
      rw [← unquotedWord_append (d :: src) .head '\x00', List.mem_append]
      exact hc

/-- Taking the backslashes off adds no character but a backslash. -/
theorem mem_unEscapeFrom : ∀ (word : List Char) (escape_active : Bool) {c : Char},
    c ∈ unEscapeFrom escape_active word → c = '\\' ∨ c ∈ word
  | [], true, _, h => .inl (List.mem_singleton.mp h)
  | [], false, _, h => absurd h List.not_mem_nil
  | d :: word, escape_active, c, h => by
      rw [unEscapeFrom] at h
      split at h
      · rcases List.mem_cons.mp h with rfl | h
        · exact .inr List.mem_cons_self
        · exact (mem_unEscapeFrom word false h).imp_right (List.mem_cons_of_mem d)
      · exact (mem_unEscapeFrom word true h).imp_right (List.mem_cons_of_mem d)

/-- The characters of the tokens are those of the line; nothing is said of backslashes. -/
theorem mem_parseLoop : ∀ (fuel : Nat) (last_p p : List Char) {word : List Char} {c : Char},
    word ∈ (parseLoop fuel last_p p).1 → c ∈ word → c = '\\' ∨ c ∈ p
  | fuel + 1, last_p, p, word, c, hword, hc => by
      rcases hnext : getNextWord p with ⟨_ | next, p'⟩
      · rw [parseLoop_none hnext] at hword
        exact absurd hword List.not_mem_nil
      · rw [parseLoop_some hnext] at hword
        rcases List.mem_cons.mp hword with rfl | hword
        · exact (mem_unEscapeFrom next false hc).imp_right fun h =>
            mem_of_getNextWord hnext (.inl h)
        · exact (mem_parseLoop fuel p' p' hword hc).imp_right fun h =>
            mem_of_getNextWord hnext (.inr h)

theorem nul_not_mem_takeWhile : ∀ cs : List Char, '\x00' ∉ cs.takeWhile (· != '\x00')
  | [] => List.not_mem_nil
  | c :: cs => by
      rw [List.takeWhile_cons]
      split
      · rename_i hc
        intro h
        rcases List.mem_cons.mp h with rfl | h
        · exact absurd hc (by decide)
        · exact nul_not_mem_takeWhile cs h
      · exact List.not_mem_nil

/-- No token holds a NUL. -/
theorem nulFree_of_mem_parseLine {line token : String} {add_empty : Bool}
    (h : token ∈ parseLine line add_empty) : NulFree token := by
  have hword : ∀ word, word ∈ (parseLoop ((cStr line).length + 1) (cStr line) (cStr line)).1 →
      NulFree (String.ofList word) := by
    intro word hword hc
    rw [String.toList_ofList] at hc
    rcases mem_parseLoop _ _ _ hword hc with hc | hc
    · exact absurd hc (by decide)
    · exact nul_not_mem_takeWhile line.toList hc
  have hwords : ∀ token', token' ∈ (parseLoop ((cStr line).length + 1) (cStr line)
      (cStr line)).1.map String.ofList → NulFree token' := by
    intro token' h
    obtain ⟨word, hmem, rfl⟩ := List.mem_map.mp h
    exact hword word hmem
  simp only [parseLine] at h
  split at h
  · rcases List.mem_append.mp h with h | h
    · exact hwords token h
    · obtain rfl := List.mem_singleton.mp h
      decide
  · exact hwords token h

end FepControl
