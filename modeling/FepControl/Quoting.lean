/-
  Quoting a name and reading it back.

  A command line is built by joining `quoteNameIfNecessary n` for a list of names with single
  spaces; `parseLine` is expected to give the names back.  It does so for a name that needs no
  care, but the encoder and the scanner disagree about quotes:

  1. **A wrapped name** (`needQuotes`) is read by `quotedWord`, which keeps only ONE character of
     memory.  `\"` in the name is encoded `\\\"`, whose third backslash the scanner takes for the
     second of a pair, so the word ends there (`backslashQuote`).

  2. **An unwrapped name** is read by `unquotedWord`, which opens an embedded quotation at ANY
     quote character, escaped or not.  A quotation that is still open at the end of the name runs
     on into the next word (`quotationsClose`), and a leading `'` turns the name into a quoted
     word.

  `parseLine_commandLine_iff` says that nothing else goes wrong: the names come back exactly when
  every one of them is `Readable` and every one but the last is `Closed`.  Both are read off the
  characters of the name.  The crux are two step lemmas that follow the scanner over the encoding
  of one character (`quotedWord_escape_cons`, `unquotedWord_escape_cons`); the scanner state
  between two encoded characters is the state of a scan over the name itself.
-/
import FepControl.Tokenizer

namespace FepControl

/-! ## `escape` and `unEscape` -/

theorem escape_cons_of_needs {c : Char} (h : needsBackslash c = true) (n : List Char) :
    escape (c :: n) = '\\' :: c :: escape n := by rw [escape, if_pos h]

theorem escape_cons_of_not {c : Char} (h : needsBackslash c = false) (n : List Char) :
    escape (c :: n) = c :: escape n := by rw [escape, if_neg (by simp [h])]

/-- What `unEscape` makes of an escaped name in front of anything. -/
theorem unEscape_escape_append : ∀ (n r : List Char), unEscape (escape n ++ r) = n ++ unEscape r
  | [], _ => rfl
  | c :: n, r => by
      by_cases hc : needsBackslash c = true
      · rw [escape_cons_of_needs hc]
        show c :: unEscape (escape n ++ r) = _
        rw [unEscape_escape_append n r]; rfl
      · rw [escape_cons_of_not (by simpa using hc)]
        have hne : c ≠ '\\' := by rintro rfl; exact hc rfl
        have hstep : unEscape (c :: (escape n ++ r)) = c :: unEscape (escape n ++ r) := by
          rw [unEscape, unEscapeFrom, if_pos (by simpa using hne)]; rfl
        rw [List.cons_append, hstep, unEscape_escape_append n r]; rfl

/-- What is escaped is unescaped again. -/
theorem unEscape_escape (n : List Char) : unEscape (escape n) = n := by
  have h := unEscape_escape_append n []
  rw [List.append_nil] at h
  rw [h]; exact List.append_nil n

theorem escape_of_none_needs : ∀ n : List Char, n.any needsBackslash = false → escape n = n
  | [], _ => rfl
  | c :: n, h => by
      rw [List.any_cons, Bool.or_eq_false_iff] at h
      rw [escape_cons_of_not h.1, escape_of_none_needs n h.2]

/-- The characters of a quoted name. -/
theorem toList_quoteNameIfNecessary (name : String) :
    (quoteNameIfNecessary name).toList =
      if needQuotes name.toList then '"' :: (escape name.toList ++ ['"'])
      else escape name.toList := by
  unfold quoteNameIfNecessary
  dsimp only
  split
  · rename_i h
    rw [Bool.and_eq_true, Bool.not_eq_true', Bool.not_eq_true'] at h
    rw [if_neg (by simp [h.1]), escape_of_none_needs _ h.2]
  · rw [String.toList_ofList]

/-- An escaped name does not start with a double quote. -/
theorem head?_escape_ne (n : List Char) : (escape n).head? ≠ some '"' := by
  cases n with
  | nil => exact nofun
  | cons c n =>
    by_cases hc : needsBackslash c = true
    · rw [escape_cons_of_needs hc]
      simp
    · have hc' : needsBackslash c = false := Bool.eq_false_iff.mpr hc
      rw [escape_cons_of_not hc']
      intro h
      obtain rfl : c = '"' := Option.some.inj h
      exact hc rfl

/-! ## One name and back -/

/-- A spelling without the quotes that are added around it, if it starts with one. -/
def withoutQuotes (quoted : List Char) : List Char :=
  if quoted.head? = some '"' then quoted.tail.dropLast else quoted

/-- The name that a spelling stands for. -/
def unquote (quoted : String) : String := String.ofList (unEscape (withoutQuotes quoted.toList))

/-- A spelling starts with a double quote only if it is an added one. -/
theorem head?_quoteNameIfNecessary (name : String) :
    (quoteNameIfNecessary name).toList.head? = some '"' ↔ needQuotes name.toList = true := by
  rw [toList_quoteNameIfNecessary]
  by_cases hq : needQuotes name.toList = true
  · rw [if_pos hq]
    exact iff_of_true rfl hq
  · rw [if_neg hq]
    exact iff_of_false (head?_escape_ne _) hq

/-- What the added quotes are around. -/
theorem withoutQuotes_quoteNameIfNecessary (name : String) :
    withoutQuotes (quoteNameIfNecessary name).toList = escape name.toList := by
  unfold withoutQuotes
  by_cases hq : needQuotes name.toList = true
  · rw [if_pos ((head?_quoteNameIfNecessary name).mpr hq), toList_quoteNameIfNecessary, if_pos hq,
      List.tail_cons, List.dropLast_concat]
  · rw [if_neg fun h => hq ((head?_quoteNameIfNecessary name).mp h), toList_quoteNameIfNecessary,
      if_neg hq]

/-- A name comes back from its spelling alone. -/
theorem unquote_quoteNameIfNecessary (name : String) :
    unquote (quoteNameIfNecessary name) = name := by
  rw [unquote, withoutQuotes_quoteNameIfNecessary, unEscape_escape, String.ofList_toList]

/-- Different names are spelled differently. -/
theorem quoteNameIfNecessary_injective : Function.Injective quoteNameIfNecessary :=
  Function.LeftInverse.injective unquote_quoteNameIfNecessary

/-! ## The scan of a wrapped name -/

/-- A double quote directly behind a backslash, `last_char` being the character before the name. -/
def backslashQuote : (last_char : Char) → List Char → Bool
  | _, [] => false
  | last_char, c :: n => last_char == '\\' && c == '"' || backslashQuote c n

/-- One encoded character inside a wrapped name, unless it is a `"` behind a backslash. -/
theorem quotedWord_escape_cons {last_char c : Char} (h : (last_char == '\\' && c == '"') = false)
    (n r : List Char) :
    quotedWord '"' false last_char (escape (c :: n) ++ r) =
      (escape [c] ++ (quotedWord '"' false c (escape n ++ r)).1,
        (quotedWord '"' false c (escape n ++ r)).2) := by
  by_cases hq : c = '"'
  · subst hq
    have hl : (last_char != '\\') = true := by
      rw [bne, Bool.not_eq_true']; simpa using h
    show quotedWord '"' false last_char ('\\' :: '"' :: (escape n ++ r)) = _
    rw [quotedWord, if_pos (by decide), escapesNext, hl, Bool.and_true, beq_self_eq_true,
      quotedWord, if_pos (by decide)]
    rfl
  · by_cases hb : c = '\\'
    · subst hb
      show quotedWord '"' false last_char ('\\' :: '\\' :: (escape n ++ r)) = _
      rw [quotedWord, if_pos (by decide), quotedWord, if_pos (by simp)]
      rfl
    · have hn : needsBackslash c = false := by simp [needsBackslash, hq, hb]
      rw [escape_cons_of_not hn, escape_cons_of_not hn, List.cons_append, quotedWord,
        if_pos (by simpa using hq), escapesNext, beq_false_of_ne hb, Bool.false_and]
      rfl

/-- A wrapped name without `\"` is scanned up to its closing quote. -/
theorem quotedWord_escape : ∀ (n : List Char) (last_char : Char) (r : List Char),
    backslashQuote last_char n = false →
    quotedWord '"' false last_char (escape n ++ '"' :: r) = (escape n, '"' :: r)
  | [], _, _, _ => rfl
  | c :: n, last_char, r, h => by
      rw [backslashQuote, Bool.or_eq_false_iff] at h
      rw [quotedWord_escape_cons h.1, quotedWord_escape n c r h.2]
      by_cases hc : needsBackslash c = true
      · rw [escape_cons_of_needs hc, escape_cons_of_needs hc]; rfl
      · rw [escape_cons_of_not (by simpa using hc), escape_cons_of_not (by simpa using hc)]; rfl

/-- **The wrapped name that breaks**: at the first `\"` the scan stops in front of the quote, with
    the backslash of its escape left at the end of the body. -/
theorem quotedWord_backslashQuote : ∀ (n : List Char) (last_char : Char) (r : List Char),
    backslashQuote last_char n = true →
    ∃ n₁ n₂, n = n₁ ++ '"' :: n₂ ∧
      (quotedWord '"' false last_char (escape n ++ r)).1 = escape n₁ ++ ['\\']
  | [], _, _, h => nomatch h
  | c :: n, last_char, r, h => by
      by_cases hc : (last_char == '\\' && c == '"') = true
      · rw [Bool.and_eq_true, beq_iff_eq, beq_iff_eq] at hc
        obtain ⟨rfl, rfl⟩ := hc
        exact ⟨[], n, rfl, rfl⟩
      · have hc' : (last_char == '\\' && c == '"') = false := by simpa using hc
        rw [backslashQuote, hc', Bool.false_or] at h
        obtain ⟨n₁, n₂, rfl, hbody⟩ := quotedWord_backslashQuote n c r h
        refine ⟨c :: n₁, n₂, rfl, ?_⟩
        rw [quotedWord_escape_cons hc', hbody]
        by_cases hn : needsBackslash c = true
        · rw [escape_cons_of_needs hn, escape_cons_of_needs hn]; rfl
        · rw [escape_cons_of_not (by simpa using hn), escape_cons_of_not (by simpa using hn)]; rfl

/-! ## The scan of an unwrapped name

  Between two encoded characters the scanner is either outside every quotation or inside one with
  `escape_active` false, so its state is the open quote (if any) and the last character of the
  NAME. -/

/-- The open quotation after one more character of the name: any quote opens one; `'` closes at
    the next `'`, `"` only at a `"` that stands directly behind a backslash. -/
def nextQuote (quote : Option Char) (last_char c : Char) : Option Char :=
  match quote with
  | none => if isQuote c then some c else none
  | some q => if c == q && (q == '\'' || last_char == '\\') then none else some q

/-- Every quotation that the name opens is closed again inside the name. -/
def quotationsClose : (quote : Option Char) → (last_char : Char) → List Char → Bool
  | quote, _, [] => quote.isNone
  | quote, last_char, c :: n => quotationsClose (nextQuote quote last_char c) c n

/-- The scanner phase of an open quotation. -/
def phaseOf : Option Char → Phase
  | none => .stepped
  | some q => .embedded q false

/-- Outside a quotation `last_char` is dead: opening one overwrites it. -/
theorem unquotedWord_stepped_congr : ∀ (src : List Char) (l l' : Char),
    unquotedWord .stepped l src = unquotedWord .stepped l' src
  | [], _, _ => rfl
  | c :: src, l, l' => by
      rw [unquotedWord, unquotedWord]
      by_cases hq : isQuote c = true
      · rw [if_pos hq, if_pos hq, escapesNext_of_isQuote hq, escapesNext_of_isQuote hq]
      · rw [if_neg hq, if_neg hq, unquotedWord_stepped_congr src l l']

/-- One encoded character outside every quotation. -/
theorem unquotedWord_escape_cons_none {c : Char} (hs : isspace c = false) (last_char : Char)
    (n r : List Char) :
    unquotedWord .stepped last_char (escape (c :: n) ++ r) =
      (escape [c] ++ (unquotedWord (phaseOf (nextQuote none last_char c)) c (escape n ++ r)).1,
        (unquotedWord (phaseOf (nextQuote none last_char c)) c (escape n ++ r)).2) := by
  by_cases hn : needsBackslash c = true
  · rw [escape_cons_of_needs hn, escape_cons_of_needs hn, List.cons_append, unquotedWord,
      if_neg (by decide), if_neg (by decide), List.cons_append, unquotedWord]
    by_cases hq : isQuote c = true
    · rw [if_pos hq, escapesNext_of_isQuote hq, nextQuote, if_pos hq]; rfl
    · rw [if_neg hq, if_neg (by simp [hs]), nextQuote, if_neg hq,
        unquotedWord_stepped_congr _ last_char c]; rfl
  · have hn' : needsBackslash c = false := by simpa using hn
    rw [escape_cons_of_not hn', escape_cons_of_not hn', List.cons_append, unquotedWord]
    by_cases hq : isQuote c = true
    · rw [if_pos hq, escapesNext_of_isQuote hq, nextQuote, if_pos hq]; rfl
    · rw [if_neg hq, if_neg (by simp [hs]), nextQuote, if_neg hq,
        unquotedWord_stepped_congr _ last_char c]; rfl

/-- One encoded character inside a quotation. -/
theorem unquotedWord_escape_cons_some {q c : Char} (hq : isQuote q = true)
    (hs : isspace c = false) (last_char : Char) (n r : List Char) :
    unquotedWord (.embedded q false) last_char (escape (c :: n) ++ r) =
      (escape [c] ++
          (unquotedWord (phaseOf (nextQuote (some q) last_char c)) c (escape n ++ r)).1,
        (unquotedWord (phaseOf (nextQuote (some q) last_char c)) c (escape n ++ r)).2) := by
  have hqb : ('\\' != q) = true := by
    rw [bne_iff_ne]; rintro rfl; exact absurd hq (by decide)
  by_cases hb : c = '\\'
  · subst hb
    have hnext : nextQuote (some q) last_char '\\' = some q := by
      rw [nextQuote, if_neg]
      rw [Bool.and_eq_true, beq_iff_eq]; rintro ⟨rfl, -⟩; exact absurd hq (by decide)
    show unquotedWord (.embedded q false) last_char ('\\' :: '\\' :: (escape n ++ r)) = _
    rw [hnext, unquotedWord, if_pos (by simpa using hqb), unquotedWord, if_pos (by simp [hqb])]
    rfl
  · by_cases hd : c = '"'
    · subst hd
      show unquotedWord (.embedded q false) last_char ('\\' :: '"' :: (escape n ++ r)) = _
      rw [unquotedWord, if_pos (by simpa using hqb), unquotedWord]
      by_cases hclose : q = '"' ∧ last_char = '\\'
      · -- the backslash before the quote is the second of a pair for the scanner: it closes
        obtain ⟨rfl, rfl⟩ := hclose
        rw [if_neg (by decide), if_neg (by decide), unquotedWord_stepped_congr _ '\\' '"']
        rfl
      · have hgo : (escapesNext last_char '\\' || '"' != q) = true := by
          rw [Bool.or_eq_true, escapesNext, beq_self_eq_true, Bool.true_and, bne_iff_ne, bne_iff_ne]
          by_cases hl : last_char = '\\'
          · exact Or.inr fun h => hclose ⟨h.symm, hl⟩
          · exact Or.inl hl
        have hnext : nextQuote (some q) last_char '"' = some q := by
          rw [nextQuote, if_neg]
          rw [Bool.and_eq_true, beq_iff_eq, Bool.or_eq_true, beq_iff_eq, beq_iff_eq]
          rintro ⟨rfl, h | h⟩
          · exact absurd h (by decide)
          · exact hclose ⟨rfl, h⟩
        rw [if_pos hgo, hnext]; rfl
    · have hn : needsBackslash c = false := by simp [needsBackslash, hd, hb]
      rw [escape_cons_of_not hn, escape_cons_of_not hn, List.cons_append, unquotedWord]
      by_cases hc : c = q
      · -- only `'` is left as a quote that is not escaped
        subst hc
        have hsq : c = '\'' := by simpa [isQuote, hd] using hq
        subst hsq
        rw [if_neg (by decide), if_neg (by decide), unquotedWord_stepped_congr _ last_char '\'']
        rfl
      · have hnext : nextQuote (some q) last_char c = some q := by
          rw [nextQuote, if_neg (by simp [hc])]
        rw [if_pos (by simpa using hc), hnext, escapesNext, beq_false_of_ne hb, Bool.false_and]
        rfl

/-- One encoded character of an unwrapped name moves the scanner as `nextQuote` says. -/
theorem unquotedWord_escape_cons {quote : Option Char} (hq : ∀ q ∈ quote, isQuote q = true)
    {c : Char} (hs : isspace c = false) (last_char : Char) (n r : List Char) :
    unquotedWord (phaseOf quote) last_char (escape (c :: n) ++ r) =
      (escape [c] ++ (unquotedWord (phaseOf (nextQuote quote last_char c)) c (escape n ++ r)).1,
        (unquotedWord (phaseOf (nextQuote quote last_char c)) c (escape n ++ r)).2) := by
  cases quote with
  | none => exact unquotedWord_escape_cons_none hs last_char n r
  | some q => exact unquotedWord_escape_cons_some (hq q rfl) hs last_char n r

/-- An open quotation is opened by a quote. -/
theorem isQuote_nextQuote {quote : Option Char} (hq : ∀ q ∈ quote, isQuote q = true)
    (last_char c : Char) : ∀ q ∈ nextQuote quote last_char c, isQuote q = true := by
  intro q hmem
  unfold nextQuote at hmem
  split at hmem
  · split at hmem
    · rename_i hc
      rw [Option.mem_some_iff] at hmem; subst hmem; exact hc
    · nomatch hmem
  · split at hmem
    · nomatch hmem
    · exact hq q hmem

theorem escape_cons (c : Char) (n : List Char) : escape (c :: n) = escape [c] ++ escape n := by
  by_cases hc : needsBackslash c = true
  · rw [escape_cons_of_needs hc, escape_cons_of_needs hc]; rfl
  · rw [escape_cons_of_not (by simpa using hc), escape_cons_of_not (by simpa using hc)]; rfl

/-- Outside every quotation, whitespace (or the end of the line) ends the word. -/
theorem unquotedWord_stepped_of_space {r : List Char} (hr : ∀ c ∈ r.head?, isspace c = true)
    (last_char : Char) : unquotedWord .stepped last_char r = ([], r) := by
  cases r with
  | nil => rfl
  | cons c r =>
    have hc : isspace c = true := hr c rfl
    have hq : ¬ isQuote c = true := by
      intro hq
      rw [isQuote, Bool.or_eq_true, beq_iff_eq, beq_iff_eq] at hq
      rcases hq with rfl | rfl <;> exact absurd hc (by decide)
    rw [unquotedWord, if_neg hq, if_pos hc]

/-- **The unwrapped name that is read**: all its quotations close, so whitespace ends it. -/
theorem unquotedWord_escape : ∀ (n : List Char) (quote : Option Char) (last_char : Char)
    (r : List Char), (∀ c ∈ n, isspace c = false) → (∀ q ∈ quote, isQuote q = true) →
    (∀ c ∈ r.head?, isspace c = true) → quotationsClose quote last_char n = true →
    unquotedWord (phaseOf quote) last_char (escape n ++ r) = (escape n, r)
  | [], none, last_char, r, _, _, hr, _ => unquotedWord_stepped_of_space hr last_char
  | [], some _, _, _, _, _, _, h => nomatch h
  | c :: n, quote, last_char, r, hs, hq, hr, h => by
      have ih := unquotedWord_escape n (nextQuote quote last_char c) c r
        (fun x hx => hs x (List.mem_cons_of_mem c hx)) (isQuote_nextQuote hq last_char c) hr h
      rw [unquotedWord_escape_cons hq (hs c List.mem_cons_self), ih, escape_cons c n]

/-- At the end of the line a quotation may stay open. -/
theorem unquotedWord_escape_nil : ∀ (n : List Char) (quote : Option Char) (last_char : Char),
    (∀ c ∈ n, isspace c = false) → (∀ q ∈ quote, isQuote q = true) →
    unquotedWord (phaseOf quote) last_char (escape n) = (escape n, [])
  | [], none, _, _, _ => rfl
  | [], some _, _, _, _ => rfl
  | c :: n, quote, last_char, hs, hq => by
      have ih := unquotedWord_escape_nil n (nextQuote quote last_char c) c
        (fun x hx => hs x (List.mem_cons_of_mem c hx)) (isQuote_nextQuote hq last_char c)
      have hstep := unquotedWord_escape_cons hq (hs c List.mem_cons_self) last_char n []
      rw [List.append_nil, List.append_nil] at hstep
      rw [hstep, ih, escape_cons c n]

/-- **The unwrapped name that breaks**: an open quotation takes in the separator. -/
theorem unquotedWord_escape_open : ∀ (n : List Char) (quote : Option Char) (last_char : Char)
    (r : List Char), (∀ c ∈ n, isspace c = false) → (∀ q ∈ quote, isQuote q = true) →
    quotationsClose quote last_char n = false →
    ∃ w, (unquotedWord (phaseOf quote) last_char (escape n ++ ' ' :: r)).1 = escape n ++ ' ' :: w
  | [], none, _, _, _, _, h => nomatch h
  | [], some q, last_char, r, _, hq, _ => by
      have hne : (' ' != q) = true := by
        rw [bne_iff_ne]; rintro rfl; exact absurd (hq ' ' rfl) (by decide)
      refine ⟨(unquotedWord (.embedded q (escapesNext last_char ' ')) ' ' r).1, ?_⟩
      show (unquotedWord (.embedded q false) last_char (' ' :: r)).1 = _
      rw [unquotedWord, if_pos (by simpa using hne)]; rfl
  | c :: n, quote, last_char, r, hs, hq, h => by
      obtain ⟨w, hw⟩ := unquotedWord_escape_open n (nextQuote quote last_char c) c r
        (fun x hx => hs x (List.mem_cons_of_mem c hx)) (isQuote_nextQuote hq last_char c) h
      refine ⟨w, ?_⟩
      rw [unquotedWord_escape_cons hq (hs c List.mem_cons_self), hw, escape_cons c n,
        List.append_assoc]

/-! ## One encoded name at the start of a line -/

/-- The characters of `quoteNameIfNecessary`, as a function of the characters of the name. -/
def encode (n : List Char) : List Char :=
  if needQuotes n then '"' :: (escape n ++ ['"']) else escape n

/-- The scanner gets this name right: no `\"` in a name that is wrapped in quotes, no leading `'`
    in a name that is not. -/
def Readable (n : List Char) : Prop :=
  if needQuotes n then backslashQuote '\x00' n = false else n.head? ≠ some '\''

/-- The scanner is outside every quotation at the end of this name. -/
def Closed (n : List Char) : Prop :=
  needQuotes n = true ∨ quotationsClose none '\x00' n = true

instance (n : List Char) : Decidable (Readable n) :=
  inferInstanceAs (Decidable (if needQuotes n then _ else _))

instance (n : List Char) : Decidable (Closed n) :=
  inferInstanceAs (Decidable (needQuotes n = true ∨ quotationsClose none '\x00' n = true))

/-- A name that is not wrapped has no whitespace. -/
theorem not_isspace_of_not_needQuotes {n : List Char} (h : needQuotes n = false) :
    ∀ c ∈ n, isspace c = false := by
  rw [needQuotes, Bool.or_eq_false_iff, List.any_eq_false] at h
  intro c hc
  simpa using h.2 c hc

/-- A pointer at a character that is neither whitespace nor a quote reads an unquoted word. -/
theorem getNextWord_unquoted {c : Char} (hs : isspace c = false) (hq : isQuote c = false)
    (src : List Char) :
    getNextWord (c :: src) =
      (some (unquotedWord .stepped '\x00' (c :: src)).1,
        (unquotedWord .stepped '\x00' (c :: src)).2) := by
  have hskip : skipWhitespaces (c :: src) = c :: src :=
    List.dropWhile_cons_of_neg (by simp [hs])
  have hhead : unquotedWord .head '\x00' (c :: src) = unquotedWord .stepped '\x00' (c :: src) := by
    rw [unquotedWord, unquotedWord, if_neg (by simp [hs]), if_neg (by simp [hq])]
  rw [getNextWord, hskip]
  show (if isQuote c = true then _ else _) = _
  rw [if_neg (by simp [hq]), hhead]

/-- A pointer at a quote reads a quoted word. -/
theorem getNextWord_quoted {c : Char} (hq : isQuote c = true) (src : List Char) :
    getNextWord (c :: src) =
      (some (quotedWord c false '\x00' src).1, (quotedWord c false '\x00' src).2.tail) := by
  have hs : ¬ isspace c = true := by
    rw [isQuote, Bool.or_eq_true, beq_iff_eq, beq_iff_eq] at hq
    rcases hq with rfl | rfl <;> decide
  rw [getNextWord, show skipWhitespaces (c :: src) = c :: src from List.dropWhile_cons_of_neg hs]
  show (if isQuote c = true then _ else _) = _
  rw [if_pos hq]

/-- A space in front of a word is skipped. -/
theorem getNextWord_space (src : List Char) : getNextWord (' ' :: src) = getNextWord src := by
  rw [getNextWord, getNextWord,
    show skipWhitespaces (' ' :: src) = skipWhitespaces src from List.dropWhile_cons_of_pos rfl]

/-- The first character of an escaped name is no quote, unless the name starts with `'`. -/
theorem escape_head {n : List Char} (hne : n ≠ []) (hsp : ∀ c ∈ n, isspace c = false)
    (hq : n.head? ≠ some '\'') :
    ∃ c s, escape n = c :: s ∧ isspace c = false ∧ isQuote c = false := by
  cases n with
  | nil => exact absurd rfl hne
  | cons c n =>
    by_cases hc : needsBackslash c = true
    · exact ⟨'\\', c :: escape n, escape_cons_of_needs hc n, rfl, rfl⟩
    · have hc' : needsBackslash c = false := by simpa using hc
      refine ⟨c, escape n, escape_cons_of_not hc' n, hsp c List.mem_cons_self, ?_⟩
      rw [needsBackslash, Bool.or_eq_false_iff] at hc'
      rw [isQuote, hc'.1, Bool.false_or, beq_eq_false_iff_ne]
      rintro rfl; exact hq rfl

theorem ne_nil_of_not_needQuotes {n : List Char} (h : needQuotes n = false) : n ≠ [] := by
  rintro rfl; exact absurd h (by decide)

/-- **A good name is read back**, and the pointer is left right behind it. -/
theorem getNextWord_encode {n r : List Char} (hread : Readable n)
    (hr : ∀ c ∈ r.head?, isspace c = true) (hclosed : r = [] ∨ Closed n) :
    getNextWord (encode n ++ r) = (some (escape n), r) := by
  unfold Readable at hread
  unfold encode
  by_cases hw : needQuotes n = true
  · rw [if_pos hw] at hread ⊢
    rw [List.cons_append, getNextWord_quoted rfl, List.append_assoc, List.singleton_append,
      quotedWord_escape n '\x00' r hread]
    rfl
  · have hw' : needQuotes n = false := by simpa using hw
    rw [if_neg hw] at hread ⊢
    have hsp := not_isspace_of_not_needQuotes hw'
    obtain ⟨c, s, hcs, hc, hq⟩ := escape_head (ne_nil_of_not_needQuotes hw') hsp hread
    have hword : unquotedWord .stepped '\x00' (escape n ++ r) = (escape n, r) := by
      rcases hclosed with rfl | hclosed
      · rw [List.append_nil]
        exact unquotedWord_escape_nil n none '\x00' hsp (fun _ h => nomatch h)
      · exact unquotedWord_escape n none '\x00' r hsp (fun _ h => nomatch h) hr
          (hclosed.resolve_left (by simp [hw']))
    rw [hcs, List.cons_append] at hword ⊢
    rw [getNextWord_unquoted hc hq, hword]

theorem unEscape_cons_of_ne {c : Char} (h : c ≠ '\\') (n : List Char) :
    unEscape (c :: n) = c :: unEscape n := by
  rw [unEscape, unEscapeFrom, if_pos (by simpa using h)]; rfl

/-- The body of a word that a leading `'` has turned into a quoted one does not start with `'`
    again, not even after `unEscape`. -/
theorem unEscape_quotedWord_ne {n r m : List Char} (hr : ∀ c ∈ r.head?, isspace c = true) :
    unEscape (quotedWord '\'' false '\x00' (escape n ++ r)).1 ≠ '\'' :: m := by
  cases n with
  | nil =>
    cases r with
    | nil => exact (List.cons_ne_nil _ _).symm
    | cons c r =>
      have hc : isspace c = true := hr c rfl
      have hne : c ≠ '\'' := by rintro rfl; exact absurd hc (by decide)
      have hb : c ≠ '\\' := by rintro rfl; exact absurd hc (by decide)
      show unEscape (quotedWord '\'' false '\x00' (c :: r)).1 ≠ _
      rw [quotedWord, if_pos (by simpa using hne), consume_fst, unEscape_cons_of_ne hb]
      exact fun h => hne (List.cons.inj h).1
  | cons c n =>
    by_cases hc : needsBackslash c = true
    · have hne : c ≠ '\'' := by rintro rfl; exact absurd hc (by decide)
      rw [escape_cons_of_needs hc, List.cons_append, quotedWord, if_pos (by decide),
        List.cons_append, quotedWord, if_pos (by rfl), consume_fst, consume_fst]
      exact fun h => hne (List.cons.inj h).1
    · have hc' : needsBackslash c = false := by simpa using hc
      rw [escape_cons_of_not hc', List.cons_append, quotedWord]
      by_cases hne : c = '\''
      · subst hne; exact (List.cons_ne_nil _ _).symm
      · have hb : c ≠ '\\' := by rintro rfl; exact hc rfl
        rw [if_pos (by simpa using hne), consume_fst, unEscape_cons_of_ne hb]
        exact fun h => hne (List.cons.inj h).1

/-- A name that is not `Readable` is misread, whatever follows it. -/
theorem getNextWord_of_not_readable {n r : List Char} (hread : ¬ Readable n)
    (hr : ∀ c ∈ r.head?, isspace c = true) :
    ∃ w p', getNextWord (encode n ++ r) = (some w, p') ∧ unEscape w ≠ n := by
  unfold Readable at hread
  unfold encode
  by_cases hw : needQuotes n = true
  · rw [if_pos hw] at hread ⊢
    obtain ⟨n₁, n₂, hn, hbody⟩ :=
      quotedWord_backslashQuote n '\x00' ('"' :: r) (by simpa using hread)
    rw [List.cons_append, getNextWord_quoted rfl, List.append_assoc, List.singleton_append]
    refine ⟨_, _, rfl, ?_⟩
    rw [hbody, unEscape_escape_append, hn]
    intro h
    exact absurd (List.cons.inj (List.append_cancel_left h)).1 (by decide)
  · rw [if_neg hw] at hread ⊢
    cases n with
    | nil => exact absurd rfl hw
    | cons c n =>
      have hc : c = '\'' := by simpa using hread
      subst hc
      rw [escape_cons_of_not rfl, List.cons_append, getNextWord_quoted rfl]
      exact ⟨_, _, rfl, unEscape_quotedWord_ne hr⟩

/-- A name whose quotation stays open swallows the separator behind it. -/
theorem getNextWord_of_not_closed {n : List Char} (hread : Readable n) (hclosed : ¬ Closed n)
    (r : List Char) :
    ∃ w p', getNextWord (encode n ++ ' ' :: r) = (some w, p') ∧ unEscape w ≠ n := by
  unfold Closed at hclosed
  obtain ⟨hw, hopen⟩ := not_or.mp hclosed
  have hw' : needQuotes n = false := by simpa using hw
  have hsp := not_isspace_of_not_needQuotes hw'
  unfold Readable at hread
  rw [if_neg hw] at hread
  obtain ⟨c, s, hcs, hc, hq⟩ := escape_head (ne_nil_of_not_needQuotes hw') hsp hread
  obtain ⟨w, hword⟩ := unquotedWord_escape_open n none '\x00' r hsp (fun _ h => nomatch h)
    (by simpa using hopen)
  unfold encode
  rw [if_neg hw]
  refine ⟨escape n ++ ' ' :: w, (unquotedWord .stepped '\x00' (escape n ++ ' ' :: r)).2, ?_, ?_⟩
  · rw [← hword]
    show _ = (some (unquotedWord .stepped '\x00' (escape n ++ ' ' :: r)).1, _)
    rw [hcs, List.cons_append, getNextWord_unquoted hc hq]
  · rw [unEscape_escape_append, unEscape_cons_of_ne (by decide)]
    intro h
    have := congrArg List.length h
    rw [List.length_append, List.length_cons] at this
    omega

/-! ## The whole line -/

/-- The words of a line, without the bookkeeping of `parseLoop`. -/
def readWords (p : List Char) : List (List Char) := (parseLoop (p.length + 1) p p).1

/-- `readWords`, one word at a time. -/
theorem readWords_eq (p : List Char) :
    readWords p = match getNextWord p with
      | (none, _) => []
      | (some w, p') => unEscape w :: readWords p' := by
  unfold readWords
  rcases hw : getNextWord p with ⟨_ | w, p'⟩
  · rw [parseLoop_none hw]
  · have := getNextWord_length_lt hw
    rw [parseLoop_some hw, parseLoop_congr p.length (p'.length + 1) p' p' (by omega) (by omega)]

theorem parseLine_eq_readWords (line : String) :
    parseLine line = (readWords (cStr line)).map String.ofList := rfl

/-- And so it is in front of a line. -/
theorem readWords_space (p : List Char) : readWords (' ' :: p) = readWords p := by
  rw [readWords_eq, getNextWord_space, ← readWords_eq]

/-- The characters of a command line made of names. -/
def encodeLine (ns : List (List Char)) : List Char := [' '].intercalate (ns.map encode)

/-- Everything behind the first name of a command line. -/
def encodeRest : List (List Char) → List Char
  | [] => []
  | ns => ' ' :: encodeLine ns

theorem encodeLine_cons (n : List Char) (ns : List (List Char)) :
    encodeLine (n :: ns) = encode n ++ encodeRest ns := by
  cases ns with
  | nil => simp [encodeLine, encodeRest]
  | cons m ns =>
    show [' '].intercalate (encode n :: encode m :: ns.map encode) = _
    rw [List.intercalate_cons_cons]
    simp [encodeRest, encodeLine]

/-- Behind a name there is a space or nothing. -/
theorem encodeRest_head (ns : List (List Char)) :
    ∀ c ∈ (encodeRest ns).head?, isspace c = true := by
  cases ns with
  | nil => exact fun _ h => nomatch h
  | cons n ns => intro c hc; obtain rfl := Option.some.inj hc; rfl

theorem readWords_encodeRest (ns : List (List Char)) :
    readWords (encodeRest ns) = readWords (encodeLine ns) := by
  cases ns with
  | nil => rfl
  | cons n ns => exact readWords_space _

/-- What a list of names has to satisfy to come back. -/
def Separable (ns : List (List Char)) : Prop :=
  (∀ n ∈ ns, Readable n) ∧ ∀ n ∈ ns.dropLast, Closed n

/-- A name in front of others has to be readable, and closed unless it is the last one. -/
theorem separable_cons (n : List Char) (ns : List (List Char)) :
    Separable (n :: ns) ↔ (Readable n ∧ (ns = [] ∨ Closed n)) ∧ Separable ns := by
  unfold Separable
  cases ns with
  | nil => simp
  | cons m ns =>
    simp only [List.dropLast_cons_cons, List.forall_mem_cons]
    constructor
    · rintro ⟨⟨h1, h2⟩, h3, h4⟩; exact ⟨⟨h1, Or.inr h3⟩, h2, h4⟩
    · rintro ⟨⟨h1, h3⟩, h2, h4⟩
      exact ⟨⟨h1, h2⟩, h3.resolve_left (by simp), h4⟩

/-- A line starts with a good name exactly when its first word is that name. -/
theorem readWords_encodeLine_cons (n : List Char) (ns : List (List Char)) :
    readWords (encodeLine (n :: ns)) = n :: ns ↔
      (Readable n ∧ (ns = [] ∨ Closed n)) ∧ readWords (encodeLine ns) = ns := by
  rw [encodeLine_cons, readWords_eq]
  by_cases hread : Readable n
  · by_cases hclosed : ns = [] ∨ Closed n
    · have hend : encodeRest ns = [] ∨ Closed n := hclosed.imp_left (by rintro rfl; rfl)
      rw [getNextWord_encode hread (encodeRest_head ns) hend]
      show unEscape (escape n) :: readWords (encodeRest ns) = _ ↔ _
      rw [unEscape_escape, readWords_encodeRest, List.cons_eq_cons]
      exact ⟨fun h => ⟨⟨hread, hclosed⟩, h.2⟩, fun h => ⟨rfl, h.2⟩⟩
    · obtain ⟨hne, hopen⟩ := not_or.mp hclosed
      obtain ⟨m, ms, rfl⟩ := List.exists_cons_of_ne_nil hne
      obtain ⟨w, p', hw, hbad⟩ := getNextWord_of_not_closed hread hopen (encodeLine (m :: ms))
      rw [show encodeRest (m :: ms) = ' ' :: encodeLine (m :: ms) from rfl, hw]
      exact ⟨fun h => absurd (List.cons.inj h).1 hbad, fun h => absurd h.1.2 hclosed⟩
  · obtain ⟨w, p', hw, hbad⟩ := getNextWord_of_not_readable hread (encodeRest_head ns)
    rw [hw]
    exact ⟨fun h => absurd (List.cons.inj h).1 hbad, fun h => absurd h.1.1 hread⟩

/-- **A whole line**, on its characters: the words come back exactly if they can be separated. -/
theorem readWords_encodeLine_iff : ∀ ns : List (List Char),
    readWords (encodeLine ns) = ns ↔ Separable ns
  | [] => by simp [Separable, encodeLine, readWords, parseLoop, getNextWord, skipWhitespaces]
  | n :: ns => by
      rw [readWords_encodeLine_cons, separable_cons, readWords_encodeLine_iff ns]

/-- Only backslashes are added to a name. -/
theorem mem_escape : ∀ {n : List Char} {c : Char}, c ∈ escape n → c = '\\' ∨ c ∈ n
  | [], _, h => nomatch h
  | d :: n, c, h => by
      by_cases hd : needsBackslash d = true
      · rw [escape_cons_of_needs hd, List.mem_cons, List.mem_cons] at h
        rcases h with rfl | rfl | h
        · exact Or.inl rfl
        · exact Or.inr List.mem_cons_self
        · exact (mem_escape h).imp_right (List.mem_cons_of_mem d)
      · rw [escape_cons_of_not (by simpa using hd), List.mem_cons] at h
        rcases h with rfl | h
        · exact Or.inr List.mem_cons_self
        · exact (mem_escape h).imp_right (List.mem_cons_of_mem d)

/-- The encoder adds no NUL. -/
theorem nul_not_mem_encode {n : List Char} (h : '\x00' ∉ n) : '\x00' ∉ encode n := by
  have hesc : '\x00' ∉ escape n := by
    intro hmem
    rcases mem_escape hmem with hc | hc
    · exact absurd hc (by decide)
    · exact h hc
  unfold encode
  split
  · simp [hesc]
  · exact hesc

theorem nul_not_mem_encodeLine : ∀ {ns : List (List Char)}, (∀ n ∈ ns, '\x00' ∉ n) →
    '\x00' ∉ encodeLine ns
  | [], _ => by simp [encodeLine]
  | n :: ns, h => by
      have hrest : '\x00' ∉ encodeLine ns :=
        nul_not_mem_encodeLine fun m hm => h m (List.mem_cons_of_mem n hm)
      rw [encodeLine_cons, List.mem_append]
      rintro (hmem | hmem)
      · exact nul_not_mem_encode (h n List.mem_cons_self) hmem
      · cases ns with
        | nil => nomatch hmem
        | cons m ns =>
          rcases List.mem_cons.mp hmem with hc | hc
          · exact absurd hc (by decide)
          · exact hrest hc

/-- A command line: the quoted names, joined with single spaces. -/
def commandLine (ns : List String) : String := " ".intercalate (ns.map quoteNameIfNecessary)

theorem toList_commandLine (ns : List String) :
    (commandLine ns).toList = encodeLine (ns.map String.toList) := by
  have hmap : (ns.map quoteNameIfNecessary).map String.toList =
      (ns.map String.toList).map encode := by
    rw [List.map_map, List.map_map]
    exact List.map_congr_left fun n _ => toList_quoteNameIfNecessary n
  rw [commandLine, String.toList_intercalate, hmap]
  rfl

/-- Without NULs the line is read to its end. -/
theorem cStr_commandLine {ns : List String} (h : ∀ n ∈ ns, NulFree n) :
    cStr (commandLine ns) = encodeLine (ns.map String.toList) := by
  rw [← toList_commandLine]
  refine cStr_of_nulFree ?_
  unfold NulFree
  rw [toList_commandLine]
  refine nul_not_mem_encodeLine fun m hm => ?_
  obtain ⟨n, hn, rfl⟩ := List.mem_map.mp hm
  exact h n hn

theorem map_ofList_toList (ns : List String) :
    (ns.map String.toList).map String.ofList = ns := by
  rw [List.map_map, show String.ofList ∘ String.toList = id from
    funext fun _ => String.ofList_toList, List.map_id]

/-- A list of names that can be told apart comes back. -/
theorem parseLine_commandLine {ns : List String} (hnul : ∀ n ∈ ns, NulFree n)
    (h : Separable (ns.map String.toList)) : parseLine (commandLine ns) = ns := by
  rw [parseLine_eq_readWords, cStr_commandLine hnul, (readWords_encodeLine_iff _).mpr h,
    map_ofList_toList]

/-- **When quoting and tokenizing are inverse**: a list of NUL-free names comes back exactly when
    every name is `Readable` and every name but the last is `Closed`. -/
theorem parseLine_commandLine_iff (ns : List String) (hnul : ∀ n ∈ ns, NulFree n) :
    parseLine (commandLine ns) = ns ↔
      (∀ n ∈ ns, Readable n.toList) ∧ ∀ n ∈ ns.dropLast, Closed n.toList := by
  have hsep : Separable (ns.map String.toList) ↔
      (∀ n ∈ ns, Readable n.toList) ∧ ∀ n ∈ ns.dropLast, Closed n.toList := by
    rw [Separable, ← List.map_dropLast, List.forall_mem_map, List.forall_mem_map]
  rw [← hsep]
  refine ⟨fun h => ?_, parseLine_commandLine hnul⟩
  rw [parseLine_eq_readWords, cStr_commandLine hnul] at h
  rw [← readWords_encodeLine_iff]
  have := congrArg (List.map String.toList) h
  rwa [List.map_map, show String.toList ∘ String.ofList = id from
    funext fun _ => String.toList_ofList, List.map_id] at this

/-- Names with whitespace, quotes and backslashes that do come back; a quotation may stay open in
    the last one. -/
theorem parseLine_commandLine_names :
    parseLine (commandLine ["a b\\", "", "x\"y z", "it's"]) = ["a b\\", "", "x\"y z", "it's"] :=
  (parseLine_commandLine_iff ["a b\\", "", "x\"y z", "it's"] (by decide)).mpr (by decide)

/-- The embedded `"` of `x"y` opens a quotation that runs on over the separator. -/
theorem not_parseLine_commandLine :
    ¬ ∀ ns : List String, (∀ n ∈ ns, NulFree n) → parseLine (commandLine ns) = ns := by
  intro h
  have := h ["x\"y", "z"] (by decide)
  exact absurd this (by decide)

end FepControl
