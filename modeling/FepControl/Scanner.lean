/-
  The scan of a line, one character at a time.

  The tokenizer of the source is two functions that call each other's results: `getNextWord` with a
  loop for each kind of word, and `parseLine` with a loop over the words.  What such a program does
  to a line that is put together from two parts cannot be read off its text, as the cut may be in
  the middle of a loop.  An automaton has no such difficulty: its state after the first part is all
  that the second part gets to see.  So the tokenizer is shown to be one.

  1. **Mode** -- where the loops of `getNextWord` and `parseLine` stand between two characters:
     between words, in an unquoted word, in a quoted section of one, or in a quoted word.  `scan` is
     the fold of `Mode.step` over the line, and `wordsFrom` collects the words on the way.

  2. **One word** -- `Resumes` says that a loop that has read a word leaves the automaton where the
     next word begins.  The two loops share the argument; what is different is when they end
     (`unquotedWord_resumes`, `quotedWord_resumes`).

  3. **parseLine_eq_scan** -- `parseLine` computes what the scan says: the collected words, and an
     empty one behind them if the scan ends in whitespace.

  4. **Composition** -- whitespace that is read outside of a quoted section forgets everything but
     the words so far, so a line can be cut there (`parseLine_append`); inside of a section it does
     not, which is the exact condition.
-/
import FepControl.Quoting

namespace FepControl

/-! ## The modes -/

/-- Where the scan stands. -/
inductive Mode where
  /-- before a word, in `skipWhitespaces`; `skipped` says that whitespace has been skipped since
      `last_p` was set -/
  | between (skipped : Bool)
  /-- in an unquoted word, outside of its quoted sections -/
  | word
  /-- in a quoted section of an unquoted word -/
  | embedded (quote : Char) (escape_active : Bool) (last_char : Char)
  /-- in a quoted word -/
  | quoted (quote : Char) (escape_active : Bool) (last_char : Char)
  deriving DecidableEq, Repr

/-- The mode at the start of a line. -/
def Mode.start : Mode := .between false

/-- One character. -/
def Mode.step : Mode → Char → Mode
  | .between _, c =>
      if isspace c then .between true else if isQuote c then .quoted c false '\x00' else .word
  | .word, c =>
      if isQuote c then .embedded c false c else if isspace c then .between true else .word
  | .embedded quote escape_active last_char, c =>
      if escape_active || c != quote then .embedded quote (escapesNext last_char c) c else .word
  | .quoted quote escape_active last_char, c =>
      if escape_active || c != quote then .quoted quote (escapesNext last_char c) c
      else .between false

/-- The mode behind some characters. -/
def scan (mode : Mode) (src : List Char) : Mode := src.foldl Mode.step mode

/-- Before a word. -/
def Mode.isBetween : Mode → Bool
  | .between _ => true
  | _ => false

/-- The quote that has opened the section in which the scan stands. -/
def Mode.section : Mode → Option Char
  | .embedded quote _ _ | .quoted quote _ _ => some quote
  | _ => none

/-- Inside a quoted section. -/
def Mode.isOpen (mode : Mode) : Bool := mode.section.isSome

/-- The words of a line, from a mode and what there is of the current word. -/
def wordsFrom : Mode → (word : List Char) → List Char → List (List Char)
  | mode, word, [] => if mode.isBetween then [] else [word]
  | mode, word, c :: src =>
      if mode.isBetween then
        -- an opening quote is stepped over, the first character of an unquoted word is not
        wordsFrom (mode.step c) (if mode.step c = .word then [c] else []) src
      else if (mode.step c).isBetween then word :: wordsFrom (mode.step c) [] src
      else wordsFrom (mode.step c) (word ++ [c]) src

/-! ## One character -/

theorem Mode.step_between_space {c : Char} (hspace : isspace c = true) (skipped : Bool) :
    Mode.step (.between skipped) c = .between true := if_pos hspace

theorem Mode.step_word_quote {c : Char} (hquote : isQuote c = true) :
    Mode.step .word c = .embedded c false c := if_pos hquote

theorem Mode.step_word_space {c : Char} (hspace : isspace c = true) :
    Mode.step .word c = .between true := by
  rw [Mode.step, not_isQuote_of_isspace hspace, if_pos hspace]
  rfl

theorem Mode.step_word_other {c : Char} (hquote : ¬ isQuote c = true)
    (hspace : ¬ isspace c = true) : Mode.step .word c = .word := by
  rw [Mode.step, if_neg hquote, if_neg hspace]

section

variable {quote c : Char} {escape_active : Bool}

theorem Mode.step_embedded_stays (h : (escape_active || c != quote) = true) (last_char : Char) :
    Mode.step (.embedded quote escape_active last_char) c =
      .embedded quote (escapesNext last_char c) c := if_pos h

theorem Mode.step_embedded_closes (h : ¬ (escape_active || c != quote) = true)
    (last_char : Char) : Mode.step (.embedded quote escape_active last_char) c = .word := if_neg h

theorem Mode.step_quoted_stays (h : (escape_active || c != quote) = true) (last_char : Char) :
    Mode.step (.quoted quote escape_active last_char) c =
      .quoted quote (escapesNext last_char c) c := if_pos h

theorem Mode.step_quoted_closes (h : ¬ (escape_active || c != quote) = true) (last_char : Char) :
    Mode.step (.quoted quote escape_active last_char) c = .start := if_neg h

end

/-! ## What one word leaves behind -/

/-- A scan from `mode` with the word so far is the rest of that word and a scan of what is behind
    it: the same words, and the same answer to whether the line ends in skipped whitespace. -/
structure Resumes (mode : Mode) (word src : List Char) (scanned : List Char × List Char) :
    Prop where
  words : wordsFrom mode word src = (word ++ scanned.1) :: wordsFrom .start [] scanned.2
  skipped : scan mode src = .between true ↔ scan .start scanned.2 = .between true

/-- The end of the line ends the word. -/
theorem Resumes.nil {mode : Mode} (h : mode.isBetween = false) (word : List Char) :
    Resumes mode word [] ([], []) := by
  constructor
  · show (if mode.isBetween then [] else [word]) = _
    rw [h, List.append_nil]
    rfl
  · show mode = .between true ↔ Mode.start = .between true
    constructor
    · intro hmode
      subst hmode
      cases h
    · exact fun hstart => absurd hstart (by decide)

/-- A character that belongs to the word. -/
theorem Resumes.consume {mode : Mode} {c : Char} {word src : List Char}
    {scanned : List Char × List Char} (hmode : mode.isBetween = false)
    (hstep : (mode.step c).isBetween = false)
    (h : Resumes (mode.step c) (word ++ [c]) src scanned) :
    Resumes mode word (c :: src) (consume c scanned) := by
  constructor
  · rw [wordsFrom, hmode, hstep]
    simp only [Bool.false_eq_true, if_false]
    rw [h.words, consume_fst, consume_snd, List.append_assoc]
    rfl
  · exact h.skipped

/-- Whitespace behind an unquoted word. -/
theorem Resumes.space {c : Char} (hspace : isspace c = true) (word src : List Char) :
    Resumes .word word (c :: src) ([], c :: src) := by
  have hstep : Mode.step .word c = .between true := Mode.step_word_space hspace
  have hstart : Mode.step .start c = .between true := Mode.step_between_space hspace false
  constructor
  · rw [wordsFrom, wordsFrom, hstep, hstart, List.append_nil]
    rfl
  · show scan (Mode.step .word c) src = _ ↔ scan (Mode.step .start c) src = _
    rw [hstep, hstart]

/-- **A rule for the two nested loops of an unquoted word**: `P` holds of what they scan if it holds
    at the end of the line and at whitespace outside of the sections, and of one more character of
    the word if it holds behind it. -/
theorem unquotedWord_rule {P : Mode → List Char → List Char × List Char → Prop}
    (hnil : ∀ mode, mode.isBetween = false → P mode [] ([], []))
    (hspace : ∀ c src, isspace c = true → P .word (c :: src) ([], c :: src))
    (hconsume : ∀ mode c src scanned, mode.isBetween = false → (mode.step c).isBetween = false →
      (isspace c = true → mode.isOpen = true) → P (mode.step c) src scanned →
        P mode (c :: src) (consume c scanned)) (src : List Char) :
    (∀ last_char, P .word src (unquotedWord .stepped last_char src)) ∧
      ∀ quote escape_active last_char, isQuote quote = true →
        P (.embedded quote escape_active last_char) src
          (unquotedWord (.embedded quote escape_active) last_char src) := by
  -- both loops at once: at a quote each continues in the other
  induction src with
  | nil =>
    constructor
    · intro last_char
      exact hnil .word rfl
    · intro quote escape_active last_char _
      exact hnil _ rfl
  | cons c src ih =>
    obtain ⟨hword, hembedded⟩ := ih
    constructor
    · intro last_char
      rw [unquotedWord]
      by_cases hquote : isQuote c = true
      · -- a section is opened
        have hstep : Mode.step .word c = .embedded c false c := Mode.step_word_quote hquote
        have hnot : ¬ isspace c = true := by
          rw [not_isspace_of_isQuote hquote]
          decide
        rw [if_pos hquote, escapesNext_of_isQuote hquote]
        refine hconsume _ c src _ rfl (by rw [hstep]; rfl) (fun h => absurd h hnot) ?_
        rw [hstep]
        exact hembedded c false c hquote
      · rw [if_neg hquote]
        by_cases hc : isspace c = true
        · rw [if_pos hc]
          exact hspace c src hc
        · have hstep : Mode.step .word c = .word := Mode.step_word_other hquote hc
          rw [if_neg hc]
          refine hconsume _ c src _ rfl (by rw [hstep]; rfl) (fun h => absurd h hc) ?_
          rw [hstep]
          exact hword last_char
    · intro quote escape_active last_char hquote
      rw [unquotedWord]
      by_cases hstays : (escape_active || c != quote) = true
      · have hstep : Mode.step (.embedded quote escape_active last_char) c =
            .embedded quote (escapesNext last_char c) c :=
          Mode.step_embedded_stays hstays last_char
        rw [if_pos hstays]
        refine hconsume _ c src _ rfl (by rw [hstep]; rfl) (fun _ => rfl) ?_
        rw [hstep]
        exact hembedded quote _ c hquote
      · -- the closing quote is an ordinary character of the word
        have hnot : ¬ isspace c = true := by
          rw [eq_of_closes hstays, not_isspace_of_isQuote hquote]
          decide
        have hstep : Mode.step (.embedded quote escape_active last_char) c = .word :=
          Mode.step_embedded_closes hstays last_char
        rw [if_neg hstays, if_neg hnot]
        refine hconsume _ c src _ rfl (by rw [hstep]; rfl) (fun h => absurd h hnot) ?_
        rw [hstep]
        exact hword last_char

/-- The loops of an unquoted word. -/
theorem unquotedWord_resumes (src : List Char) (last_char : Char) (word : List Char) :
    Resumes .word word src (unquotedWord .stepped last_char src) := by
  have hrule := unquotedWord_rule (P := fun mode src scanned => ∀ word,
    Resumes mode word src scanned) ?_ ?_ ?_ src
  · exact hrule.1 last_char word
  · intro mode hmode word
    exact .nil hmode word
  · intro c src hc word
    exact .space hc word src
  · intro mode c src scanned hmode hstep _ h word
    exact (h (word ++ [c])).consume hmode hstep

/-- The loop of a quoted word; its closing quote is stepped over. -/
theorem quotedWord_resumes (quote : Char) (src : List Char) :
    ∀ escape_active last_char word, Resumes (.quoted quote escape_active last_char) word src
      ((quotedWord quote escape_active last_char src).1,
        (quotedWord quote escape_active last_char src).2.tail) := by
  induction src with
  | nil =>
    intro escape_active last_char word
    exact .nil rfl word
  | cons c src ih =>
    intro escape_active last_char word
    rw [quotedWord]
    by_cases hstays : (escape_active || c != quote) = true
    · have hstep : Mode.step (.quoted quote escape_active last_char) c =
          .quoted quote (escapesNext last_char c) c := Mode.step_quoted_stays hstays last_char
      rw [if_pos hstays]
      have hrest := ih (escapesNext last_char c) c (word ++ [c])
      rw [← hstep] at hrest
      exact hrest.consume rfl (by rw [hstep]; rfl)
    · have hstep : Mode.step (.quoted quote escape_active last_char) c = .start :=
        Mode.step_quoted_closes hstays last_char
      rw [if_neg hstays]
      constructor
      · rw [wordsFrom, hstep, List.append_nil]
        rfl
      · show scan (Mode.step _ c) src = _ ↔ scan .start src = _
        rw [hstep]

/-! ## The line -/

/-- What `skipWhitespaces` steps over is whitespace. -/
theorem skipWhitespaces_append (p : List Char) :
    ∃ ws, p = ws ++ skipWhitespaces p ∧ ∀ c ∈ ws, isspace c = true :=
  ⟨p.takeWhile isspace, List.takeWhile_append_dropWhile.symm,
    List.all_eq_true.mp List.all_takeWhile⟩

/-- A line without a word. -/
theorem getNextWord_eq_none {p p' : List Char} (h : getNextWord p = (none, p')) :
    p' = [] ∧ ∀ c ∈ p, isspace c = true := by
  obtain ⟨ws, hp, hspace⟩ := skipWhitespaces_append p
  unfold getNextWord at h
  cases hskip : skipWhitespaces p with
  | nil =>
    rw [hskip, List.append_nil] at hp
    rw [hskip] at h
    exact ⟨(Prod.mk.inj h).2.symm, hp ▸ hspace⟩
  | cons c src =>
    rw [hskip] at h
    simp only at h
    split at h
    · exact absurd (Prod.mk.inj h).1 nofun
    · exact absurd (Prod.mk.inj h).1 nofun

/-- Whitespace before a word. -/
theorem between_of_isspace (ws : List Char) (hspace : ∀ c ∈ ws, isspace c = true) (skipped : Bool)
    (src : List Char) :
    wordsFrom (.between skipped) [] (ws ++ src) = wordsFrom .start [] src ∧
      scan (.between skipped) ws = .between (skipped || !ws.isEmpty) := by
  induction ws generalizing skipped with
  | nil =>
    constructor
    · cases src <;> rfl
    · show Mode.between skipped = .between (skipped || false)
      rw [Bool.or_false]
  | cons c ws ih =>
    have hc : isspace c = true := hspace c List.mem_cons_self
    have hws : ∀ d ∈ ws, isspace d = true := fun d hd => hspace d (List.mem_cons_of_mem c hd)
    have hstep : Mode.step (.between skipped) c = .between true :=
      Mode.step_between_space hc skipped
    obtain ⟨hwords, hscan⟩ := ih hws true
    constructor
    · rw [List.cons_append, wordsFrom, hstep]
      exact hwords
    · show scan (Mode.step (.between skipped) c) ws = _
      rw [hstep, hscan]
      simp

/-- The word that `getNextWord` reads is the first word of the scan, which resumes behind it. -/
theorem getNextWord_resumes {p p' word : List Char} (h : getNextWord p = (some word, p')) :
    wordsFrom .start [] p = word :: wordsFrom .start [] p' ∧
      (scan .start p = .between true ↔ scan .start p' = .between true) := by
  obtain ⟨ws, hp, hspace⟩ := skipWhitespaces_append p
  unfold getNextWord at h
  cases hskip : skipWhitespaces p with
  | nil =>
    rw [hskip] at h
    exact absurd (Prod.mk.inj h).1 nofun
  | cons c src =>
    rw [hskip] at h hp
    have hc : isspace c = false := isspace_of_skipWhitespaces hskip
    obtain ⟨hwords, hscan⟩ := between_of_isspace ws hspace false (c :: src)
    -- the first character decides on the mode, wherever the scan has been before
    have hresume : ∀ {mode word} {scanned : List Char × List Char}, mode.isBetween = false →
        (∀ skipped, Mode.step (.between skipped) c = mode) →
        Resumes mode (if mode = .word then [c] else []) src scanned →
        (if mode = .word then [c] else []) ++ scanned.1 = word → scanned.2 = p' →
        wordsFrom .start [] p = word :: wordsFrom .start [] p' ∧
          (scan .start p = .between true ↔ scan .start p' = .between true) := by
      intro mode word scanned _ hstep hresumes hword hp'
      constructor
      · have hfirst : wordsFrom .start [] (c :: src) =
            wordsFrom mode (if mode = .word then [c] else []) src := by
          rw [wordsFrom, Mode.start, hstep]
          rfl
        rw [hp, Mode.start, hwords, hfirst, hresumes.words, hword, hp']
        rfl
      · have hall : scan .start p = scan mode src := by
          rw [hp, scan, List.foldl_append]
          show scan (Mode.step (scan .start ws) c) src = _
          rw [Mode.start, hscan, hstep]
        rw [hall, hresumes.skipped, hp']
    simp only at h
    by_cases hquote : isQuote c = true
    · rw [if_pos hquote] at h
      obtain ⟨hword, hp'⟩ := Prod.mk.inj h
      exact hresume rfl (fun skipped => by simp [Mode.step, hc, hquote])
        (quotedWord_resumes c src false '\x00' []) (Option.some.inj hword) hp'
    · rw [if_neg hquote] at h
      obtain ⟨hword, hp'⟩ := Prod.mk.inj h
      rw [unquotedWord, if_neg (by rw [hc]; decide)] at hword hp'
      exact hresume rfl (fun skipped => by simp [Mode.step, hc, hquote])
        (unquotedWord_resumes src '\x00' [c]) (Option.some.inj hword) hp'

/-- **The loop of `parseLine` is the scan**: it unescapes the words of the scan, comes to the end of
    the line, and leaves `last_p` behind if the scan ends in skipped whitespace. -/
theorem parseLoop_eq_scan : ∀ (fuel : Nat) (last_p p : List Char), p.length < fuel →
    (parseLoop fuel last_p p).1 = (wordsFrom .start [] p).map unEscape ∧
      (parseLoop fuel last_p p).2.2 = [] ∧
      (last_p = p → ((parseLoop fuel last_p p).2.1 ≠ [] ↔ scan .start p = .between true)) := by
  intro fuel
  induction fuel with
  | zero => intro last_p p hfuel; exact absurd hfuel (Nat.not_lt_zero _)
  | succ fuel ih =>
    intro last_p p hfuel
    rcases hword : getNextWord p with ⟨_ | word, p'⟩
    -- no word is left, hence only whitespace was
    · obtain ⟨rfl, hspace⟩ := getNextWord_eq_none hword
      obtain ⟨hwords, hscan⟩ := between_of_isspace p hspace false []
      rw [List.append_nil] at hwords
      rw [parseLoop_none hword]
      refine ⟨?_, rfl, ?_⟩
      · rw [Mode.start, hwords]
        rfl
      · intro hlast
        rw [Mode.start, hscan, hlast]
        cases p with
        | nil => exact iff_of_false (fun h => h rfl) nofun
        | cons c p => exact iff_of_true (List.cons_ne_nil c p) rfl
    · have hlt := getNextWord_length_lt hword
      obtain ⟨hwords, hscan⟩ := getNextWord_resumes hword
      obtain ⟨hih, hend, hlast⟩ := ih p' p' (by omega)
      rw [parseLoop_some hword]
      refine ⟨?_, hend, fun _ => ?_⟩
      · rw [hwords, List.map_cons, hih]
      · rw [hscan]
        exact hlast rfl

/-- **`parseLine` computes what the scan says.** -/
theorem parseLine_eq_scan (line : String) (add_empty : Bool) :
    parseLine line add_empty =
      (wordsFrom .start [] (cStr line)).map (fun word => String.ofList (unEscape word)) ++
        if add_empty && scan .start (cStr line) == .between true then [""] else [] := by
  obtain ⟨hwords, hend, hlast⟩ :=
    parseLoop_eq_scan ((cStr line).length + 1) (cStr line) (cStr line) (Nat.lt_succ_self _)
  have hskipped : ((parseLoop ((cStr line).length + 1) (cStr line) (cStr line)).2.1 != []) =
      (scan .start (cStr line) == .between true) := by
    rw [Bool.eq_iff_iff, bne_iff_ne, beq_iff_eq]
    exact hlast rfl
  unfold parseLine
  simp only [hwords, hend, hskipped, List.map_map]
  split
  · rfl
  · rw [List.append_nil]
    rfl

/-! ## Cutting a line -/

/-- The scan of the line ends inside a quoted section. -/
def OpenAtEnd (line : String) : Prop := (scan .start line.toList).isOpen = true

instance (line : String) : Decidable (OpenAtEnd line) := inferInstanceAs (Decidable (_ = _))

/-- The scan of a line in two parts goes on where the first part has left it. -/
theorem scan_append (mode : Mode) (src src' : List Char) :
    scan mode (src ++ src') = scan (scan mode src) src' := List.foldl_append

/-- Whitespace outside of a quoted section. -/
theorem step_of_isspace {mode : Mode} (hopen : mode.isOpen = false) {c : Char}
    (hspace : isspace c = true) : mode.step c = .between true := by
  cases mode with
  | between skipped => exact Mode.step_between_space hspace skipped
  | word => exact Mode.step_word_space hspace
  | embedded => cases hopen
  | quoted => cases hopen

/-- Only whitespace leads to skipped whitespace. -/
theorem isspace_of_step {mode : Mode} {c : Char} (h : mode.step c = .between true) :
    isspace c = true := by
  cases mode with
  | between skipped =>
    rw [Mode.step] at h
    split at h
    · assumption
    · split at h <;> cases h
  | word =>
    rw [Mode.step] at h
    split at h
    · cases h
    · split at h
      · assumption
      · cases h
  | embedded quote escape_active last_char =>
    rw [Mode.step] at h
    split at h <;> cases h
  | quoted quote escape_active last_char =>
    rw [Mode.step] at h
    split at h <;> cases h

/-- Whether whitespace was skipped makes no difference to the words. -/
theorem wordsFrom_between (skipped : Bool) (src : List Char) :
    wordsFrom (.between skipped) [] src = wordsFrom .start [] src :=
  (between_of_isspace [] (fun _ h => absurd h List.not_mem_nil) skipped src).1

/-- No word goes on over whitespace that is read outside of a quoted section. -/
theorem wordsFrom_cut (src : List Char) {c : Char} (hspace : isspace c = true)
    (rest : List Char) : ∀ (mode : Mode) (word : List Char), (scan mode src).isOpen = false →
      wordsFrom mode word (src ++ c :: rest) =
        wordsFrom mode word src ++ wordsFrom .start [] rest := by
  induction src with
  | nil =>
    intro mode word hopen
    have hstep : mode.step c = .between true := step_of_isspace hopen hspace
    rw [List.nil_append, wordsFrom, wordsFrom, hstep]
    cases hbetween : mode.isBetween with
    | true => exact wordsFrom_between true rest
    | false => exact congrArg (word :: ·) (wordsFrom_between true rest)
  | cons d src ih =>
    intro mode word hopen
    have hrest := fun word => ih (mode.step d) word hopen
    rw [List.cons_append, wordsFrom, wordsFrom]
    split
    · exact hrest _
    · split
      · exact congrArg (word :: ·) (hrest [])
      · exact hrest _

/-- Behind whitespace the scan is before a word. -/
theorem scan_cut {mode : Mode} (hopen : mode.isOpen = false) {c : Char} {ws : List Char}
    (hspace : ∀ d ∈ c :: ws, isspace d = true) (rest : List Char) :
    scan mode (c :: ws ++ rest) = scan (.between true) rest := by
  have hstep := step_of_isspace hopen (hspace c List.mem_cons_self)
  have hws := (between_of_isspace ws (fun d hd => hspace d (List.mem_cons_of_mem c hd)) true []).2
  show scan (mode.step c) (ws ++ rest) = _
  rw [hstep, scan_append, hws]
  rfl

/-- The first word forgets what has been skipped before it. -/
theorem scan_between_congr {src : List Char} (h : ∃ c ∈ src, isspace c = false)
    (skipped skipped' : Bool) : scan (.between skipped) src = scan (.between skipped') src := by
  cases src with
  | nil =>
    obtain ⟨c, hc, -⟩ := h
    exact absurd hc List.not_mem_nil
  | cons c src => rfl

/-- The words of two parts with whitespace between them. -/
theorem wordsFrom_append {a : List Char} (hopen : (scan .start a).isOpen = false) {c : Char}
    {ws : List Char} (hspace : ∀ d ∈ c :: ws, isspace d = true) (b : List Char) :
    wordsFrom .start [] (a ++ (c :: ws ++ b)) =
      wordsFrom .start [] a ++ wordsFrom .start [] b := by
  have hws := (between_of_isspace ws (fun d hd => hspace d (List.mem_cons_of_mem c hd)) false b).1
  rw [List.cons_append, wordsFrom_cut a (hspace c List.mem_cons_self) _ .start [] hopen]
  exact congrArg _ hws

/-- **Tokens are composed**: a line whose scan does not end inside a quoted section, whitespace, and
    another line have the tokens of the two lines; a blank second line adds an empty token. -/
theorem parseLine_append {a w b : String} (ha : NulFree a) (hb : NulFree b)
    (hopen : ¬ OpenAtEnd a) (hne : w ≠ "") (hw : ∀ c ∈ w.toList, isspace c = true) :
    ((∃ c ∈ b.toList, isspace c = false) →
      ∀ add_empty, parseLine (a ++ w ++ b) add_empty = parseLine a ++ parseLine b add_empty) ∧
    ((∀ c ∈ b.toList, isspace c = true) → parseLine (a ++ w ++ b) true = parseLine a ++ [""]) ∧
    ((∃ c, a.toList.getLast? = some c ∧ isspace c = false) →
      parseLine a true = parseLine a) := by
  have hopen : (scan .start a.toList).isOpen = false := by simpa [OpenAtEnd] using hopen
  obtain ⟨c, ws, hcw⟩ : ∃ c ws, w.toList = c :: ws := by
    cases hw' : w.toList with
    | nil => exact absurd (String.toList_eq_nil_iff.mp hw') hne
    | cons c ws => exact ⟨c, ws, rfl⟩
  rw [hcw] at hw
  have hnul : NulFree (a ++ w ++ b) := by
    intro hmem
    rw [String.toList_append, String.toList_append, hcw, List.mem_append, List.mem_append] at hmem
    rcases hmem with (hmem | hmem) | hmem
    · exact ha hmem
    · exact absurd (hw _ hmem) (by decide)
    · exact hb hmem
  have hline : cStr (a ++ w ++ b) = a.toList ++ (c :: ws ++ b.toList) := by
    rw [cStr_of_nulFree hnul, String.toList_append, String.toList_append, hcw, List.append_assoc]
  -- the words of the whole line
  have hwords : wordsFrom .start [] (cStr (a ++ w ++ b)) =
      wordsFrom .start [] a.toList ++ wordsFrom .start [] b.toList := by
    rw [hline, wordsFrom_append hopen hw]
  -- and where its scan ends
  have hscan : scan .start (cStr (a ++ w ++ b)) = scan (.between true) b.toList := by
    rw [hline, scan_append, scan_cut hopen hw]
  refine ⟨fun hword add_empty => ?_, fun hblank => ?_, fun hlast => ?_⟩
  · rw [parseLine_eq_scan, parseLine_eq_scan a, parseLine_eq_scan b, hwords, hscan,
      cStr_of_nulFree ha, cStr_of_nulFree hb, scan_between_congr hword true false]
    simp [Mode.start]
  · obtain ⟨hnone, hend⟩ := between_of_isspace b.toList hblank true []
    have hblank : wordsFrom .start [] b.toList = [] := by
      rw [← wordsFrom_between true, ← List.append_nil b.toList, hnone]
      rfl
    rw [parseLine_eq_scan, parseLine_eq_scan a, hwords, hscan, hblank, hend, cStr_of_nulFree ha]
    simp
  · obtain ⟨d, hd, hspace⟩ := hlast
    have hend : scan .start a.toList ≠ .between true := by
      obtain ⟨a', ha'⟩ := List.getLast?_eq_some_iff.mp hd
      rw [ha', scan_append]
      intro hstep
      exact absurd ((isspace_of_step hstep).symm.trans hspace) nofun
    rw [parseLine_eq_scan, parseLine_eq_scan a, cStr_of_nulFree ha]
    simp [hend]

/-- A line that ends in a quoted word, cut behind it. -/
theorem parseLine_append_quoted :
    parseLine ("s \"a b\"" ++ " " ++ "c") true = parseLine "s \"a b\"" ++ parseLine "c" true := by
  have hspace : ∀ c ∈ " ".toList, isspace c = true := List.forall_mem_singleton.mpr rfl
  exact (parseLine_append (by decide) (by decide) (by decide) (by decide) hspace).1
    ⟨'c', by decide, by decide⟩ true

end FepControl
