/-
  Nothing of a line is lost.

  A tokenizer could skip a character, read one twice, or stop before the end of the line, and all
  that would be seen of it is a wrong token.  That it does not is a statement about the whole line
  at once: there is a way to cut it into words and whitespace, with nothing left over, such that the
  tokens are the words.

  1. **RawWord** -- what `getNextWord` reads: a quoted word, with its quotes as far as they are
     there, or an unquoted run.  Its text is a part of the line; its body is what the token is made
     of.

  2. **WellFormed** -- in an unquoted run there is whitespace only inside of quoted sections, and in
     the body of a quoted word its quote comes only where the scanner takes it for escaped
     (`SpacesQuoted`, `StaysOpen`).

  3. **Cut** -- the line is whitespace, and then raw words with the whitespace behind each.  Only
     behind a closing quote can the next word follow at once, and only the end of the line can leave
     a quoted section without its closing quote.

  4. **parseLine_cut** -- every line is cut so, the tokens are its unescaped words, and the loop
     comes to the end of the line by itself: it is not the bound on its rounds that ends it.
-/
import FepControl.Scanner

namespace FepControl

/-! ## Raw words -/

/-- A word as it stands in the line. -/
inductive RawWord where
  | quoted (quote : Char) (body : List Char) (closed : Bool)
  | unquoted (run : List Char)

/-- Its characters in the line. -/
def RawWord.text : RawWord → List Char
  | .quoted quote body true => quote :: (body ++ [quote])
  | .quoted quote body false => quote :: body
  | .unquoted run => run

/-- What `getNextWord` hands out. -/
def RawWord.body : RawWord → List Char
  | .quoted _ body _ => body
  | .unquoted run => run

/-- No quoted section of the word is left open. -/
def RawWord.isClosed : RawWord → Bool
  | .quoted _ _ closed => closed
  | .unquoted run => !(scan .word run.tail).isOpen

/-- Whitespace stands in quoted sections only. -/
def SpacesQuoted (mode : Mode) (run : List Char) : Prop :=
  ∀ pre c post, run = pre ++ c :: post → isspace c = true → (scan mode pre).isOpen = true

/-- The scan stays in one section. -/
def StaysOpen (mode : Mode) (body : List Char) : Prop :=
  ∀ pre, pre <+: body → (scan mode pre).isOpen = true

/-- The word is a quoted one, whose section the body does not leave and the closing quote does, or a
    run that starts with neither whitespace nor a quote, and has whitespace in its quoted sections
    only. -/
inductive RawWord.WellFormed : RawWord → Prop where
  | quoted {quote : Char} {body : List Char} {closed : Bool} (hquote : isQuote quote = true)
      (hbody : StaysOpen (.quoted quote false '\x00') body)
      (hclosed : closed = true →
        (scan (.quoted quote false '\x00') (body ++ [quote])).isOpen = false) :
      WellFormed (.quoted quote body closed)
  | unquoted {c : Char} {run : List Char} (hspace : isspace c = false)
      (hquote : isQuote c = false) (hrun : SpacesQuoted .word run) :
      WellFormed (.unquoted (c :: run))

/-- A raw word does not begin with whitespace. -/
theorem RawWord.WellFormed.head {w : RawWord} (h : w.WellFormed) :
    ∃ c cs, w.text = c :: cs ∧ isspace c = false := by
  cases h with
  | @quoted quote body closed hquote =>
    cases closed with
    | true => exact ⟨quote, body ++ [quote], rfl, not_isspace_of_isQuote hquote⟩
    | false => exact ⟨quote, body, rfl, not_isspace_of_isQuote hquote⟩
  | unquoted hspace => exact ⟨_, _, rfl, hspace⟩

/-! ## The loops -/

theorem SpacesQuoted.nil (mode : Mode) : SpacesQuoted mode [] := by
  intro pre c post h
  cases pre with
  | nil => cases h
  | cons d pre => cases h

/-- A character in front of a run: whitespace only where a section is open. -/
theorem SpacesQuoted.cons {mode : Mode} {c : Char} {run : List Char}
    (hc : isspace c = true → mode.isOpen = true) (h : SpacesQuoted (mode.step c) run) :
    SpacesQuoted mode (c :: run) := by
  intro pre d post hrun hspace
  cases pre with
  | nil =>
    obtain ⟨rfl, -⟩ := List.cons.inj hrun
    exact hc hspace
  | cons e pre =>
    obtain ⟨rfl, htail⟩ := List.cons.inj hrun
    exact h pre d post htail hspace

theorem StaysOpen.nil {mode : Mode} (h : mode.isOpen = true) : StaysOpen mode [] := by
  intro pre hpre
  rw [List.prefix_nil.mp hpre]
  exact h

/-- A character in front of a body that does not close its section. -/
theorem StaysOpen.cons {mode : Mode} {c : Char} {body : List Char} (hopen : mode.isOpen = true)
    (h : StaysOpen (mode.step c) body) : StaysOpen mode (c :: body) := by
  intro pre hpre
  cases pre with
  | nil => exact hopen
  | cons d pre =>
    obtain ⟨rfl, htail⟩ := List.cons_prefix_cons.mp hpre
    exact h pre htail

/-- The loop over a quoted word does not leave the section, and stops at the quote that does. -/
theorem quotedWord_staysOpen (quote : Char) (src : List Char) : ∀ escape_active last_char,
    StaysOpen (.quoted quote escape_active last_char)
        (quotedWord quote escape_active last_char src).1 ∧
      ((quotedWord quote escape_active last_char src).2 = [] ∨
        ∃ rest, (quotedWord quote escape_active last_char src).2 = quote :: rest ∧
          (scan (.quoted quote escape_active last_char)
            ((quotedWord quote escape_active last_char src).1 ++ [quote])).isOpen = false) := by
  induction src with
  | nil =>
    intro escape_active last_char
    exact ⟨.nil rfl, .inl rfl⟩
  | cons c src ih =>
    intro escape_active last_char
    rw [quotedWord]
    by_cases hstays : (escape_active || c != quote) = true
    · have hstep : Mode.step (.quoted quote escape_active last_char) c =
          .quoted quote (escapesNext last_char c) c := Mode.step_quoted_stays hstays last_char
      obtain ⟨hbody, hend⟩ := ih (escapesNext last_char c) c
      rw [← hstep] at hbody hend
      rw [if_pos hstays, consume_fst, consume_snd]
      exact ⟨.cons rfl hbody, hend⟩
    · have hc : c = quote := eq_of_closes hstays
      subst hc
      rw [if_neg hstays]
      refine ⟨.nil rfl, .inr ⟨src, rfl, ?_⟩⟩
      show (Mode.step (.quoted c escape_active last_char) c).isOpen = false
      rw [Mode.step_quoted_closes hstays]
      rfl

/-- What the loops over an unquoted word stop at: the end of the line, or whitespace outside of the
    quoted sections. -/
structure StopsAt (mode : Mode) (scanned : List Char × List Char) : Prop where
  spaces : SpacesQuoted mode scanned.1
  rest : scanned.2 = [] ∨ (scan mode scanned.1).isOpen = false ∧
    ∃ c rest, scanned.2 = c :: rest ∧ isspace c = true

theorem StopsAt.consume {mode : Mode} {c : Char} {scanned : List Char × List Char}
    (hc : isspace c = true → mode.isOpen = true) (h : StopsAt (mode.step c) scanned) :
    StopsAt mode (consume c scanned) :=
  ⟨.cons hc h.spaces, h.rest⟩

/-- The loop of an unquoted word ends in front of whitespace, or with the line. -/
theorem unquotedWord_stopsAt (src : List Char) (last_char : Char) :
    StopsAt .word (unquotedWord .stepped last_char src) := by
  have hrule := unquotedWord_rule (P := fun mode _ scanned => StopsAt mode scanned) ?_ ?_ ?_ src
  · exact hrule.1 last_char
  · intro mode _
    exact ⟨.nil mode, .inl rfl⟩
  · intro c src hspace
    exact ⟨.nil .word, .inr ⟨rfl, c, src, rfl, hspace⟩⟩
  · intro mode c src scanned _ _ hopen h
    exact h.consume hopen

/-! ## One word -/

/-- The pointer `p` is whitespace, the word and the pointer `p'`; an open word goes to the end of
    the line, and only behind a closing quote can anything but whitespace follow. -/
structure Reads (p : List Char) (w : RawWord) (p' : List Char) : Prop where
  split : ∃ ws, p = ws ++ (w.text ++ p') ∧ ∀ c ∈ ws, isspace c = true
  wellFormed : w.WellFormed
  closed : w.isClosed = false → p' = []
  behind : p' = [] ∨ (∃ c rest, p' = c :: rest ∧ isspace c = true) ∨
    ∃ quote body, w = .quoted quote body true

/-- What a successful `getNextWord` has read. -/
theorem getNextWord_reads {p p' word : List Char} (h : getNextWord p = (some word, p')) :
    ∃ w, Reads p w p' ∧ w.body = word := by
  obtain ⟨ws, hp, hspace⟩ := skipWhitespaces_append p
  unfold getNextWord at h
  cases hskip : skipWhitespaces p with
  | nil =>
    rw [hskip] at h
    exact absurd (Prod.mk.inj h).1 (Option.some_ne_none word).symm
  | cons c src =>
    have hc : isspace c = false := isspace_of_skipWhitespaces hskip
    rw [hskip] at h hp
    simp only at h
    by_cases hquote : isQuote c = true
    · rw [if_pos hquote] at h
      obtain ⟨hword, hp'⟩ := Prod.mk.inj h
      obtain rfl := Option.some.inj hword
      obtain ⟨hbody, hend⟩ := quotedWord_staysOpen c src false '\x00'
      have hsrc := quotedWord_append c src false '\x00'
      rcases hend with hend | ⟨rest, hend, hclosed⟩
      · -- the section reaches the end of the line
        rw [hend] at hp' hsrc
        rw [List.append_nil] at hsrc
        subst hp'
        refine ⟨.quoted c (quotedWord c false '\x00' src).1 false,
          ⟨⟨ws, ?_, hspace⟩, .quoted hquote hbody (fun h => absurd h Bool.false_ne_true),
            fun _ => rfl, .inl rfl⟩, rfl⟩
        rw [hp]
        show ws ++ c :: src = ws ++ (c :: (quotedWord c false '\x00' src).1 ++ [])
        rw [List.append_nil, hsrc]
      · rw [hend] at hp' hsrc
        obtain rfl : rest = p' := hp'
        refine ⟨.quoted c (quotedWord c false '\x00' src).1 true,
          ⟨⟨ws, ?_, hspace⟩, .quoted hquote hbody fun _ => hclosed,
            fun h => absurd h.symm Bool.false_ne_true, .inr (.inr ⟨_, _, rfl⟩)⟩, rfl⟩
        rw [hp]
        show ws ++ c :: src = ws ++ (c :: ((quotedWord c false '\x00' src).1 ++ [c]) ++ rest)
        rw [List.cons_append, List.append_assoc, List.singleton_append, hsrc]
    · rw [if_neg hquote, unquotedWord, if_neg (by rw [hc]; decide)] at h
      obtain ⟨hword, hp'⟩ := Prod.mk.inj h
      obtain rfl := Option.some.inj hword
      obtain ⟨hspaces, hrest⟩ := unquotedWord_stopsAt src '\x00'
      have hsrc := unquotedWord_append src .stepped '\x00'
      subst hp'
      refine ⟨.unquoted (c :: (unquotedWord .stepped '\x00' src).1), ⟨⟨ws, ?_, hspace⟩,
        .unquoted hc (by simpa using hquote) hspaces, fun hopen => ?_, ?_⟩, rfl⟩
      · rw [hp]
        show ws ++ c :: src = ws ++ (c :: (unquotedWord .stepped '\x00' src).1 ++
          (unquotedWord .stepped '\x00' src).2)
        rw [List.cons_append, hsrc]
      · rcases hrest with hnil | ⟨hclosed, -⟩
        · exact hnil
        · have hopen : (!(scan .word (unquotedWord .stepped '\x00' src).1).isOpen) = false := hopen
          rw [hclosed] at hopen
          exact absurd hopen.symm Bool.false_ne_true
      · rcases hrest with hnil | ⟨-, hbehind⟩
        · exact .inl hnil
        · exact .inr (.inl hbehind)

/-! ## The line -/

/-- The line is cut into whitespace, and words with the whitespace behind each. -/
structure Cut (line ws₀ : List Char) (words : List (RawWord × List Char)) : Prop where
  line : line = ws₀ ++ words.flatMap fun w => w.1.text ++ w.2
  before : ∀ c ∈ ws₀, isspace c = true
  behind : ∀ w ∈ words, ∀ c ∈ w.2, isspace c = true
  wellFormed : ∀ w ∈ words, w.1.WellFormed
  /-- nothing stands between two words only if the first is a closed quoted one -/
  inner : ∀ pre w next post, words = pre ++ w :: next :: post → w.2 = [] →
    ∃ quote body, w.1 = .quoted quote body true
  /-- a section is left open at the end of the line only -/
  last : ∀ pre w post, words = pre ++ w :: post → w.1.isClosed = false → post = [] ∧ w.2 = []

theorem Cut.blank {line : List Char} (h : ∀ c ∈ line, isspace c = true) : Cut line line [] := by
  refine ⟨(List.append_nil line).symm, h, fun _ h => ?_, fun _ h => ?_, fun pre w next post h => ?_,
    fun pre w post h => ?_⟩
  · exact absurd h List.not_mem_nil
  · exact absurd h List.not_mem_nil
  · exact absurd h.symm (List.append_ne_nil_of_right_ne_nil pre (List.cons_ne_nil w _))
  · exact absurd h.symm (List.append_ne_nil_of_right_ne_nil pre (List.cons_ne_nil w _))

/-- One word more in front. -/
theorem Cut.cons {p p' : List Char} {w : RawWord} (hreads : Reads p w p') {ws₀ : List Char}
    {words : List (RawWord × List Char)} (h : Cut p' ws₀ words) :
    ∃ ws, Cut p ws ((w, ws₀) :: words) := by
  obtain ⟨⟨ws, hp, hspace⟩, hwellFormed, hclosed, hbehind⟩ := hreads
  refine ⟨ws, ?_, hspace, ?_, ?_, ?_, ?_⟩
  · rw [hp, List.flatMap_cons, List.append_assoc, ← h.line]
  · exact List.forall_mem_cons.mpr ⟨h.before, h.behind⟩
  · exact List.forall_mem_cons.mpr ⟨hwellFormed, h.wellFormed⟩
  · intro pre v next post hwords hempty
    cases pre with
    | nil =>
      obtain ⟨rfl, hnext⟩ := List.cons.inj hwords
      have hempty : ws₀ = [] := hempty
      -- the next word starts right here, and not with whitespace
      obtain ⟨c, cs, htext, hc⟩ := (h.wellFormed next (hnext ▸ List.mem_cons_self)).head
      have hp' : p' = c :: (cs ++ (next.2 ++ post.flatMap fun w => w.1.text ++ w.2)) := by
        rw [h.line, hempty, hnext, List.flatMap_cons, htext]
        simp
      rcases hbehind with hnil | ⟨d, rest, hd, hdspace⟩ | hquoted
      · exact absurd (hnil.symm.trans hp') (List.cons_ne_nil _ _).symm
      · obtain ⟨rfl, -⟩ := List.cons.inj (hd.symm.trans hp')
        exact absurd (hc.symm.trans hdspace) Bool.false_ne_true
      · exact hquoted
    | cons u pre =>
      exact h.inner pre v next post (List.cons.inj hwords).2 hempty
  · intro pre v post hwords hopen
    cases pre with
    | nil =>
      obtain ⟨rfl, rfl⟩ := List.cons.inj hwords
      have hnil : [] = ws₀ ++ words.flatMap fun w => w.1.text ++ w.2 :=
        (hclosed hopen).symm.trans h.line
      obtain ⟨hws, hrest⟩ := List.append_eq_nil_iff.mp hnil.symm
      refine ⟨?_, hws⟩
      cases words with
      | nil => rfl
      | cons next words =>
        obtain ⟨c, cs, htext, -⟩ := (h.wellFormed next List.mem_cons_self).head
        rw [List.flatMap_cons, htext] at hrest
        exact absurd hrest (List.cons_ne_nil _ _)
    | cons u pre =>
      exact h.last pre v post (List.cons.inj hwords).2 hopen

/-- The loop of `parseLine` cuts the line. -/
theorem parseLoop_cut : ∀ (fuel : Nat) (last_p p : List Char), p.length < fuel →
    ∃ ws₀ words, Cut p ws₀ words ∧
      (parseLoop fuel last_p p).1 = words.map fun w => unEscape w.1.body := by
  intro fuel
  induction fuel with
  | zero => intro last_p p hfuel; exact absurd hfuel (Nat.not_lt_zero _)
  | succ fuel ih =>
    intro last_p p hfuel
    rcases hword : getNextWord p with ⟨_ | word, p'⟩
    · rw [parseLoop_none hword]
      exact ⟨p, [], .blank (getNextWord_eq_none hword).2, rfl⟩
    · have hlt := getNextWord_length_lt hword
      obtain ⟨w, hreads, rfl⟩ := getNextWord_reads hword
      obtain ⟨ws₀, words, hcut, hwords⟩ := ih p' p' (by omega)
      obtain ⟨ws, hcut⟩ := hcut.cons hreads
      rw [parseLoop_some hword]
      exact ⟨ws, _, hcut, congrArg (unEscape w.body :: ·) hwords⟩

/-- **The tokenizer ends, stays in the line and loses nothing**: a word that is read moves the
    pointer forward, to a pointer into the same line; the loop ends at the end of the line, whatever
    bounds its rounds; and the line is cut into whitespace and words, of which the tokens are the
    unescaped bodies. -/
theorem parseLine_cut (line : String) :
    (∀ p word p', getNextWord p = (some word, p') → p'.length < p.length ∧ p' <:+ p) ∧
    (∀ p p', getNextWord p = (none, p') → p' = []) ∧
    (∀ fuel, (cStr line).length < fuel →
      parseLoop fuel (cStr line) (cStr line) =
          parseLoop ((cStr line).length + 1) (cStr line) (cStr line) ∧
        (parseLoop fuel (cStr line) (cStr line)).2.2 = []) ∧
    ∃ ws₀ words, Cut (cStr line) ws₀ words ∧
      parseLine line = words.map fun w => String.ofList (unEscape w.1.body) := by
  refine ⟨fun p word p' h => ?_, fun p p' h => ?_, fun fuel hfuel => ?_, ?_⟩
  · obtain ⟨w, hreads, -⟩ := getNextWord_reads h
    obtain ⟨ws, hp, -⟩ := hreads.split
    refine ⟨getNextWord_length_lt h, ws ++ w.text, ?_⟩
    rw [hp, List.append_assoc]
  · exact (getNextWord_eq_none h).1
  · have hend := (parseLoop_eq_scan fuel (cStr line) (cStr line) hfuel).2.1
    exact ⟨parseLoop_congr _ _ _ _ hfuel (Nat.lt_succ_self _), hend⟩
  · obtain ⟨ws₀, words, hcut, hwords⟩ :=
      parseLoop_cut ((cStr line).length + 1) (cStr line) (cStr line) (Nat.lt_succ_self _)
    refine ⟨ws₀, words, hcut, ?_⟩
    rw [parseLine_eq_readWords, readWords, hwords, List.map_map]
    rfl

end FepControl
