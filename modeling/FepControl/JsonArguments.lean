/-
  JSON as an argument of `callRPC`.

  A request to a remote service takes its arguments as one JSON text, which is typed on the command
  line like any other argument and goes through the same tokenizer.  That tokenizer takes quotes off
  and splits at whitespace, and a JSON text is full of quotes.  It comes through nevertheless, in
  two spellings, and for the same reason: the strings of a JSON text are quoted sections to the
  scanner too, and a quote inside of a word is not taken off.

  1. **Inline** -- a JSON text that can be typed as it is: its whitespace is inside of its strings,
     and nothing in it is escaped.  So is every compact object or array without escapes.

  2. **Two spellings** -- bare, the strings of the text are quoted sections of one unquoted word;
     behind a single quote, the text is the body of a quoted word.  The two loops of the tokenizer
     read the same word (`parseLine_inline`), whatever stands before it on the line.

  3. **The request** -- so `callRPC` gets the text, and builds its request from the value that the
     parser makes of it (`HandsOver`).

  4. **The NUL** -- `parseLine` sees the line up to its first NUL, so that a line with one before
     the argument has no such argument (`not_parseLine_inline`).
-/
import FepControl.Scanner
import FepControl.Invoke

namespace FepControl

open Lib

variable {W : Type}

/-! ## Inline JSON -/

/-- Whitespace is in the strings only; `inside` says whether the text starts in one. -/
def spacesInStrings : (inside : Bool) → List Char → Bool
  | _, [] => true
  | inside, c :: cs => (inside || !isspace c) && spacesInStrings (inside != (c == '"')) cs

/-- A text without escapes that is one word as it is, and stays one in single quotes. -/
structure Inline (j : String) : Prop where
  nonempty : j ≠ ""
  nulFree : NulFree j
  no_backslash : '\\' ∉ j.toList
  no_single_quote : '\'' ∉ j.toList
  head : ∀ c, j.toList.head? = some c → c ≠ '"' ∧ isspace c = false
  even : j.toList.count '"' % 2 = 0
  spaces : spacesInStrings false j.toList = true

/-- Nothing is escaped in it. -/
theorem unEscape_of_no_backslash {cs : List Char} (h : '\\' ∉ cs) : unEscape cs = cs := by
  induction cs with
  | nil => rfl
  | cons c cs ih =>
    have hc : c ≠ '\\' := fun heq => h (heq ▸ List.mem_cons_self)
    rw [unEscape_cons_of_ne hc, ih fun hmem => h (List.mem_cons_of_mem c hmem)]

/-- But for the single quote only the double quote is one. -/
theorem isQuote_iff {c : Char} (h : c ≠ '\'') : isQuote c = true ↔ c = '"' := by
  simp [isQuote, h]

/-! ## The bare spelling -/

/-- Where the scan stands in a text that is typed as it is. -/
def InlineMode (inside : Bool) (mode : Mode) : Prop :=
  if inside then ∃ last_char, mode = .embedded '"' false last_char else mode = .word

theorem InlineMode.isBetween {inside : Bool} {mode : Mode} (h : InlineMode inside mode) :
    mode.isBetween = false := by
  cases inside with
  | false =>
    obtain rfl : mode = .word := h
    rfl
  | true =>
    obtain ⟨last_char, rfl⟩ := h
    rfl

/-- One character: a double quote opens or closes a string, and no string ends otherwise. -/
theorem InlineMode.step {inside : Bool} {mode : Mode} (h : InlineMode inside mode) {c : Char}
    (hbackslash : c ≠ '\\') (hsingle : c ≠ '\'') (hspace : inside = true ∨ isspace c = false) :
    InlineMode (inside != (c == '"')) (mode.step c) := by
  cases inside with
  | false =>
    obtain rfl : mode = .word := h
    by_cases hquote : c = '"'
    · subst hquote
      exact ⟨'"', rfl⟩
    · have hword : ¬ isQuote c = true := fun hc => hquote ((isQuote_iff hsingle).mp hc)
      have hother : ¬ isspace c = true := by
        have hfalse := hspace.resolve_left Bool.false_ne_true
        simp [hfalse]
      have hstep : Mode.step .word c = .word := by
        rw [Mode.step, if_neg hword, if_neg hother]
      rw [hstep]
      simp [InlineMode, hquote]
  | true =>
    obtain ⟨last_char, rfl⟩ := h
    have hescape : escapesNext last_char c = false := by simp [escapesNext, hbackslash]
    by_cases hquote : c = '"'
    · subst hquote
      exact rfl
    · have hstep : Mode.step (.embedded '"' false last_char) c = .embedded '"' false c := by
        rw [Mode.step, if_pos (by simp [hquote]), hescape]
      rw [hstep]
      have hinside : (true != (c == '"')) = true := by simp [hquote]
      rw [hinside]
      exact ⟨c, rfl⟩

/-- The rest of the text belongs to the word. -/
theorem wordsFrom_inline {cs : List Char} (hbackslash : '\\' ∉ cs) (hsingle : '\'' ∉ cs) :
    ∀ {inside : Bool} {mode : Mode} (word : List Char), InlineMode inside mode →
      spacesInStrings inside cs = true → wordsFrom mode word cs = [word ++ cs] := by
  induction cs with
  | nil =>
    intro inside mode word hmode _
    rw [wordsFrom, hmode.isBetween, List.append_nil]
    rfl
  | cons c cs ih =>
    intro inside mode word hmode hspaces
    rw [spacesInStrings, Bool.and_eq_true, Bool.or_eq_true, Bool.not_eq_true'] at hspaces
    have hc : c ≠ '\\' := fun heq => hbackslash (heq ▸ List.mem_cons_self)
    have hc' : c ≠ '\'' := fun heq => hsingle (heq ▸ List.mem_cons_self)
    have hstep := hmode.step hc hc' hspaces.1
    have hrest := ih (fun hmem => hbackslash (List.mem_cons_of_mem c hmem))
      (fun hmem => hsingle (List.mem_cons_of_mem c hmem)) (word ++ [c]) hstep hspaces.2
    rw [wordsFrom, hmode.isBetween, hstep.isBetween]
    simpa using hrest

/-- **The bare text is one word.** -/
theorem wordsFrom_bare {j : String} (hj : Inline j) :
    wordsFrom .start [] j.toList = [j.toList] := by
  obtain ⟨c, cs, hcs⟩ : ∃ c cs, j.toList = c :: cs := by
    cases hlist : j.toList with
    | nil => exact absurd (String.toList_eq_nil_iff.mp hlist) hj.nonempty
    | cons c cs => exact ⟨c, cs, rfl⟩
  obtain ⟨hquote, hspace⟩ := hj.head c (by rw [hcs]; rfl)
  have hbackslash := hj.no_backslash
  have hsingle := hj.no_single_quote
  have hspaces := hj.spaces
  rw [hcs] at hbackslash hsingle hspaces ⊢
  have hc' : c ≠ '\'' := fun heq => hsingle (heq ▸ List.mem_cons_self)
  have hword : ¬ isQuote c = true := fun hc => hquote ((isQuote_iff hc').mp hc)
  have hstep : Mode.start.step c = .word := by
    rw [Mode.start, Mode.step, if_neg (by simp [hspace]), if_neg hword]
  have hinside : (false != (c == '"')) = false := by simp [hquote]
  rw [spacesInStrings, Bool.and_eq_true, hinside] at hspaces
  have hrest := wordsFrom_inline (fun hmem => hbackslash (List.mem_cons_of_mem c hmem))
    (fun hmem => hsingle (List.mem_cons_of_mem c hmem)) [c] (show InlineMode false .word from rfl)
    hspaces.2
  rw [wordsFrom, hstep]
  exact hrest

/-! ## The quoted spelling -/

/-- The body of a word in single quotes. -/
theorem wordsFrom_body {cs : List Char} (hbackslash : '\\' ∉ cs) (hsingle : '\'' ∉ cs) :
    ∀ (last_char : Char) (word : List Char),
      wordsFrom (.quoted '\'' false last_char) word (cs ++ ['\'']) = [word ++ cs] := by
  induction cs with
  | nil =>
    intro last_char word
    rw [List.nil_append, List.append_nil]
    rfl
  | cons c cs ih =>
    intro last_char word
    have hc : c ≠ '\\' := fun heq => hbackslash (heq ▸ List.mem_cons_self)
    have hc' : c ≠ '\'' := fun heq => hsingle (heq ▸ List.mem_cons_self)
    have hescape : escapesNext last_char c = false := by simp [escapesNext, hc]
    have hstep : Mode.step (.quoted '\'' false last_char) c = .quoted '\'' false c := by
      rw [Mode.step, if_pos (by simp [hc']), hescape]
    have hrest := ih (fun hmem => hbackslash (List.mem_cons_of_mem c hmem))
      (fun hmem => hsingle (List.mem_cons_of_mem c hmem)) c (word ++ [c])
    rw [List.append_assoc] at hrest
    rw [List.cons_append, wordsFrom, hstep]
    exact hrest

/-- **The quoted text is the same word.** -/
theorem wordsFrom_quoted {j : String} (hj : Inline j) :
    wordsFrom .start [] ('\'' :: (j.toList ++ ['\''])) = [j.toList] := by
  have hbody := wordsFrom_body hj.no_backslash hj.no_single_quote '\x00' []
  rw [List.nil_append] at hbody
  rw [wordsFrom]
  exact hbody

/-! ## The line -/

/-- A line has no NUL if its parts have none. -/
theorem nulFree_append_iff {p q : String} : NulFree (p ++ q) ↔ NulFree p ∧ NulFree q := by
  simp [NulFree, String.toList_append, not_or]

/-- A line and one more word. -/
theorem parseLine_append_word {p text j : String} (hp : NulFree p) (hopen : ¬ OpenAtEnd p)
    (htext : NulFree text) (hword : wordsFrom .start [] text.toList = [j.toList])
    (hbackslash : '\\' ∉ j.toList) : parseLine (p ++ " " ++ text) = parseLine p ++ [j] := by
  have hopen : (scan .start p.toList).isOpen = false := by simpa [OpenAtEnd] using hopen
  have hnul : NulFree (p ++ " " ++ text) :=
    nulFree_append_iff.mpr ⟨nulFree_append_iff.mpr ⟨hp, by decide⟩, htext⟩
  have hline : cStr (p ++ " " ++ text) = p.toList ++ ([' '] ++ text.toList) := by
    rw [cStr_of_nulFree hnul, String.toList_append, String.toList_append, List.append_assoc]
    rfl
  have hwords := wordsFrom_append hopen (List.forall_mem_singleton.mpr (rfl : isspace ' ' = true))
    text.toList
  rw [parseLine_eq_scan, parseLine_eq_scan p, hline, hwords, hword, cStr_of_nulFree hp]
  simp [unEscape_of_no_backslash hbackslash]

/-- The line is dispatched to `callRPC` with the text `j` as the arguments of the function, and the
    request is built from what the parser makes of `j`. -/
structure HandsOver (line action s p service function j : String) : Prop where
  command : ∀ W, (processCommandline (parseLine line) : Control W Int) = (do
    let success ← withParticipant action s p (callRPCRest action s p service function j)
    pure (if success then 0 else 1))
  request : ∀ (W : Type) (env : Env W) (m : Machine W), buildRPCRequest function j env m =
    orThrow (((env.parse j).mapError ("JSON parameters can not be parsed: " ++ ·)).map
      (env.buildRequest function)) env m

/-- The optional argument of `callRPC` is accepted. -/
theorem table_callRPC : ∀ cmd ∈ getControlCommands, cmd.action = .callRPC →
    cmd.accepts 7 = true := by decide

/-- The tokens of a line decide what is handed over. -/
theorem handsOver_of_tokens {line action s p service iid function j : String}
    (hline : parseLine line = [action, s, p, service, iid, function, j]) (hj : j ≠ "")
    {cmd : ControlCommand} (hcmd : findCommand action = some cmd)
    (haction : cmd.action = .callRPC) : HandsOver line action s p service function j := by
  have haccepts := table_callRPC cmd (List.mem_of_find?_eq_some hcmd) haction
  have hd : dispatched [action, s, p, service, iid, function, j] = some cmd := by
    simp [dispatched, hcmd, haccepts]
  constructor
  · intro W
    have hform := callRPC_form (W := W) action s p service iid function
      (show [j].length ≤ 1 from Nat.le_refl 1)
    rw [hline, processCommandline_dispatched hd, haction]
    exact congrArg (fun c : Control W Bool => c >>= fun success => pure (if success then 0 else 1))
      hform
  · intro W env m
    rw [buildRPCRequest_apply]
    unfold rpcRequest parsed
    rw [if_neg hj]
    cases env.parse j <;> rfl

/-- **JSON arguments reach the RPC unchanged**: a text that is typed bare, or in single quotes, is
    one more token of the line, and the one that `callRPC` hands to the parser. -/
theorem parseLine_inline {p j : String} (hp : NulFree p) (hopen : ¬ OpenAtEnd p) (hj : Inline j) :
    parseLine (p ++ " " ++ j) = parseLine p ++ [j] ∧
    parseLine (p ++ " '" ++ j ++ "'") = parseLine p ++ [j] ∧
    ∀ action s participant service iid function cmd,
      parseLine p = [action, s, participant, service, iid, function] →
      findCommand action = some cmd → cmd.action = .callRPC →
      HandsOver (p ++ " " ++ j) action s participant service function j ∧
        HandsOver (p ++ " '" ++ j ++ "'") action s participant service function j := by
  have hbare : parseLine (p ++ " " ++ j) = parseLine p ++ [j] :=
    parseLine_append_word hp hopen hj.nulFree (wordsFrom_bare hj) hj.no_backslash
  have hquoted : parseLine (p ++ " '" ++ j ++ "'") = parseLine p ++ [j] := by
    have hspelling : p ++ " '" ++ j ++ "'" = p ++ " " ++ ("'" ++ j ++ "'") := by
      simp only [String.append_assoc]
      rfl
    have htext : ("'" ++ j ++ "'").toList = '\'' :: (j.toList ++ ['\'']) := by
      rw [String.toList_append, String.toList_append]
      rfl
    have hnul : NulFree ("'" ++ j ++ "'") :=
      nulFree_append_iff.mpr ⟨nulFree_append_iff.mpr ⟨by decide, hj.nulFree⟩, by decide⟩
    rw [hspelling]
    exact parseLine_append_word hp hopen hnul (htext ▸ wordsFrom_quoted hj) hj.no_backslash
  refine ⟨hbare, hquoted, ?_⟩
  intro action s participant service iid function cmd hline hcmd haction
  rw [hline] at hbare hquoted
  exact ⟨handsOver_of_tokens hbare hj.nonempty hcmd haction,
    handsOver_of_tokens hquoted hj.nonempty hcmd haction⟩

/-- `{"logger_name":"a b"}`. -/
def loggerName : String := "\x7b\"logger_name\":\"a b\"\x7d"

/-- The arguments of a request for a logger can be typed as they are. -/
theorem loggerName_inline : Inline loggerName where
  nonempty := by decide
  nulFree := by decide
  no_backslash := by decide
  no_single_quote := by decide
  head := by
    intro c h
    obtain rfl := Option.some.inj h
    decide
  even := by decide
  spaces := by decide

/-- The argument of `getLoggerFilter`. -/
theorem parseLine_inline_getLoggerFilter :
    HandsOver ("callRPC s p logging_service iid getLoggerFilter" ++ " " ++ loggerName) "callRPC"
        "s" "p" "logging_service" "getLoggerFilter" loggerName ∧
      HandsOver ("callRPC s p logging_service iid getLoggerFilter" ++ " '" ++ loggerName ++ "'")
        "callRPC" "s" "p" "logging_service" "getLoggerFilter" loggerName :=
  (parseLine_inline (p := "callRPC s p logging_service iid getLoggerFilter") (by decide) (by decide)
    loggerName_inline).2.2 "callRPC" "s" "p" "logging_service" "iid" "getLoggerFilter" _ (by decide)
    rfl rfl

/-- A line is read up to its first NUL, and nothing behind it is a token. -/
theorem not_parseLine_inline : ¬ ∀ p j : String, ¬ OpenAtEnd p → Inline j →
    parseLine (p ++ " " ++ j) = parseLine p ++ [j] ∧
      parseLine (p ++ " '" ++ j ++ "'") = parseLine p ++ [j] := by
  intro h
  have hbare := (h "\x00" loggerName (by decide) loggerName_inline).1
  exact absurd hbare (by decide)

end FepControl
