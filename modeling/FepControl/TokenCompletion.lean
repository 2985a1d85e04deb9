/-
  Completing the tokens of a line, whatever the line is: the editor calls the completion on the
  buffer as it is when the tab key is pressed.

  1. **Accesses** -- `commandCompletion` once more, with the index of every access and with the
     subtraction of sizes.  It computes the same, and stops at an access out of range
     (`commandCompletionAccesses_eq`).

  2. **The number of tokens** -- with `add_empty` a line that is not empty has a token: its first
     word, or the empty one behind its whitespace.  The empty line has none
     (`parseLine_eq_nil_iff`), and there the source takes the first token of an empty vector.  Apart
     from that one line every access is in range (`accessesInBounds_iff`).

  3. **Command names** -- a single token is quoted before it is compared with the names.  The names
     are made of `Bare` characters, which need no quoting (`commandNames_bare`).  A token that is
     bare, too, is its own spelling; any other one is spelled with a character that is not bare, and
     starts no name either way (`startsWith_quoteNameIfNecessary`).

  4. **The empty token** -- it is the one token that quoting changes from a prefix of every name to
     a prefix of none.  So the names are completed exactly when the token is not empty
     (`commandNameCompletion_iff`).
-/
import FepControl.Completion
import FepControl.Scanner

namespace FepControl

open Lib

variable {W : Type}

/-! ## The accesses -/

/-- `v[index]`, in bounds or not at all. -/
def at_ {α : Type} (v : List α) (index : Nat) : Control W α :=
  match v[index]? with
  | some a => pure a
  | none => Eff.stop .iteratorOutOfRange

/-- `v.back()`. -/
def back {α : Type} (v : List α) : Control W α :=
  match v.getLast? with
  | some a => pure a
  | none => Eff.stop .iteratorOutOfRange

/-- `v.pop_back()`. -/
def pop_back {α : Type} (v : List α) : Control W (List α) :=
  if v.isEmpty then Eff.stop .iteratorOutOfRange else pure v.dropLast

/-- `a - b` of sizes, if it does not wrap. -/
def minus (a b : Nat) : Control W Nat :=
  if b ≤ a then pure (a - b) else Eff.stop .iteratorOutOfRange

/-- `commandCompletion` with its accesses. -/
def commandCompletionAccesses (input : String) : Control W (List String) := do
  let input_tokens := parseLine input true
  if input_tokens.length = 1 then
    let token ← at_ input_tokens 0
    commandNameCompletion (quoteNameIfNecessary token)
  else
    let front ← at_ input_tokens 0
    match findCommand front with
    | none => pure []
    | some cmd => do
        let index_in_args ← minus input_tokens.length 2
        if index_in_args < cmd.arguments.length then
          let argument ← at_ cmd.arguments index_in_args
          let last ← back input_tokens
          let exec ← argument.completion.complete last
          if exec.isEmpty then pure []
          else
            let input_tokens ← pop_back input_tokens
            let command_prefix := join (input_tokens.map quoteNameIfNecessary) " " ++ " "
            pure (exec.map fun word_completion =>
              command_prefix ++ quoteNameIfNecessary word_completion)
        else pure []

/-- Every access is in bounds, and the subtraction does not wrap. -/
def AccessesInBounds (input : String) (env : Env W) (m : Machine W) : Prop :=
  ¬ Eff.Stops (commandCompletionAccesses input) env m

/-- The accesses compute what the lists say. -/
theorem commandCompletionAccesses_eq (input : String) :
    (commandCompletionAccesses input : Control W (List String)) = commandCompletion input := by
  unfold commandCompletionAccesses commandCompletion
  generalize parseLine input true = input_tokens
  rcases input_tokens with _ | ⟨front, _ | ⟨token, tokens⟩⟩
  · rfl
  · rfl
  · have hlength : (front :: token :: tokens).length ≠ 1 := by simp
    have hminus : (minus (front :: token :: tokens).length 2 : Control W Nat) =
        pure tokens.length := by
      unfold minus
      simp
    dsimp only
    rw [if_neg hlength]
    show (match findCommand front with
      | none => _
      | some cmd => _ : Control W (List String)) = _
    cases findCommand front with
    | none => rfl
    | some cmd =>
      dsimp only
      rw [hminus, pure_bind]
      cases hargument : cmd.arguments[tokens.length]? with
      | none =>
        rw [if_neg (Nat.not_lt.mpr (List.getElem?_eq_none_iff.mp hargument))]
      | some argument =>
        obtain ⟨hlt, -⟩ := List.getElem?_eq_some_iff.mp hargument
        have hat : (at_ cmd.arguments tokens.length : Control W ArgumentHandler) =
            pure argument := by
          rw [at_, hargument]
        rw [if_pos hlt, hat, pure_bind]
        rfl

/-! ## The number of tokens -/

/-- **A line without tokens is empty**: only the first character decides. -/
theorem parseLine_eq_nil_iff (line : String) : parseLine line true = [] ↔ cStr line = [] := by
  constructor
  · intro hnil
    rcases hword : getNextWord (cStr line) with ⟨_ | word, p'⟩
    · -- all the line is skipped, and an empty token stands for what has been
      obtain ⟨rfl, -⟩ := getNextWord_eq_none hword
      rw [parseLine, parseLoop_none hword] at hnil
      by_cases hempty : cStr line = []
      · exact hempty
      · have hlast : (cStr line != []) = true := bne_iff_ne.mpr hempty
        simp [hlast] at hnil
    · rw [parseLine, parseLoop_some hword] at hnil
      dsimp only at hnil
      split at hnil
      · simp at hnil
      · simp at hnil
  · intro hnil
    rw [parseLine, hnil]
    rfl

/-- A line without a NUL is empty if what `c_str()` shows of it is. -/
theorem cStr_eq_nil {line : String} (hnul : NulFree line) : cStr line = [] ↔ line = "" := by
  rw [cStr_of_nulFree hnul, String.toList_eq_nil_iff]

/-- A line of at least one token is completed without an access out of bounds. -/
theorem commandCompletion_not_stops {input : String} (hne : parseLine input true ≠ [])
    (env : Env W) (m : Machine W) : ¬ Eff.Stops (commandCompletion input) env m := by
  by_cases hlength : 2 ≤ (parseLine input true).length
  · rw [commandCompletion_eq hlength, Eff.stops_bind_left fun _ _ => id]
    exact Eff.not_stops_of_wp (candidates_wp _ env m) fun _ _ h => h
  · obtain ⟨token, htoken⟩ : ∃ token, parseLine input true = [token] := by
      have hpos := List.length_pos_iff.mpr hne
      exact List.length_eq_one_iff.mp (by omega)
    unfold commandCompletion
    rw [htoken]
    exact id

/-- **Completion stays in bounds** exactly on the lines that are not empty. -/
theorem accessesInBounds_iff {line : String} (hnul : NulFree line) (env : Env W) (m : Machine W) :
    AccessesInBounds line env m ↔ line ≠ "" := by
  rw [AccessesInBounds, commandCompletionAccesses_eq]
  constructor
  · rintro hstops rfl
    exact hstops trivial
  · intro hne
    refine commandCompletion_not_stops (fun hnil => hne ?_) env m
    exact (cStr_eq_nil hnul).mp ((parseLine_eq_nil_iff line).mp hnil)

/-- A line of blanks, with the cursor behind it. -/
theorem accessesInBounds_blank :
    AccessesInBounds " " Env.answering (Machine.new false "" ()) ↔ " " ≠ "" :=
  accessesInBounds_iff (by decide) Env.answering (Machine.new false "" ())

/-- The tab key on an empty line. -/
theorem not_accessesInBounds : ¬ ∀ (W : Type) (env : Env W) (m : Machine W) (line : String),
    NulFree line → AccessesInBounds line env m := by
  intro h
  have hstops : Eff.Stops (commandCompletionAccesses "") Env.answering (Machine.new false "" ()) :=
    trivial
  exact h Unit Env.answering (Machine.new false "" ()) "" (by decide) hstops

/-! ## Command names -/

/-- The names of the commands, in the order of the table. -/
def commandNames : List String := getControlCommands.map ControlCommand.name

/-- A character that no quoting is for. -/
def Bare (c : Char) : Prop := isspace c = false ∧ needsBackslash c = false

instance (c : Char) : Decidable (Bare c) := inferInstanceAs (Decidable (_ ∧ _))

/-- The names of the commands need no quoting, and differ. -/
theorem commandNames_bare : ∀ name ∈ commandNames, ∀ c ∈ name.toList, Bare c := by
  have hall : (commandNames.all fun name => name.toList.all fun c => decide (Bare c)) = true := by
    decide +kernel
  intro name hname c hc
  have hbare := List.all_eq_true.mp (List.all_eq_true.mp hall name hname) c hc
  exact of_decide_eq_true hbare

/-- No two commands have one name. -/
theorem commandNames_nodup : commandNames.Nodup := by decide +kernel

/-- A token of bare characters is its own spelling. -/
theorem quoteNameIfNecessary_of_bare {t : String} (hne : t ≠ "") (hbare : ∀ c ∈ t.toList, Bare c) :
    quoteNameIfNecessary t = t := by
  have hquotes : needQuotes t.toList = false := by
    rw [needQuotes, Bool.or_eq_false_iff, List.any_eq_false]
    refine ⟨by simpa using hne, fun c hc => ?_⟩
    simp [(hbare c hc).1]
  have hbackslash : t.toList.any needsBackslash = false := by
    rw [List.any_eq_false]
    intro c hc
    simp [(hbare c hc).2]
  unfold quoteNameIfNecessary
  simp [hquotes, hbackslash]

/-- Escaping adds backslashes, and keeps every character. -/
theorem mem_escape_of_mem {c : Char} : ∀ {name : List Char}, c ∈ name → c ∈ escape name := by
  intro name
  induction name with
  | nil => exact fun h => absurd h List.not_mem_nil
  | cons d name ih =>
    intro h
    by_cases hneeds : needsBackslash d = true
    · rw [escape_cons_of_needs hneeds]
      rcases List.mem_cons.mp h with rfl | h
      · simp
      · simp [ih h]
    · rw [escape_cons_of_not (Bool.eq_false_iff.mpr hneeds)]
      rcases List.mem_cons.mp h with rfl | h
      · simp
      · simp [ih h]

/-- Every other spelling has a character that is not bare. -/
theorem exists_not_bare {t : String} (h : ¬ ∀ c ∈ t.toList, Bare c) :
    ∃ c ∈ (quoteNameIfNecessary t).toList, ¬ Bare c := by
  obtain ⟨c, h⟩ := Classical.not_forall.mp h
  obtain ⟨hc, hbare⟩ := Classical.not_imp.mp h
  rw [toList_quoteNameIfNecessary]
  by_cases hquotes : needQuotes t.toList = true
  · rw [if_pos hquotes]
    exact ⟨'"', List.mem_cons_self, by decide⟩
  · rw [if_neg hquotes]
    exact ⟨c, mem_escape_of_mem hc, hbare⟩

/-- What starts a bare name is bare. -/
theorem bare_of_startsWith {p name : String} (hname : ∀ c ∈ name.toList, Bare c)
    (h : startsWith p name = true) : ∀ c ∈ p.toList, Bare c := by
  intro c hc
  exact hname c ((List.isPrefixOf_iff_prefix.mp h).subset hc)

/-- Quoting a token that is not empty does not change which bare names start with it. -/
theorem startsWith_quoteNameIfNecessary {t name : String} (hne : t ≠ "")
    (hname : ∀ c ∈ name.toList, Bare c) :
    startsWith (quoteNameIfNecessary t) name = startsWith t name := by
  by_cases hbare : ∀ c ∈ t.toList, Bare c
  · rw [quoteNameIfNecessary_of_bare hne hbare]
  · obtain ⟨c, hc, hnot⟩ := exists_not_bare hbare
    have hquoted : startsWith (quoteNameIfNecessary t) name = false :=
      Bool.eq_false_iff.mpr fun h => hnot (bare_of_startsWith hname h c hc)
    have hplain : startsWith t name = false :=
      Bool.eq_false_iff.mpr fun h => hbare (bare_of_startsWith hname h)
    rw [hquoted, hplain]

/-- The names of the commands that start with the token, in the order of the table, each once. -/
structure NamesCompleted (t : String) (completions : List String) : Prop where
  in_order : completions.Sublist commandNames
  exact_names : ∀ name, name ∈ completions ↔ name ∈ commandNames ∧ startsWith t name = true
  once : completions.Nodup

/-- Filtering the table by the token is what is asked for. -/
theorem namesCompleted_completionsOf (t : String) :
    NamesCompleted t (completionsOf t commandNames) where
  in_order := List.filter_sublist
  exact_names _ := List.mem_filter
  once := commandNames_nodup.filter _

/-- What the line of one token is completed to. -/
theorem commandCompletion_single {line t : String} (ht : parseLine line true = [t]) (env : Env W)
    (m : Machine W) : commandCompletion line env m =
      (.ok (completionsOf (quoteNameIfNecessary t) commandNames), m) := by
  unfold commandCompletion
  rw [ht]
  rfl

/-- **Command names are completed exactly** when the token is not empty. -/
theorem commandNameCompletion_iff {line t : String} (ht : parseLine line true = [t]) (env : Env W)
    (m : Machine W) :
    (∃ completions, commandCompletion line env m = (.ok completions, m) ∧
        NamesCompleted t completions) ↔ t ≠ "" := by
  have hcompletion := commandCompletion_single ht env m
  constructor
  · rintro ⟨completions, heq, hnames⟩ rfl
    -- nothing starts with two quotes, but every name with nothing
    have hnothing : completionsOf (quoteNameIfNecessary "") commandNames = [] := by decide
    rw [hcompletion, hnothing] at heq
    obtain rfl := Outcome.ok.inj (Prod.mk.inj heq).1
    exact absurd ((hnames.exact_names "help").mpr (by decide)) List.not_mem_nil
  · intro hne
    refine ⟨_, hcompletion, ?_⟩
    have hsame : completionsOf (quoteNameIfNecessary t) commandNames =
        completionsOf t commandNames := by
      refine List.filter_congr fun name hname => ?_
      exact startsWith_quoteNameIfNecessary hne (commandNames_bare name hname)
    rw [hsame]
    exact namesCompleted_completionsOf t

/-- `start` is completed. -/
theorem commandNameCompletion_iff_start :
    (∃ completions, commandCompletion "  start" Env.answering (Machine.new false "" ()) =
        (.ok completions, Machine.new false "" ()) ∧ NamesCompleted "start" completions) ↔
      "start" ≠ "" :=
  commandNameCompletion_iff (by decide) Env.answering (Machine.new false "" ())

/-- A blank line offers no command. -/
theorem not_commandNameCompletion : ¬ ∀ (W : Type) (env : Env W) (m : Machine W) (line t : String),
    line ≠ "" → NulFree line → parseLine line true = [t] →
    ∃ completions, commandCompletion line env m = (.ok completions, m) ∧
      NamesCompleted t completions := by
  intro h
  obtain ⟨completions, heq, hnames⟩ := h Unit Env.answering (Machine.new false "" ()) " " ""
    (by decide) (by decide) (by decide)
  have hnothing : commandCompletion " " Env.answering (Machine.new false "" ()) =
      (.ok [], Machine.new false "" ()) := by rfl
  rw [hnothing] at heq
  obtain rfl := Outcome.ok.inj (Prod.mk.inj heq).1
  exact absurd ((hnames.exact_names "help").mpr (by decide)) List.not_mem_nil

end FepControl
