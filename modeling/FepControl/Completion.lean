/-
  Completion on the command line: the completions that the command table points to, and
  `commandCompletion` of `fep_control_commandline.cpp`.

  The editor hands the line to `commandCompletion`, which cuts it into tokens, asks the completion
  of the argument that the last token belongs to, and gives whole lines back: the tokens before the
  last one, and one candidate in its place.  Accepting a completion and entering it brings the line
  to the tokenizer a second time.

  1. **Candidates** -- a completion is given the last token and answers with the names that start
     with it.  Only the completion of participant names asks the library, for the participants and
     for their names, and so may throw; the others read the session or a fixed list
     (`ArgumentCompletionFunction.names`, `complete_wp`).

  2. **Encoding** -- `commandCompletion` spells the tokens before the last one, and every candidate,
     with `quoteNameIfNecessary`: a completion IS the command line of these names
     (`commandCompletion_eq`).

  3. **Reading back** -- the line is tokenized again when it is entered.  A name without quote
     characters is `Readable` and `Closed`, so the tokenizer gives the names back
     (`parseLine_commandLine`), if it sees them whole: it reads the line up to the first NUL.

  4. **The law** -- the completions of a line are one for one, and in order, the candidates that the
     argument has; and where the tokens are free of quote characters, and the candidates of these
     and of NULs, each completion reads back as the tokens before the last and the candidate
     (`commandCompletion_readsBack`).  A name with a NUL in it is cut
     (`not_commandCompletion_readsBack`).
-/
import FepControl.Quoting
import FepControl.Commands.Table

namespace FepControl

open Lib

variable {W : Type}

/-! ## The completions of the arguments -/

/-- `s.compare(0u, wordPrefix.size(), wordPrefix) == 0`. -/
def startsWith (wordPrefix s : String) : Bool := wordPrefix.toList.isPrefixOf s.toList

/-- The loop of a completion over names it has at hand. -/
def completionsOf (wordPrefix : String) (names : List String) : List String :=
  names.filter (startsWith wordPrefix)

/-- `usedPropertiesCompletion`. -/
def usedPropertiesCompletion (wordPrefix : String) : Control W (List String) := do
  pure (completionsOf wordPrefix (← session).used_properties)

/-- `noCompletion`. -/
def noCompletion (_wordPrefix : String) : Control W (List String) := pure []

/-- `connectedSystemsCompletion`: the keys of the registry. -/
def connectedSystemsCompletion (wordPrefix : String) : Control W (List String) := do
  pure (completionsOf wordPrefix
    ((← session).connected_or_discovered_systems.entries.map Prod.fst))

/-- The loop of `connectedParticipantsCompletion`, which asks a participant that matches for its
    name once more. -/
def matchingNames (wordPrefix : String) : List ParticipantProxy → Control W (List String)
  | [] => pure []
  | part :: parts => do
      let name ← part.getName
      if startsWith wordPrefix name then
        let completion ← part.getName
        let completions ← matchingNames wordPrefix parts
        pure (completion :: completions)
      else matchingNames wordPrefix parts

/-- `connectedParticipantsCompletion`: the participants of the system that was used last. -/
def connectedParticipantsCompletion (wordPrefix : String) : Control W (List String) := do
  let s ← session
  match s.connected_or_discovered_systems.find? s.last_system_name_used with
  | none => pure []
  | some found_system =>
      let parts ← found_system.getParticipants
      matchingNames wordPrefix parts

/-- `possible_states` of `possibleSystemsStateCompletion`. -/
def possible_states : List String :=
  ["shutdowned", "unloaded", "loaded", "initialized", "paused", "running"]

/-- `possibleSystemsStateCompletion`. -/
def possibleSystemsStateCompletion (wordPrefix : String) : Control W (List String) :=
  pure (completionsOf wordPrefix possible_states)

/-- `commandNameCompletion`, of `FepControl` and, with the same body, of the command line. -/
def commandNameCompletion (wordPrefix : String) : Control W (List String) :=
  pure (completionsOf wordPrefix (getControlCommands.map ControlCommand.name))

/-- `(this->*completion)(wordPrefix)`. -/
def ArgumentCompletionFunction.complete (wordPrefix : String) :
    ArgumentCompletionFunction → Control W (List String)
  | .noCompletion => FepControl.noCompletion wordPrefix
  | .commandNameCompletion => FepControl.commandNameCompletion wordPrefix
  | .connectedSystemsCompletion => FepControl.connectedSystemsCompletion wordPrefix
  | .connectedParticipantsCompletion => FepControl.connectedParticipantsCompletion wordPrefix
  | .usedPropertiesCompletion => FepControl.usedPropertiesCompletion wordPrefix
  | .possibleSystemsStateCompletion => FepControl.possibleSystemsStateCompletion wordPrefix

/-! ## `commandCompletion` -/

/-- `commandCompletion`. -/
def commandCompletion (input : String) : Control W (List String) :=
  match parseLine input true with
  | [] => Eff.stop .iteratorOutOfRange
  | [token] => commandNameCompletion (quoteNameIfNecessary token)
  | front :: token :: tokens =>
      match findCommand front with
      | none => pure []
      | some cmd =>
          -- `index_in_args`, the number of tokens less two
          match cmd.arguments[tokens.length]? with
          | none => pure []
          | some argument => do
              let exec ← argument.completion.complete ((token :: tokens).getLast (by simp))
              if exec.isEmpty then pure []
              else
                let input_tokens := (front :: (token :: tokens).dropLast).map quoteNameIfNecessary
                let command_prefix := join input_tokens " " ++ " "
                pure (exec.map fun word_completion =>
                  command_prefix ++ quoteNameIfNecessary word_completion)

/-- The argument that the last of at least two tokens stands for. -/
def completedArgument (input_tokens : List String) : Option ArgumentHandler := do
  let cmd ← findCommand (input_tokens.headD "")
  cmd.arguments[input_tokens.length - 2]?

/-- What the completion of that argument answers for the last token. -/
def candidates (input_tokens : List String) : Control W (List String) :=
  match completedArgument input_tokens with
  | none => pure []
  | some argument => argument.completion.complete (input_tokens.getLastD "")

/-! ## What the completions answer

  A completion chooses, from a list of names that the session fixes, those that start with the
  token; the library is only asked for names. -/

/-- The names that a completion chooses from. -/
def ArgumentCompletionFunction.names (s : Session) : ArgumentCompletionFunction → List String
  | .noCompletion => []
  | .commandNameCompletion => getControlCommands.map ControlCommand.name
  | .connectedSystemsCompletion => s.connected_or_discovered_systems.entries.map Prod.fst
  | .connectedParticipantsCompletion =>
      match s.connected_or_discovered_systems.find? s.last_system_name_used with
      | none => []
      | some found_system => found_system.participants
  | .usedPropertiesCompletion => s.used_properties
  | .possibleSystemsStateCompletion => possible_states

/-- The calls of `matchingNames`. -/
def naming (wordPrefix : String) : List ParticipantProxy → List Call
  | [] => []
  | part :: parts =>
      (if startsWith wordPrefix part.name then
        [.participant part .getName, .participant part .getName]
      else [.participant part .getName]) ++ naming wordPrefix parts

/-- The loop over the participants asks for their names in order, and then filters them. -/
theorem matchingNames_eq (wordPrefix : String) : ∀ parts : List ParticipantProxy,
    matchingNames wordPrefix parts = (do
      callAll (naming wordPrefix parts)
      pure (completionsOf wordPrefix (parts.map ParticipantProxy.name)) :
        Control W (List String))
  | [] => rfl
  | part :: parts => by
      rw [matchingNames, matchingNames_eq wordPrefix parts, ParticipantProxy.getName, naming,
        callAll_append, List.map_cons]
      simp only [bind_assoc, pure_bind, completionsOf]
      by_cases hname : startsWith wordPrefix part.name = true
      · rw [List.filter_cons_of_pos hname]
        simp only [if_pos hname, bind_assoc, pure_bind, callAll]
      · rw [List.filter_cons_of_neg hname]
        simp only [if_neg hname, bind_assoc, pure_bind, callAll]

/-- The calls of `connectedParticipantsCompletion`, if the system that was used last is there. -/
def participantCalls (wordPrefix : String) (system : System) : List Call :=
  .system system .getParticipants :: naming wordPrefix system.proxies

/-- The participants of the system that was used last. -/
theorem connectedParticipantsCompletion_found {m : Machine W} {found_system : System}
    (hfind : m.registry.find? m.session.last_system_name_used = some found_system)
    (wordPrefix : String) (env : Env W) :
    connectedParticipantsCompletion wordPrefix env m = (do
      callAll (participantCalls wordPrefix found_system)
      pure (completionsOf wordPrefix found_system.participants) : Control W (List String))
        env m := by
  have hcalls : (do
      let parts ← found_system.getParticipants
      matchingNames wordPrefix parts : Control W (List String)) = (do
      callAll (participantCalls wordPrefix found_system)
      pure (completionsOf wordPrefix found_system.participants)) := by
    rw [participantCalls, System.getParticipants, callAll]
    simp only [bind_assoc, pure_bind]
    rw [← System.proxies, matchingNames_eq, System.names_proxies]
  rw [← hcalls]
  show (match m.registry.find? m.session.last_system_name_used with
    | none => pure []
    | some found_system => _ : Control W (List String)) env m = _
  rw [hfind]

/-- The name used last is no key: there are no candidates, and no call is made. -/
theorem connectedParticipantsCompletion_none {m : Machine W}
    (hfind : m.registry.find? m.session.last_system_name_used = none) (wordPrefix : String)
    (env : Env W) : connectedParticipantsCompletion wordPrefix env m = (.ok [], m) := by
  show (match m.registry.find? m.session.last_system_name_used with
    | none => pure []
    | some found_system => _ : Control W (List String)) env m = _
  rw [hfind]
  rfl

/-- **Every completion is a prefix filter** over its names; it may throw where it asks the library,
    and it never stops. -/
theorem complete_wp (wordPrefix : String) (completion : ArgumentCompletionFunction)
    (env : Env W) (m : Machine W) : (completion.complete wordPrefix).wp env
      ⟨fun ws m' => Silent m m' ∧ ws = completionsOf wordPrefix (completion.names m.session),
        fun _ m' => Silent m m', fun _ _ => False⟩ m := by
  cases completion with
  | noCompletion => exact ⟨Silent.refl m, rfl⟩
  | commandNameCompletion => exact ⟨Silent.refl m, rfl⟩
  | connectedSystemsCompletion => exact ⟨Silent.refl m, rfl⟩
  | usedPropertiesCompletion => exact ⟨Silent.refl m, rfl⟩
  | possibleSystemsStateCompletion => exact ⟨Silent.refl m, rfl⟩
  | connectedParticipantsCompletion =>
    rw [ArgumentCompletionFunction.complete, ArgumentCompletionFunction.names]
    cases hfind : m.registry.find? m.session.last_system_name_used with
    | none =>
      unfold Eff.wp
      rw [connectedParticipantsCompletion_none hfind]
      exact ⟨Silent.refl m, rfl⟩
    | some found_system =>
      unfold Eff.wp
      rw [connectedParticipantsCompletion_found hfind]
      refine (Eff.wp_bind _ _ env _ m).mpr ?_
      exact Eff.wp_mono (callAll_wp env _ m) (fun _ _ h => ⟨h.1, rfl⟩) (fun _ _ h => h.1)
        (fun _ _ h => h)

/-- The candidates for a line, in order: the names that start with its last token. -/
theorem candidates_wp (input_tokens : List String) (env : Env W) (m : Machine W) :
    (candidates input_tokens).wp env
      ⟨fun ws m' => Silent m m' ∧ ws = ((completedArgument input_tokens).elim [] fun argument =>
          completionsOf (input_tokens.getLastD "") (argument.completion.names m.session)),
        fun _ m' => Silent m m', fun _ _ => False⟩ m := by
  unfold candidates
  cases completedArgument input_tokens with
  | none => exact ⟨Silent.refl m, rfl⟩
  | some argument => exact complete_wp _ argument.completion env m

/-! ## A completion is a command line -/

/-- The command line that a completion offers for a candidate. -/
def completionLine (input_tokens : List String) (w : String) : String :=
  commandLine (input_tokens.dropLast ++ [w])

/-- `command_prefix + quoteNameIfNecessary(word_completion)` is the command line of the names. -/
theorem join_append_quoted {names : List String} (hne : names ≠ []) (w : String) :
    join (names.map quoteNameIfNecessary) " " ++ " " ++ quoteNameIfNecessary w =
      commandLine (names ++ [w]) := by
  rw [commandLine, List.map_append, List.map_singleton, join,
    String.intercalate_append_of_ne_nil (by simpa using hne) (by simp),
    String.intercalate_singleton]

/-- `commandCompletion` of at least two tokens encodes the candidates. -/
theorem commandCompletion_eq {input : String} (htokens : 2 ≤ (parseLine input true).length) :
    commandCompletion input = (do
      let ws ← candidates (parseLine input true)
      pure (ws.map (completionLine (parseLine input true))) : Control W (List String)) := by
  unfold commandCompletion
  generalize parseLine input true = input_tokens at htokens ⊢
  rcases input_tokens with _ | ⟨front, _ | ⟨token, tokens⟩⟩
  · exact absurd htokens (Nat.not_succ_le_zero 1)
  · exact absurd htokens (Nat.not_succ_le_self 1)
  · have hargument : completedArgument (front :: token :: tokens) =
        (findCommand front).bind fun cmd => cmd.arguments[tokens.length]? := rfl
    rw [candidates, hargument]
    dsimp only
    cases findCommand front with
    | none => rfl
    | some cmd =>
      rw [Option.bind_some]
      dsimp only
      cases cmd.arguments[tokens.length]? with
      | none => rfl
      | some argument =>
        have hlast : (token :: tokens).getLast (by simp) =
            (front :: token :: tokens).getLastD "" := rfl
        dsimp only
        rw [hlast]
        refine bind_congr fun ws => ?_
        cases ws with
        | nil => rfl
        | cons w ws =>
          rw [if_neg (by simp)]
          refine congrArg pure (List.map_congr_left fun w _ => ?_)
          exact join_append_quoted (by simp) w

/-! ## Reading a completion back -/

/-- A string without quote characters. -/
def QuoteFree (s : String) : Prop := s.toList.any isQuote = false

instance (s : String) : Decidable (QuoteFree s) := inferInstanceAs (Decidable (_ = _))

/-- No character of such a name is a quote. -/
theorem QuoteFree.not_isQuote {s : String} (h : QuoteFree s) : ∀ c ∈ s.toList, isQuote c = false :=
  fun c hc => by simpa using List.any_eq_false.mp h c hc

/-- Without a quote there is none behind a backslash. -/
theorem backslashQuote_of_quoteFree : ∀ (n : List Char) (last_char : Char),
    (∀ c ∈ n, isQuote c = false) → backslashQuote last_char n = false
  | [], _, _ => rfl
  | c :: n, last_char, h => by
      have hc : isQuote c = false := h c List.mem_cons_self
      rw [isQuote, Bool.or_eq_false_iff] at hc
      rw [backslashQuote, hc.1, Bool.and_false, Bool.false_or]
      exact backslashQuote_of_quoteFree n c fun d hd => h d (List.mem_cons_of_mem c hd)

/-- Without a quote there is no section to close. -/
theorem quotationsClose_of_quoteFree : ∀ (n : List Char) (last_char : Char),
    (∀ c ∈ n, isQuote c = false) → quotationsClose none last_char n = true
  | [], _, _ => rfl
  | c :: n, last_char, h => by
      have hc : nextQuote none last_char c = none := by
        rw [nextQuote, h c List.mem_cons_self]; rfl
      rw [quotationsClose, hc]
      exact quotationsClose_of_quoteFree n c fun d hd => h d (List.mem_cons_of_mem c hd)

/-- Names without quote characters can be told apart on a line. -/
theorem separable_of_quoteFree {ns : List String} (h : ∀ n ∈ ns, QuoteFree n) :
    Separable (ns.map String.toList) := by
  constructor
  · intro n hn
    obtain ⟨name, hname, rfl⟩ := List.mem_map.mp hn
    unfold Readable
    split
    · exact backslashQuote_of_quoteFree name.toList '\x00' (h name hname).not_isQuote
    · intro hhead
      have hquote := (h name hname).not_isQuote '\'' (List.mem_of_mem_head? hhead)
      exact absurd hquote (by decide)
  · intro n hn
    obtain ⟨name, hname, rfl⟩ := List.mem_map.mp (List.dropLast_subset _ hn)
    exact .inr (quotationsClose_of_quoteFree name.toList '\x00' (h name hname).not_isQuote)

/-- The line of a completion is read back as the tokens before the last one and the candidate. -/
theorem parseLine_completionLine (input : String) {w : String}
    (htokens : ∀ token ∈ parseLine input true, QuoteFree token) (hw : QuoteFree w)
    (hnul : NulFree w) :
    parseLine (completionLine (parseLine input true) w) =
      (parseLine input true).dropLast ++ [w] := by
  refine parseLine_commandLine (fun n hn => ?_) (separable_of_quoteFree fun n hn => ?_)
  · rcases List.mem_append.mp hn with hn | hn
    · exact nulFree_of_mem_parseLine (List.dropLast_subset _ hn)
    · rwa [List.mem_singleton.mp hn]
  · rcases List.mem_append.mp hn with hn | hn
    · exact htokens n (List.dropLast_subset _ hn)
    · rwa [List.mem_singleton.mp hn]

/-- What is asked of the completions of a line: one for each candidate, in order, and read back as
    the tokens before the last one and the candidate, if the tokens are free of quote characters
    and the candidates are `named`. -/
structure ReadsBack (named : String → Prop) (input_tokens ws completions : List String) :
    Prop where
  starts : ∀ w ∈ ws, startsWith (input_tokens.getLastD "") w = true
  one_each : completions.length = ws.length
  reads_back : (∀ token ∈ input_tokens, QuoteFree token) → (∀ w ∈ ws, named w) →
    completions.map (parseLine ·) = ws.map fun w => input_tokens.dropLast ++ [w]

/-- **Completions are read back**: what `commandCompletion` returns are the candidates behind the
    tokens before the last one, for names without quote characters and without NUL. -/
theorem commandCompletion_readsBack (env : Env W) (m m' : Machine W) (input : String)
    (completions : List String) (htokens : 2 ≤ (parseLine input true).length)
    (h : commandCompletion input env m = (.ok completions, m')) :
    ∃ ws, candidates (parseLine input true) env m = (.ok ws, m') ∧
      ReadsBack (fun w => QuoteFree w ∧ NulFree w) (parseLine input true) ws completions := by
  have hcandidates := candidates_wp (parseLine input true) env m
  rw [commandCompletion_eq htokens, Eff.bind_apply] at h
  rcases hws : candidates (parseLine input true) env m with ⟨ws | e | d, m₁⟩
  · rw [hws] at h
    obtain ⟨hcompletions, rfl⟩ := Prod.mk.inj h
    obtain rfl := Lib.Outcome.ok.inj hcompletions
    obtain ⟨-, hchosen⟩ := Eff.wp_ok hcandidates hws
    refine ⟨ws, rfl, ⟨fun w hw => ?_, List.length_map _, fun hfree hnamed => ?_⟩⟩
    · rw [hchosen] at hw
      cases hargument : completedArgument (parseLine input true) with
      | none => rw [hargument] at hw; exact absurd hw List.not_mem_nil
      | some argument =>
        rw [hargument] at hw
        exact (List.mem_filter.mp hw).2
    · rw [List.map_map]
      refine List.map_congr_left fun w hw => ?_
      rw [Function.comp_apply]
      exact parseLine_completionLine input hfree (hnamed w hw).1 (hnamed w hw).2
  · rw [hws] at h
    exact nomatch h
  · rw [hws] at h
    exact nomatch h

/-- A library that discovers one system, of the given name. -/
def Env.discovering (name : String) : Env Unit :=
  { Env.answering with
    fep3 := fun c w => match c with
      | .discoverAllSystems => (.ok [(⟨0, name, [], 0⟩ : System)], w)
      | c => (c.reply, w) }

/-- The machine after `discoverAllSystems`. -/
def Machine.discovered (name : String) : Machine Unit :=
  (processCommandline ["discoverAllSystems"] (Env.discovering name)
    (Machine.new false "" ())).2

/-- The system `a b` is offered for `getSystemState a`. -/
theorem commandCompletion_readsBack_getSystemState :
    ∃ ws, candidates (parseLine "getSystemState  a" true) (Env.discovering "a b")
        (Machine.discovered "a b") = (.ok ws, Machine.discovered "a b") ∧
      ReadsBack (fun w => QuoteFree w ∧ NulFree w) (parseLine "getSystemState  a" true) ws
        ["getSystemState \"a b\""] :=
  commandCompletion_readsBack (Env.discovering "a b") (Machine.discovered "a b")
    (Machine.discovered "a b") "getSystemState  a" ["getSystemState \"a b\""] (by decide) (by rfl)

/-- A system name with a NUL is cut when the completion is read back. -/
theorem not_commandCompletion_readsBack :
    ¬ ∀ (W : Type) (env : Env W) (m m' : Machine W) (input : String) (completions : List String),
      2 ≤ (parseLine input true).length →
      commandCompletion input env m = (.ok completions, m') →
      ∃ ws, candidates (parseLine input true) env m = (.ok ws, m') ∧
        ReadsBack QuoteFree (parseLine input true) ws completions := by
  intro h
  have htokens : parseLine "getSystemState " true = ["getSystemState", ""] := by decide
  have hcandidates : candidates (parseLine "getSystemState " true) (Env.discovering "a\x00b")
      (Machine.discovered "a\x00b") = (.ok ["a\x00b"], Machine.discovered "a\x00b") := by rfl
  obtain ⟨ws, hws, hread⟩ := h Unit (Env.discovering "a\x00b") (Machine.discovered "a\x00b")
    (Machine.discovered "a\x00b") "getSystemState " ["getSystemState a\x00b"] (by decide) (by rfl)
  rw [hcandidates] at hws
  obtain rfl := Lib.Outcome.ok.inj (Prod.mk.inj hws).1
  have hfree : ∀ token ∈ parseLine "getSystemState " true, QuoteFree token := by
    rw [htokens]; decide
  have hlines := hread.reads_back hfree (by decide)
  rw [htokens] at hlines
  exact absurd hlines (by decide)

end FepControl
