/-
  Completing the participant of a command.

  On a line such as `getParticipantState sys pa` the completion should offer the participants of
  `sys` that start with `pa`.  The completion function is a callback of the command table that is
  given the last token alone, and has no access to the token before it.

  1. **Two systems** -- the line names the system that the command is for.  The candidates come from
     another place: the entry of the name that the session used last, which a discovery, a lookup
     and the handlers of other commands set.

  2. **The accessors** -- the completion asks the library for the participants of the entry and for
     the name of each.  These calls are taken to answer (`AccessorsAnswer`), so that what is offered
     is a matter of the registry alone (`connectedParticipantsCompletion_ok`).

  3. **offersParticipants_iff** -- the completions are those of the system on the line exactly if
     the two entries agree on the participants that the last token starts.  It is enough that the
     name used last is the one on the line.

  4. **One for one** -- different candidates are different completions, since the spelling of a name
     can be read back (`quoteNameIfNecessary_injective`); so nothing is lost in the comparison.
-/
import FepControl.Completion
import FepControl.Runs
import FepControl.Addressing

namespace FepControl

open Lib

variable {W : Type}

/-! ## The accessors -/

/-- `getParticipants` and `getName` answer. -/
structure AccessorsAnswer (env : Env W) : Prop where
  getParticipants : ∀ sys w, ∃ w', env.fep3 (.system sys .getParticipants) w = (.ok (), w')
  getName : ∀ part w, ∃ w', env.fep3 (.participant part .getName) w = (.ok (), w')

/-- The call does not throw, in any world. -/
def Call.Answered (env : Env W) (c : Call) : Prop := ∀ w, ∃ reply w', env.fep3 c w = (.ok reply, w')

/-- Calls that the library answers do not throw, in whatever state it is. -/
theorem run_of_answered {env : Env W} : ∀ {cs : List Call}, (∀ c ∈ cs, c.Answered env) →
    ∀ w, ¬ env.AnyThrows w cs := by
  intro cs
  induction cs with
  | nil => intro _ w; exact Option.some_ne_none w
  | cons c cs ih =>
    intro h w
    obtain ⟨reply, w', hreply⟩ := h c List.mem_cons_self w
    have hrest := ih (fun c' hc' => h c' (List.mem_cons_of_mem c hc')) w'
    unfold Env.AnyThrows Env.run
    rw [hreply]
    exact hrest

/-- The names of the participants are calls of this kind. -/
theorem naming_answered {env : Env W} (hanswer : AccessorsAnswer env) (wordPrefix : String) :
    ∀ parts : List ParticipantProxy, ∀ c ∈ naming wordPrefix parts, c.Answered env := by
  intro parts
  have hname : ∀ part, (Call.participant part .getName).Answered env := by
    intro part w
    obtain ⟨w', hw'⟩ := hanswer.getName part w
    exact ⟨(), w', hw'⟩
  induction parts with
  | nil => exact fun c hc => absurd hc List.not_mem_nil
  | cons part parts ih =>
    intro c hc
    rcases List.mem_append.mp hc with hc | hc
    · have hcall : c = .participant part .getName := by
        split at hc
        · simpa using hc
        · simpa using hc
      exact hcall ▸ hname part
    · exact ih c hc

/-! ## The candidates -/

/-- The participants of the entry of a name. -/
def Machine.participantsOf (m : Machine W) (name : String) : List String :=
  (m.registry.find? name).elim [] System.participants

/-- The participants that are offered: those of the entry of the name that was used last. -/
def Machine.offered (m : Machine W) : List String :=
  m.participantsOf m.session.last_system_name_used

/-- The completion of participants, if the accessors answer. -/
theorem connectedParticipantsCompletion_ok {env : Env W} (hanswer : AccessorsAnswer env)
    (m : Machine W) (wordPrefix : String) : ∃ m',
    connectedParticipantsCompletion wordPrefix env m =
      (.ok (completionsOf wordPrefix m.offered), m') := by
  cases hfind : m.registry.find? m.session.last_system_name_used with
  | none =>
    refine ⟨m, ?_⟩
    rw [connectedParticipantsCompletion_none hfind, Machine.offered, Machine.participantsOf,
      hfind]
    rfl
  | some found_system =>
    have hcalls : ∀ c ∈ participantCalls wordPrefix found_system, c.Answered env := by
      intro c hc
      rcases List.mem_cons.mp hc with rfl | hc
      · intro w
        obtain ⟨w', hw'⟩ := hanswer.getParticipants found_system w
        exact ⟨(), w', hw'⟩
      · exact naming_answered hanswer wordPrefix _ c hc
    have hwp := callAll_wp env (participantCalls wordPrefix found_system) m
    rw [connectedParticipantsCompletion_found hfind, Machine.offered, Machine.participantsOf,
      hfind]
    rcases hend : callAll (participantCalls wordPrefix found_system) env m with ⟨_ | e | d, m'⟩
    · exact ⟨m', Eff.bind_of_ok hend _⟩
    · exact absurd (Eff.wp_throws hwp hend).2 (run_of_answered hcalls m.world)
    · exact (Eff.wp_stops hwp hend).elim

/-- The second argument of the command is a participant of the system that its first one names. -/
def ControlCommand.OfParticipant (cmd : ControlCommand) : Prop :=
  cmd.Declares 0 "system name" ∧
    (cmd.Declares 1 "participant name" ∨ cmd.Declares 1 "master participant name")

instance (cmd : ControlCommand) : Decidable cmd.OfParticipant := inferInstanceAs (Decidable (_ ∧ _))

/-- These arguments are completed with the participants of the system used last. -/
theorem table_ofParticipant : ∀ cmd ∈ getControlCommands, cmd.OfParticipant →
    cmd.arguments[1]?.map ArgumentHandler.completion = some .connectedParticipantsCompletion := by
  decide

/-- The completions of a line of a command, a system and the beginning of a participant. -/
theorem commandCompletion_participant {env : Env W} (hanswer : AccessorsAnswer env) (m : Machine W)
    {line a s p : String} (hline : parseLine line true = [a, s, p]) {cmd : ControlCommand}
    (hcmd : findCommand a = some cmd) (hof : cmd.OfParticipant) : ∃ m',
    commandCompletion line env m =
      (.ok ((completionsOf p m.offered).map (completionLine [a, s, p])), m') := by
  obtain ⟨m', hcompletion⟩ := connectedParticipantsCompletion_ok hanswer m p
  refine ⟨m', ?_⟩
  have hargument := table_ofParticipant cmd (List.mem_of_find?_eq_some hcmd) hof
  have hcandidates : candidates [a, s, p] env m =
      (.ok (completionsOf p m.offered), m') := by
    obtain ⟨argument, hargument, hcompletes⟩ := Option.map_eq_some_iff.mp hargument
    have hcompleted : completedArgument [a, s, p] = some argument := by
      show (findCommand a).bind (fun cmd => cmd.arguments[1]?) = some argument
      rw [hcmd]
      exact hargument
    rw [candidates, hcompleted]
    dsimp only
    rw [hcompletes]
    exact hcompletion
  rw [commandCompletion_eq (by simp [hline]), hline, Eff.bind_of_ok hcandidates]
  rfl

/-! ## The completions of a system -/

/-- What is asked of the completions of the last of the tokens: each is the line with a participant
    of the system in its place, and every participant that it starts is there. -/
structure OffersParticipants (participants input_tokens completions : List String) : Prop where
  sound : ∀ completion ∈ completions, ∃ name ∈ participants,
    completion = completionLine input_tokens name
  complete : ∀ name ∈ participants, startsWith (input_tokens.getLastD "") name = true →
    completionLine input_tokens name ∈ completions

/-- Different candidates are different completions, on a line of at least two tokens. -/
theorem completionLine_injective {input_tokens : List String} (h : 2 ≤ input_tokens.length)
    {w w' : String} (heq : completionLine input_tokens w = completionLine input_tokens w') :
    w = w' := by
  have hne : input_tokens.dropLast ≠ [] := by
    apply List.length_pos_iff.mp
    rw [List.length_dropLast]
    omega
  unfold completionLine at heq
  rw [← join_append_quoted hne, ← join_append_quoted hne] at heq
  exact quoteNameIfNecessary_injective ((String.append_right_inj _).mp heq)

/-- **Participants are completed for the system on the line** exactly if, among those that the last
    token starts, the system used last has the same participants. -/
theorem offersParticipants_iff {env : Env W} (hanswer : AccessorsAnswer env) (m : Machine W)
    {line a s p : String} (hline : parseLine line true = [a, s, p]) {cmd : ControlCommand}
    (hcmd : findCommand a = some cmd) (hof : cmd.OfParticipant) :
    (∃ completions m', commandCompletion line env m = (.ok completions, m') ∧
        OffersParticipants (m.participantsOf s) [a, s, p] completions) ↔
      ∀ name, startsWith p name = true →
        (name ∈ m.participantsOf m.session.last_system_name_used ↔
          name ∈ m.participantsOf s) := by
  obtain ⟨m', hcompletion⟩ := commandCompletion_participant hanswer m hline hcmd hof
  rw [← Machine.offered]
  constructor
  · rintro ⟨completions, m'', heq, hoffers⟩ name hstarts
    obtain rfl := Outcome.ok.inj (Prod.mk.inj (heq.symm.trans hcompletion)).1
    constructor
    · intro hused
      have hmem : completionLine [a, s, p] name ∈
          (completionsOf p m.offered).map (completionLine [a, s, p]) :=
        List.mem_map_of_mem (List.mem_filter.mpr ⟨hused, hstarts⟩)
      obtain ⟨name', hname', hsame⟩ := hoffers.sound _ hmem
      rwa [completionLine_injective (by simp) hsame]
    · intro hname
      obtain ⟨name', hname', hsame⟩ := List.mem_map.mp (hoffers.complete name hname hstarts)
      rw [← completionLine_injective (by simp) hsame]
      exact (List.mem_filter.mp hname').1
  · intro hagree
    refine ⟨_, m', hcompletion, ?_, ?_⟩
    · intro completion hmem
      obtain ⟨name, hname, rfl⟩ := List.mem_map.mp hmem
      obtain ⟨hused, hstarts⟩ := List.mem_filter.mp hname
      exact ⟨name, (hagree name hstarts).mp hused, rfl⟩
    · intro name hname hstarts
      have hused := (hagree name hstarts).mpr hname
      exact List.mem_map_of_mem (List.mem_filter.mpr ⟨hused, hstarts⟩)

/-- The library of the examples answers its accessors. -/
theorem answering_accessorsAnswer (systems : List System) :
    AccessorsAnswer (Env.discoversAll systems) where
  getParticipants _ w := ⟨w, rfl⟩
  getName _ w := ⟨w, rfl⟩

/-- Two systems, each with a participant. -/
def twoSystems : List System := [⟨0, "a", ["pa"], 0⟩, ⟨1, "b", ["pb"], 0⟩]

/-- A session that has discovered them. -/
def Machine.twoSystems : Machine Unit :=
  (processCommandline ["discoverAllSystems"] (Env.discoversAll FepControl.twoSystems)
    (Machine.new false "" ())).2

/-- The system that was discovered last. -/
theorem offersParticipants_iff_twoSystems :
    (∃ completions m', commandCompletion "getParticipantState b p"
        (Env.discoversAll twoSystems) Machine.twoSystems = (.ok completions, m') ∧
        OffersParticipants (Machine.twoSystems.participantsOf "b") ["getParticipantState", "b", "p"]
          completions) ↔
      ∀ name, startsWith "p" name = true →
        (name ∈ Machine.twoSystems.participantsOf
            Machine.twoSystems.session.last_system_name_used ↔
          name ∈ Machine.twoSystems.participantsOf "b") :=
  offersParticipants_iff (answering_accessorsAnswer twoSystems) Machine.twoSystems (by decide)
    (show findCommand "getParticipantState" = some _ from rfl) (by decide)

/-- The other one is completed with the participants of the last one. -/
theorem not_offersParticipants : ¬ ∀ (W : Type) (env : Env W), AccessorsAnswer env →
    ∀ (json_mode : Bool) (working_directory : String) (w : W) (events : List (Event W))
      (m : Machine W), Run (Step env) (Machine.new json_mode working_directory w) events m →
    ∀ (line a s p : String) (cmd : ControlCommand) (system : System),
      parseLine line true = [a, s, p] → findCommand a = some cmd → cmd.OfParticipant →
      m.registry.find? s = some system →
      ∃ completions m', commandCompletion line env m = (.ok completions, m') ∧
        OffersParticipants system.participants [a, s, p] completions := by
  intro h
  have hrun : Run (Step (Env.discoversAll twoSystems)) (Machine.new false "" ())
      [.command ["discoverAllSystems"]] Machine.twoSystems :=
    Run.one (@Step.of_ok _ _ _ _ _ 0 (by decide) rfl)
  obtain ⟨completions, m', heq, hoffers⟩ := h Unit (Env.discoversAll twoSystems)
    (answering_accessorsAnswer twoSystems) false "" () _ Machine.twoSystems hrun
    "getParticipantState a " "getParticipantState" "a" "" _ ⟨0, "a", ["pa"], 0⟩ (by decide)
    (show findCommand "getParticipantState" = some _ from rfl) (by decide) rfl
  have hcompletion : ∃ m', commandCompletion "getParticipantState a "
      (Env.discoversAll twoSystems) Machine.twoSystems =
        (.ok ["getParticipantState a pb"], m') := ⟨_, rfl⟩
  obtain ⟨m'', hcompletion⟩ := hcompletion
  rw [hcompletion] at heq
  obtain rfl := Outcome.ok.inj (Prod.mk.inj heq).1
  have hmissing := hoffers.complete "pa" (by decide) (by decide)
  exact absurd hmissing (by decide)

end FepControl
