/-
  The program `fep_control`: the options on its command line, and `main` of `fep_control_tool.cpp`.

  The tool is meant to be used in scripts as well, where one command is given on the command line
  and the exit code says whether it succeeded.  The options that ask for this are read in a loop
  that does their work at once, in the order in which they come, and sets variables for those that
  only change how the work is done.  Some of the variables are set too late, one is never set, and
  one is set and never read.

  1. **The options** -- a loop over the arguments sets flags, until an execute option hands the
     arguments behind it to `processCommandline` of a new session, and the loop returns what that
     call returns.

  2. **main** -- returns the result, or enters one of the interactive loops.  It decides by two
     flags and the mode: `found_execute_command`, which nothing sets, the JSON flag, and
     `operation_mode`.

  3. **One shot** -- a command behind an execute option is therefore the end of the program only
     without `--json` and `--websocket` before it (`main_oneShot_iff`).

  4. **The flags of the session** -- the session is made with the JSON flag.  The flag for
     auto-discovery is set and then used nowhere (`main_configures_iff`), so that a system which is
     not registered, as none is in a new session, is not found.
-/
import FepControl.Addressing
import FepControl.Local

namespace FepControl

open Lib

variable {W : Type}

/-! ## The process -/

/-- `mode`. -/
inductive OperationMode where
  | COMMANDLINE
  | WEBSOCKET
  deriving DecidableEq, Repr

/-- A call of `processCommandline` that the options make: the session as it is constructed, the
    arguments, the result, and the session after it. -/
structure Executed (W : Type) where
  new_session : Machine W
  command_line : List String
  result : Outcome String Stop Int
  after : Machine W

/-- The process: the world and the directory, the static and the local variables of `main` that the
    options change, and two records: the calls made for an execute option, and the standard error
    stream. -/
structure Tool (W : Type) where
  world : W
  working_directory : String
  operation_mode : OperationMode
  found_execute_command : Bool
  json_mode : Bool
  auto_discovery_of_systems : Bool
  executed : List (Executed W)
  cerr : List String

/-- The process when `main` begins. -/
def Tool.start (working_directory : String) (w : W) : Tool W where
  world := w
  working_directory := working_directory
  operation_mode := .COMMANDLINE
  found_execute_command := false
  json_mode := false
  auto_discovery_of_systems := false
  executed := []
  cerr := []

/-- How `main` goes on after the options.  It returns 0 after a loop. -/
inductive Course where
  | returns (result : Int)
  | interactiveLoopWebsocket (json_mode : Bool)
  | interactiveLoopCLI (json_mode : Bool)
  deriving DecidableEq, Repr

/-- The code of the program outside the sessions. -/
abbrev Program (W α : Type) := Eff (Env W) (Tool W) String Stop α

/-! ## The options -/

/-- `executeOption`. -/
def executeOption : List String := ["-e", "--execute"]

/-- `autoDiscoveryOption`. -/
def autoDiscoveryOption : List String := ["-ad", "--auto_discovery"]

/-- `jsonOption`. -/
def jsonOption : List String := ["--json"]

/-- `websocketModeOption`. -/
def websocketModeOption : List String := ["--websocket"]

/-- The process after the call of `processCommandline` for an execute option. -/
def Tool.execute (t : Tool W) (new_session : Machine W) (command_line : List String)
    (ended : Outcome String Stop Int × Machine W) : Tool W :=
  { t with
    world := ended.2.world
    working_directory := ended.2.working_directory
    executed := t.executed ++ [⟨new_session, command_line, ended.1, ended.2⟩] }

/-- `FepControlCommandLine new_session(json_mode); return new_session.processCommandline(...)`. -/
def executeCommand (command_line : List String) : Program W Int := fun env t =>
  let new_session := Machine.new t.json_mode t.working_directory t.world
  let ended := processCommandline command_line env new_session
  (ended.1, t.execute new_session command_line ended)

/-- The text on the standard error stream when there is nothing to do. -/
def usage : List String :=
  ["invalid commandline, use: fep_control --auto_discovery --execute <execute_command>\n",
    "                     or:  fep_control --execute <execute_command>\n",
    "                     or:  fep_control -ad -e <execute_command>\n"]

/-- The loop of `parseAndExecuteCommandline`, and what follows it. -/
def optionsLoop : List String → Program W Int
  | [] => do
      let t ← Eff.get
      -- no help in JSON mode
      if t.json_mode || t.operation_mode == .WEBSOCKET then pure (-1)
      else
        Eff.modify fun t => { t with cerr := t.cerr ++ usage }
        pure (-1)
  | arg :: args =>
      if arg ∈ autoDiscoveryOption then do
        Eff.modify fun t => { t with auto_discovery_of_systems := true }
        optionsLoop args
      else if arg ∈ jsonOption then do
        Eff.modify fun t => { t with json_mode := true }
        optionsLoop args
      else if arg ∈ executeOption then executeCommand args
      else if arg ∈ websocketModeOption then do
        Eff.modify fun t => { t with operation_mode := .WEBSOCKET }
        optionsLoop args
      else optionsLoop args

/-- `parseAndExecuteCommandline`. -/
def parseAndExecuteCommandline (args : List String) : Program W Int := do
  Eff.modify fun t => { t with operation_mode := .COMMANDLINE }
  optionsLoop args

/-- The loop that `main` enters. -/
def interactiveLoop : Program W Course := do
  let t ← Eff.get
  if t.operation_mode == .WEBSOCKET then pure (.interactiveLoopWebsocket t.json_mode)
  else pure (.interactiveLoopCLI t.json_mode)

/-- What `main` does when the options have returned. -/
def afterOptions (result : Int) : Program W Course := do
  let t ← Eff.get
  if (t.found_execute_command || !t.json_mode) && t.operation_mode == .COMMANDLINE then
    pure (.returns result)
  else interactiveLoop

/-- `main`, up to the interactive loops; `args` are the arguments behind the program's name. -/
def main (args : List String) : Program W Course := do
  if args.isEmpty then interactiveLoop
  else
    Eff.modify fun t => { t with found_execute_command := false }
    let result ← parseAndExecuteCommandline args
    afterOptions result

/-! ## The loop over the options

  An argument that is no execute option sets a flag at most; a list of them sets the flags whose
  option occurs in it. -/

/-- An option, in one of its spellings, is among the arguments. -/
def given (option args : List String) : Bool := args.any fun arg => decide (arg ∈ option)

/-- An option is given at the front or behind. -/
theorem given_cons (option : List String) (arg : String) (args : List String) :
    given option (arg :: args) = (given option [arg] || given option args) := by
  simp [given]

theorem given_of_mem {option : List String} {arg : String} (h : arg ∈ option) :
    given option [arg] = true := by
  simp [given, h]

theorem given_of_not_mem {option : List String} {arg : String} (h : arg ∉ option) :
    given option [arg] = false := by
  simp [given, h]

/-- The process after the arguments `args`, none of which is an execute option. -/
def Tool.options (t : Tool W) (args : List String) : Tool W :=
  { t with
    auto_discovery_of_systems := t.auto_discovery_of_systems || given autoDiscoveryOption args
    json_mode := t.json_mode || given jsonOption args
    operation_mode := if given websocketModeOption args then .WEBSOCKET else t.operation_mode }

theorem Tool.options_nil (t : Tool W) : t.options [] = t := by
  simp [Tool.options, given]

/-- The options are taken one after the other. -/
theorem Tool.options_cons (t : Tool W) (arg : String) (args : List String) :
    t.options (arg :: args) = (t.options [arg]).options args := by
  unfold Tool.options
  simp only [given_cons _ arg args, Bool.or_assoc]
  cases given websocketModeOption [arg] with
  | false => rfl
  | true => simp

/-- No string is an option of two kinds. -/
theorem options_disjoint : (autoDiscoveryOption ++ jsonOption ++ executeOption ++
    websocketModeOption).Nodup := by decide

/-- One argument. -/
theorem optionsLoop_cons {arg : String} (harg : arg ∉ executeOption) (args : List String)
    (env : Env W) (t : Tool W) :
    optionsLoop (arg :: args) env t = optionsLoop args env (t.options [arg]) := by
  have hauto_json : arg ∈ autoDiscoveryOption → arg ∉ jsonOption := by
    have h := options_disjoint
    grind
  have hauto_websocket : arg ∈ autoDiscoveryOption → arg ∉ websocketModeOption := by
    have h := options_disjoint
    grind
  have hjson_websocket : arg ∈ jsonOption → arg ∉ websocketModeOption := by
    have h := options_disjoint
    grind
  rw [optionsLoop, Tool.options]
  by_cases hauto : arg ∈ autoDiscoveryOption
  · rw [if_pos hauto, given_of_mem hauto, given_of_not_mem (hauto_json hauto),
      given_of_not_mem (hauto_websocket hauto), Bool.or_true, Bool.or_false]
    rfl
  · rw [if_neg hauto, given_of_not_mem hauto, Bool.or_false]
    by_cases hjson : arg ∈ jsonOption
    · rw [if_pos hjson, given_of_mem hjson, given_of_not_mem (hjson_websocket hjson),
        Bool.or_true]
      rfl
    · rw [if_neg hjson, if_neg harg, given_of_not_mem hjson, Bool.or_false]
      by_cases hwebsocket : arg ∈ websocketModeOption
      · rw [if_pos hwebsocket, given_of_mem hwebsocket]
        rfl
      · rw [if_neg hwebsocket, given_of_not_mem hwebsocket]
        rfl

/-- The arguments before an execute option. -/
theorem optionsLoop_append {pre : List String} (hpre : ∀ arg ∈ pre, arg ∉ executeOption)
    (args : List String) (env : Env W) : ∀ t : Tool W,
    optionsLoop (pre ++ args) env t = optionsLoop args env (t.options pre) := by
  induction pre with
  | nil => intro t; rw [Tool.options_nil, List.nil_append]
  | cons arg pre ih =>
    intro t
    rw [List.cons_append, optionsLoop_cons (hpre arg List.mem_cons_self),
      ih fun a ha => hpre a (List.mem_cons_of_mem arg ha), Tool.options_cons t arg pre]

/-- The first execute option ends the loop. -/
theorem optionsLoop_execute {option : String} (hoption : option ∈ executeOption)
    (rest : List String) :
    (optionsLoop (option :: rest) : Program W Int) = executeCommand rest := by
  have hauto : option ∉ autoDiscoveryOption := by
    have h := options_disjoint
    grind
  have hjson : option ∉ jsonOption := by
    have h := options_disjoint
    grind
  rw [optionsLoop, if_neg hauto, if_neg hjson, if_pos hoption]

/-! ## main -/

/-- The arguments `args` have an execute option, the arguments `pre` before the first one and the
    arguments `rest` behind it. -/
structure FirstExecute (args pre rest : List String) : Prop where
  before : ∀ arg ∈ pre, arg ∉ executeOption
  split : ∃ option ∈ executeOption, args = pre ++ option :: rest

/-- Every list of arguments with an execute option has a first one. -/
theorem exists_firstExecute {args : List String} (h : ∃ arg ∈ args, arg ∈ executeOption) :
    ∃ pre rest, FirstExecute args pre rest := by
  obtain ⟨arg, hmem, hoption⟩ := h
  induction args with
  | nil => exact absurd hmem List.not_mem_nil
  | cons head args ih =>
    by_cases hhead : head ∈ executeOption
    · exact ⟨[], args, fun _ h => absurd h List.not_mem_nil, head, hhead, rfl⟩
    · have htail : arg ∈ args := by
        rcases List.mem_cons.mp hmem with rfl | htail
        · exact absurd hoption hhead
        · exact htail
      obtain ⟨pre, rest, hbefore, option, hin, rfl⟩ := ih htail
      refine ⟨head :: pre, rest, fun a ha => ?_, option, hin, rfl⟩
      rcases List.mem_cons.mp ha with rfl | ha
      · exact hhead
      · exact hbefore a ha

/-- How `main` goes on when the options have returned, in terms of the flags that are then set. -/
def Course.after (json_mode websocket : Bool) (result : Int) : Course :=
  if websocket then .interactiveLoopWebsocket json_mode
  else if json_mode then .interactiveLoopCLI json_mode
  else .returns result

/-- It returns the result without both flags only. -/
theorem Course.after_eq_returns {json_mode websocket : Bool} {result result' : Int} :
    Course.after json_mode websocket result = .returns result' ↔
      (json_mode = false ∧ websocket = false) ∧ result = result' := by
  cases json_mode <;> cases websocket <;> simp [Course.after]

/-- How `main` goes on, as a function of its flags. -/
theorem afterOptions_eq {t : Tool W} (hfound : t.found_execute_command = false) (result : Int)
    (env : Env W) : afterOptions result env t =
      (.ok (Course.after t.json_mode (t.operation_mode == .WEBSOCKET) result), t) := by
  rcases t with ⟨w, working_directory, operation_mode, found, json_mode, auto, executed, cerr⟩
  obtain rfl : found = false := hfound
  cases operation_mode <;> cases json_mode <;> rfl

/-- The command runs in this session. -/
def sessionFor (pre : List String) (working_directory : String) (w : W) : Machine W :=
  .new (given jsonOption pre) working_directory w

/-- **main with an execute option**: `processCommandline` is called once, with the arguments behind
    the option, and `main` goes on with what it returns. -/
theorem main_execute {args pre rest : List String} (h : FirstExecute args pre rest) (env : Env W)
    (working_directory : String) (w : W) :
    main args env (Tool.start working_directory w) =
      (((processCommandline rest env (sessionFor pre working_directory w)).1.map
          (Course.after (given jsonOption pre) (given websocketModeOption pre))),
        ((Tool.start working_directory w).options pre).execute
          (sessionFor pre working_directory w) rest
          (processCommandline rest env (sessionFor pre working_directory w))) := by
  obtain ⟨hbefore, option, hoption, rfl⟩ := h
  have hoptions : optionsLoop (pre ++ option :: rest) env (Tool.start working_directory w) =
      executeCommand rest env ((Tool.start working_directory w).options pre) := by
    rw [optionsLoop_append hbefore, optionsLoop_execute hoption]
  have hne : (pre ++ option :: rest).isEmpty = false := by simp
  have hmain : main (pre ++ option :: rest) env (Tool.start working_directory w) =
      (optionsLoop (pre ++ option :: rest) >>= afterOptions : Program W Course) env
        (Tool.start working_directory w) := by
    rw [main, hne]
    rfl
  have hsession : executeCommand rest env ((Tool.start working_directory w).options pre) =
      ((processCommandline rest env (sessionFor pre working_directory w)).1,
        ((Tool.start working_directory w).options pre).execute
          (sessionFor pre working_directory w) rest
          (processCommandline rest env (sessionFor pre working_directory w))) := rfl
  rw [hmain, Eff.bind_apply, hoptions, hsession]
  rcases processCommandline rest env (sessionFor pre working_directory w) with
    ⟨result | e | d, m'⟩
  · rw [Eff.andThen, afterOptions_eq rfl]
    refine Prod.ext (congrArg Outcome.ok ?_) rfl
    show Course.after (given jsonOption pre)
      ((if given websocketModeOption pre then OperationMode.WEBSOCKET else .COMMANDLINE) ==
        .WEBSOCKET) result = _
    cases given websocketModeOption pre <;> rfl
  · rfl
  · rfl

/-- What is executed is the command behind the first execute option, in a new session. -/
theorem main_executed {args pre rest : List String} (h : FirstExecute args pre rest) (env : Env W)
    (working_directory : String) (w : W) :
    (main args env (Tool.start working_directory w)).2.executed =
      [⟨sessionFor pre working_directory w, rest,
        (processCommandline rest env (sessionFor pre working_directory w)).1,
        (processCommandline rest env (sessionFor pre working_directory w)).2⟩] := by
  rw [main_execute h]
  rfl

/-! ## One shot -/

/-- The command does not come back with a result: it is `quit`, or an exception gets out of it, or
    it breaks. -/
def DoesNotReturn (env : Env W) (m : Machine W) (tokens : List String) : Prop :=
  (∃ cmd, dispatched tokens = some cmd ∧ cmd.action = .quit) ∨ Escapes env m tokens ∨
    Breaks env m tokens

/-- A command that comes back returns a code. -/
theorem doesNotReturn_iff {env : Env W} {m : Machine W} {tokens : List String} (hne : tokens ≠ []) :
    DoesNotReturn env m tokens ↔ ∀ code, (processCommandline tokens env m).1 ≠ .ok code := by
  constructor
  · rintro (⟨cmd, hd, hquit⟩ | ⟨cmd, hd, hthrows⟩ | ⟨cmd, hd, hcrashes⟩) code hok
    · obtain ⟨_, _, _, hstops, _⟩ := processCommandline_quit hd hquit env m
      rw [hstops] at hok
      cases hok
    · have hret : processCommandline tokens env m =
          (.ok code, (processCommandline tokens env m).2) := Prod.ext hok rfl
      obtain ⟨_, _, _, _, hreturned⟩ := returned_of_ok hd hret
      exact hreturned.returns hthrows
    · by_cases hquit : cmd.action = .quit
      · rw [hquit] at hcrashes
        exact hcrashes.elim
      · obtain ⟨d, m', hstops⟩ :=
          Eff.stops_iff.mp ((processCommandline_stops hd hquit).mpr hcrashes)
        rw [hstops] at hok
        cases hok
  · intro hnever
    rcases hret : processCommandline tokens env m with ⟨code | e | d, m'⟩
    · exact absurd (congrArg Prod.fst hret) (hnever code)
    · obtain ⟨cmd, hd, hthrown⟩ := thrown_of_throws hret
      exact .inr (.inl ⟨cmd, hd, hthrown.throws⟩)
    · cases hd : dispatched tokens with
      | none =>
        obtain ⟨_, _, _, hrejected⟩ := processCommandline_rejected hd hne env m
        exact absurd (congrArg Prod.fst (hret.symm.trans hrejected)) nofun
      | some cmd =>
        by_cases hquit : cmd.action = .quit
        · exact .inl ⟨cmd, hd, hquit⟩
        · exact .inr (.inr ⟨cmd, hd, (processCommandline_stops hd hquit).mp
            (Eff.stops_iff.mpr ⟨d, m', hret⟩)⟩)

/-- What is asked of arguments with an execute option: a command behind the option is processed,
    once, and the program ends with its result; no command behind it is reported, and none is
    processed.  No interactive loop is entered. -/
structure OneShot (env : Env W) (t : Tool W) (args rest : List String) : Prop where
  processed : (main args env t).2.executed.map Executed.command_line =
    if rest = [] then [] else [rest]
  reported : rest = [] → (main args env t).2.cerr ≠ []
  result : ∀ x ∈ (main args env t).2.executed, (main args env t).1 = x.result.map .returns
  no_loop : ∀ json_mode, (main args env t).1 ≠ .ok (.interactiveLoopCLI json_mode) ∧
    (main args env t).1 ≠ .ok (.interactiveLoopWebsocket json_mode)

/-- **An execute option ends the program with its command** exactly if there is a command, and no
    option for JSON or for the websocket before it, unless the command does not come back. -/
theorem main_oneShot_iff {args pre rest : List String} (h : FirstExecute args pre rest)
    (env : Env W) (working_directory : String) (w : W) :
    OneShot env (Tool.start working_directory w) args rest ↔ rest ≠ [] ∧
      ((given jsonOption pre = false ∧ given websocketModeOption pre = false) ∨
        DoesNotReturn env (sessionFor pre working_directory w) rest) := by
  have hmain := main_execute h env working_directory w
  have hexecuted := main_executed h env working_directory w
  constructor
  · rintro ⟨hprocessed, -, hresult, -⟩
    have hne : rest ≠ [] := by
      rintro rfl
      rw [hexecuted] at hprocessed
      exact absurd hprocessed (by simp)
    refine ⟨hne, ?_⟩
    -- the program goes on with the result as with a return
    have hcourse := hresult _ (hexecuted ▸ List.mem_singleton.mpr rfl)
    rw [hmain] at hcourse
    rcases hend : (processCommandline rest env (sessionFor pre working_directory w)).1 with
      code | e | d
    · rw [hend] at hcourse
      exact .inl (Course.after_eq_returns.mp (Outcome.ok.inj hcourse)).1
    · exact .inr ((doesNotReturn_iff hne).mpr fun code hok => by rw [hend] at hok; cases hok)
    · exact .inr ((doesNotReturn_iff hne).mpr fun code hok => by rw [hend] at hok; cases hok)
  · rintro ⟨hne, hcase⟩
    have hcourse : (main args env (Tool.start working_directory w)).1 =
        (processCommandline rest env (sessionFor pre working_directory w)).1.map .returns := by
      rw [hmain]
      rcases hcase with ⟨hjson, hwebsocket⟩ | hgone
      · rw [hjson, hwebsocket]
        rfl
      · have hnever := (doesNotReturn_iff hne).mp hgone
        rcases hend : (processCommandline rest env (sessionFor pre working_directory w)).1 with
          code | e | d
        · exact absurd hend (hnever code)
        · rfl
        · rfl
    refine ⟨?_, fun hempty => absurd hempty hne, fun x hx => ?_, fun json_mode => ?_⟩
    · rw [hexecuted, if_neg hne]
      rfl
    · rw [hexecuted] at hx
      obtain rfl := List.mem_singleton.mp hx
      exact hcourse
    · rw [hcourse]
      exact ⟨Outcome.map_ne_ok (fun _ h => Course.noConfusion h) _,
        Outcome.map_ne_ok (fun _ h => Course.noConfusion h) _⟩

/-- `fep_control -ad -e getSystemState s`. -/
theorem main_oneShot_iff_getSystemState :
    OneShot Env.answering (Tool.start "" ()) ["-ad", "-e", "getSystemState", "s"]
        ["getSystemState", "s"] ↔ ["getSystemState", "s"] ≠ [] ∧
      ((given jsonOption ["-ad"] = false ∧ given websocketModeOption ["-ad"] = false) ∨
        DoesNotReturn Env.answering (sessionFor ["-ad"] "" ()) ["getSystemState", "s"]) :=
  main_oneShot_iff (show FirstExecute ["-ad", "-e", "getSystemState", "s"] ["-ad"]
    ["getSystemState", "s"] from ⟨by decide, "-e", by decide, rfl⟩) Env.answering "" ()

/-- `fep_control --json -e getCurrentWorkingDirectory` goes on with the command line loop. -/
theorem not_main_oneShot : ¬ ∀ (W : Type) (env : Env W) (working_directory : String) (w : W)
    (args pre rest : List String), FirstExecute args pre rest →
    OneShot env (Tool.start working_directory w) args rest := by
  intro h
  have hloop := (h Unit Env.answering "" () ["--json", "-e", "getCurrentWorkingDirectory"]
    ["--json"] ["getCurrentWorkingDirectory"] ⟨by decide, "-e", by decide, rfl⟩).no_loop true
  exact hloop.1 rfl

/-! ## The flags of the session -/

/-- The calls between the two machines begin with the discovery of `s`. -/
def DiscoversFirst (m m' : Machine W) (s : String) : Prop :=
  ∃ threw new, m'.calls = m.calls ++ (.discoverSystem (discoveredName s), threw) :: new

/-- A command without a call discovers nothing. -/
theorem not_discoversFirst_of_calls {m m' : Machine W} (h : m'.calls = m.calls) (s : String) :
    ¬ DiscoversFirst m m' s := by
  rintro ⟨threw, new, hnew⟩
  have hlength := congrArg List.length (h.symm.trans hnew)
  simp at hlength

/-- Later calls come behind. -/
theorem DiscoversFirst.trans {m m₁ m₂ : Machine W} {s : String} {P : Call → Prop}
    (h : DiscoversFirst m m₁ s) (h' : NewCalls P m₁ m₂) : DiscoversFirst m m₂ s := by
  obtain ⟨threw, new, hnew⟩ := h
  obtain ⟨new', hnew', -⟩ := h'
  exact ⟨threw, new ++ new', by rw [hnew', hnew, List.append_assoc, List.cons_append]⟩

/-- The lookup of a name that is no key, with auto-discovery, begins with its discovery. -/
theorem lookup_discoversFirst {m : Machine W} {s : String}
    (hauto : m.session.auto_discovery_of_systems = true) (hmissing : m.registry.find? s = none)
    (env : Env W) (action : String) : DiscoversFirst m (lookup s action env m).2 s := by
  let K (system : System) : Control W (Option Entry) := do
    let key ← system.getSystemName
    assignSystem key system
    getConnectedOrDiscoveredSystem s false action
  have hlookup : lookup s action env m =
      (fep3DiscoverSystem (discoveredName s) >>= K) env (m.found s) := by
    rw [lookup_eq, hauto, connected_discover hmissing, discoverSystemByName]
    simp only [bind_assoc]
    rfl
  have hrest : ∀ system, Confined (fun _ => True) (fun _ => True) (fun _ => True) (K system) := by
    intro system
    refine (Tame.getSystemName system).andThen fun key => ?_
    refine (Tame.assignSystem (fun _ _ => trivial) key system).andThen fun _ => ?_
    exact Tame.findSystem (fun _ _ => trivial) s (.answer _ _)
  rw [hlookup]
  rcases hreply : env.discoverSystem (discoveredName s) (m.found s).world with ⟨e | system, w⟩
  · rw [Eff.bind_of_throws (fep3DiscoverSystem_throws hreply)]
    exact ⟨true, [], rfl⟩
  · rw [Eff.bind_of_ok (fep3DiscoverSystem_ok hreply)]
    have hfirst : DiscoversFirst m
        ((m.found s).called (.discoverSystem (discoveredName s)) false w) s := ⟨false, [], rfl⟩
    exact hfirst.trans ((hrest system).newCalls trivial _)

/-- **A command on a system that is not registered is preceded by its discovery** exactly if the
    session has auto-discovery on. -/
theorem discoversFirst_iff {m : Machine W} {tokens : List String} {cmd : ControlCommand}
    (hd : dispatched tokens = some cmd) (hsystem : cmd.Declares 0 "system name")
    (hdiscover : cmd.action ≠ .discoverSystem) {s : String} (hs : tokens[1]? = some s)
    (hmissing : m.registry.find? s = none) (env : Env W) :
    DiscoversFirst m (processCommandline tokens env m).2 s ↔
      m.session.auto_discovery_of_systems = true := by
  obtain ⟨s', arguments, rest, rfl, hform, hconfined⟩ :=
    processCommandline_looksUp (fun _ => True) hd hsystem hdiscover (W := W)
  obtain rfl : s' = s := Option.some.inj hs
  rw [hform, withSystem, bind_assoc, Eff.bind_apply]
  cases hauto : m.session.auto_discovery_of_systems with
  | false =>
    have hlookup : lookup s' cmd.name env m = (.ok none, m.missed s' cmd.name) := by
      rw [lookup_eq, hauto, connected_missing hmissing]
    rw [hlookup]
    exact iff_of_false (not_discoversFirst_of_calls rfl s') Bool.false_ne_true
  | true =>
    refine iff_of_true ?_ rfl
    have hfirst := lookup_discoversFirst hauto hmissing env cmd.name
    rcases hit : lookup s' cmd.name env m with ⟨(_ | it) | e | d, m₁⟩
    · rw [hit] at hfirst
      exact hfirst
    · rw [hit] at hfirst
      have hrest : Confined (fun _ => True) _ _ (do
          let success ← rest it
          pure (if success then 0 else 1) : Control W Int) :=
        (hconfined it).andThen fun _ => .pure _
      exact hfirst.trans (hrest.newCalls trivial m₁)
    · rw [hit] at hfirst
      exact hfirst
    · rw [hit] at hfirst
      exact hfirst

/-- What is asked of a command behind an execute option: it runs in a session with the JSON mode and
    the auto-discovery that the options before it ask for, so that a command on a system that is
    not registered is preceded by its discovery exactly if auto-discovery is asked for. -/
structure Configures (pre rest : List String) (x : Executed W) : Prop where
  command_line : x.command_line = rest
  json_mode : x.new_session.session.json_mode = given jsonOption pre
  auto_discovery :
    x.new_session.session.auto_discovery_of_systems = given autoDiscoveryOption pre
  discovers_first : ∀ cmd s, dispatched rest = some cmd → cmd.Declares 0 "system name" →
    cmd.action ≠ .discoverSystem → rest[1]? = some s → x.new_session.registry.find? s = none →
    (DiscoversFirst x.new_session x.after s ↔ given autoDiscoveryOption pre = true)

/-- **The options before an execute option configure its command** exactly if the option for
    auto-discovery is not among them. -/
theorem main_configures_iff {args pre rest : List String} (h : FirstExecute args pre rest)
    (env : Env W) (working_directory : String) (w : W) :
    (rest ≠ [] → ∃ x, (main args env (Tool.start working_directory w)).2.executed = [x] ∧
        Configures pre rest x) ↔
      rest = [] ∨ given autoDiscoveryOption pre = false := by
  have hexecuted := main_executed h env working_directory w
  constructor
  · intro hconfigures
    by_cases hne : rest = []
    · exact .inl hne
    · obtain ⟨x, hx, hconf⟩ := hconfigures hne
      obtain rfl := List.cons.inj (hexecuted.symm.trans hx) |>.1
      exact .inr hconf.auto_discovery.symm
  · rintro (hnil | hauto) hne
    · exact absurd hnil hne
    · refine ⟨_, hexecuted, rfl, rfl, hauto.symm, ?_⟩
      intro cmd s hd hsystem hdiscover hs hmissing
      rw [hauto]
      exact discoversFirst_iff hd hsystem hdiscover hs hmissing env

/-- `fep_control --json -e getSystemState s`. -/
theorem main_configures_iff_json :
    (["getSystemState", "s"] ≠ [] → ∃ x, (main ["--json", "-e", "getSystemState", "s"]
        Env.answering (Tool.start "" ())).2.executed = [x] ∧
        Configures ["--json"] ["getSystemState", "s"] x) ↔
      ["getSystemState", "s"] = [] ∨ given autoDiscoveryOption ["--json"] = false :=
  main_configures_iff (show FirstExecute ["--json", "-e", "getSystemState", "s"] ["--json"]
    ["getSystemState", "s"] from ⟨by decide, "-e", by decide, rfl⟩) Env.answering "" ()

/-- `fep_control -ad -e getSystemState s` runs its command without auto-discovery. -/
theorem not_main_configures : ¬ ∀ (W : Type) (env : Env W) (working_directory : String) (w : W)
    (args pre rest : List String), FirstExecute args pre rest → rest ≠ [] →
    ∃ x, (main args env (Tool.start working_directory w)).2.executed = [x] ∧
      Configures pre rest x := by
  intro h
  obtain ⟨x, hx, hconfigures⟩ := h Unit Env.answering "" () ["-ad", "-e", "getSystemState", "s"]
    ["-ad"] ["getSystemState", "s"] ⟨by decide, "-e", by decide, rfl⟩ (by decide)
  have hsession : x.new_session = Machine.new false "" () := by
    rw [← (List.cons.inj hx).1]
    rfl
  have hauto := hconfigures.auto_discovery
  rw [hsession] at hauto
  exact absurd hauto (by decide)

end FepControl
