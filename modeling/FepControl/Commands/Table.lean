/-
  The command table, `help`, and the dispatch of a command line.

  Everything that the tool offers is in one table: for each command its name, a description, the
  method that does it, and for each of its arguments a description and a completion.  `help` prints
  the table, the completion reads it, and the dispatch checks a command line against it.  So an
  entry that does not fit its handler is an error that no single function shows.

  1. **The table** -- `getControlCommands`, entry by entry.  The handlers and the completions, which
     the source names by pointers to members, are the enumerations `ActionFunction` and
     `ArgumentCompletionFunction`, so that the table is data; `ActionFunction.invoke` is the call
     through the pointer.

  2. **help** -- without an argument all commands that are not hidden, and with one the description
     of that command; for a word that is none it says nothing (`help_all`, `help_command`).

  3. **Counting** -- the sizes are `std::size_t`, and `sizeSub` is the subtraction that wraps.

  4. **Dispatch** -- `processCommandline` looks the first token up, checks the number of tokens, and
     returns 0 or 1 as the handler returns `true` or `false`; a command that is not there is -2, and
     a wrong number of tokens -3.
-/
import FepControl.Commands.Settings
import FepControl.Commands.Discovery
import FepControl.Commands.Monitoring
import FepControl.Commands.Rpc

namespace FepControl

open Lib

variable {W : Type}

/-! ## The table -/

/-- The methods of `FepControl` that the table points to. -/
inductive ActionFunction where
  | quit
  | discoverAllSystems
  | discoverSystem
  | setCurrentWorkingDirectory
  | getCurrentWorkingDirectory
  | help
  | loadSystem
  | unloadSystem
  | setInitPriority
  | getInitPriority
  | setStartPriority
  | getStartPriority
  | initializeSystem
  | deinitializeSystem
  | startSystem
  | stopSystem
  | pauseSystem
  | shutdownSystem
  | startMonitoringSystem
  | stopMonitoringSystem
  | loadParticipant
  | unloadParticipant
  | initializeParticipant
  | deinitializeParticipant
  | startParticipant
  | stopParticipant
  | pauseParticipant
  | getParticipantPropertyNames
  | getParticipantProperties
  | getParticipantProperty
  | setParticipantProperty
  | getRPCObjectsParticipant
  | getRPCObjectIIDSParticipant
  | getRPCObjectDefinitionParticipant
  | shutdownParticipant
  | getSystemState
  | setSystemState
  | getParticipantState
  | setParticipantState
  | getParticipants
  | callRPC
  | configureSystemTimingSystemTime
  | configureSystemTimingDiscrete
  | configureSystemTimeNoSync
  | getCurrentTimingMaster
  | enableAutoDiscovery
  | disableAutoDiscovery
  | enableJsonMode
  | disableJsonMode
  deriving DecidableEq, Repr

/-- The completions that the table points to. -/
inductive ArgumentCompletionFunction where
  | noCompletion
  | commandNameCompletion
  | connectedSystemsCompletion
  | connectedParticipantsCompletion
  | usedPropertiesCompletion
  | possibleSystemsStateCompletion
  deriving DecidableEq, Repr

/-- `ArgumentHandler`. -/
structure ArgumentHandler where
  description : String
  completion : ArgumentCompletionFunction
  deriving DecidableEq, Repr

/-- `ControlCommand`. -/
structure ControlCommand where
  name : String
  description : String
  action : ActionFunction
  arguments : List ArgumentHandler
  last_optional_parameters : Nat
  hidden : Bool := false
  deriving DecidableEq, Repr

/-- `getControlCommands`. -/
def getControlCommands : List ControlCommand :=
  [⟨"exit", "quits this program", .quit, [], 0, false⟩,
   ⟨"quit", "quits this program", .quit, [], 0, false⟩,
   ⟨"discoverAllSystems", "discovers all systems and registers logging monitor for them",
     .discoverAllSystems, [], 0, false⟩,
   ⟨"discoverSystem",
     "discover one system with the given name and register the logging monitor for them",
     .discoverSystem, [⟨"system name", .noCompletion⟩], 0, false⟩,
   ⟨"setCurrentWorkingDirectory", "changes the current working dir of this fep_control instance",
     .setCurrentWorkingDirectory, [⟨"directory name", .noCompletion⟩], 0, false⟩,
   ⟨"getCurrentWorkingDirectory", "prints the current working dir of this fep_control instance",
     .getCurrentWorkingDirectory, [], 0, false⟩,
   ⟨"help", "prints out the description of the commands", .help,
     [⟨"command name", .commandNameCompletion⟩], 1, false⟩,
   ⟨"loadSystem", "loads the given system", .loadSystem,
     [⟨"system name", .connectedSystemsCompletion⟩], 0, false⟩,
   ⟨"unloadSystem", "unloads the given system", .unloadSystem,
     [⟨"system name", .connectedSystemsCompletion⟩], 0, false⟩,
   ⟨"setInitPriority", "sets init priority of a participant", .setInitPriority,
     [⟨"system name", .connectedSystemsCompletion⟩,
     ⟨"participant name", .connectedParticipantsCompletion⟩, ⟨"priority value", .noCompletion⟩],
     0, false⟩,
   ⟨"getInitPriority", "gets init priority of a participant", .getInitPriority,
     [⟨"system name", .connectedSystemsCompletion⟩,
     ⟨"participant name", .connectedParticipantsCompletion⟩], 0, false⟩,
   ⟨"setStartPriority", "sets start priority of a participant", .setStartPriority,
     [⟨"system name", .connectedSystemsCompletion⟩,
     ⟨"participant name", .connectedParticipantsCompletion⟩, ⟨"priority value", .noCompletion⟩],
     0, false⟩,
   ⟨"getStartPriority", "gets start priority of a participant", .getStartPriority,
     [⟨"system name", .connectedSystemsCompletion⟩,
     ⟨"participant name", .connectedParticipantsCompletion⟩], 0, false⟩,
   ⟨"initializeSystem", "initializes the given system", .initializeSystem,
     [⟨"system name", .connectedSystemsCompletion⟩], 0, false⟩,
   ⟨"deinitializeSystem", "deinitializes the given system", .deinitializeSystem,
     [⟨"system name", .connectedSystemsCompletion⟩], 0, false⟩,
   ⟨"startSystem", "starts the given system", .startSystem,
     [⟨"system name", .connectedSystemsCompletion⟩], 0, false⟩,
   ⟨"stopSystem", "stops the given system", .stopSystem,
     [⟨"system name", .connectedSystemsCompletion⟩], 0, false⟩,
   ⟨"pauseSystem", "pauses the given system", .pauseSystem,
     [⟨"system name", .connectedSystemsCompletion⟩], 0, false⟩,
   ⟨"shutdownSystem", "shutdown the given system", .shutdownSystem,
     [⟨"system name", .connectedSystemsCompletion⟩], 0, false⟩,
   ⟨"startMonitoringSystem", "monitor logging messages of the given system",
     .startMonitoringSystem, [⟨"system name", .connectedSystemsCompletion⟩], 0, false⟩,
   ⟨"stopMonitoringSystem", "stop monitoring logging messages of the given system",
     .stopMonitoringSystem, [⟨"system name", .connectedSystemsCompletion⟩], 0, false⟩,
   ⟨"loadParticipant", "loads the given participant", .loadParticipant,
     [⟨"system name", .connectedSystemsCompletion⟩,
     ⟨"participant name", .connectedParticipantsCompletion⟩], 0, false⟩,
   ⟨"unloadParticipant", "unloads the given participant", .unloadParticipant,
     [⟨"system name", .connectedSystemsCompletion⟩,
     ⟨"participant name", .connectedParticipantsCompletion⟩], 0, false⟩,
   ⟨"initializeParticipant", "initializes the given participant", .initializeParticipant,
     [⟨"system name", .connectedSystemsCompletion⟩,
     ⟨"participant name", .connectedParticipantsCompletion⟩], 0, false⟩,
   ⟨"deinitializeParticipant", "deinitializes the given participant", .deinitializeParticipant,
     [⟨"system name", .connectedSystemsCompletion⟩,
     ⟨"participant name", .connectedParticipantsCompletion⟩], 0, false⟩,
   ⟨"startParticipant", "starts the given participant", .startParticipant,
     [⟨"system name", .connectedSystemsCompletion⟩,
     ⟨"participant name", .connectedParticipantsCompletion⟩], 0, false⟩,
   ⟨"stopParticipant", "stops the given participant", .stopParticipant,
     [⟨"system name", .connectedSystemsCompletion⟩,
     ⟨"participant name", .connectedParticipantsCompletion⟩], 0, false⟩,
   ⟨"pauseParticipant", "pauses the given participant", .pauseParticipant,
     [⟨"system name", .connectedSystemsCompletion⟩,
     ⟨"participant name", .connectedParticipantsCompletion⟩], 0, false⟩,
   ⟨"getParticipantPropertyNames", "display all property names of a participant",
     .getParticipantPropertyNames, [⟨"system name", .connectedSystemsCompletion⟩,
     ⟨"participant name", .connectedParticipantsCompletion⟩], 0, false⟩,
   ⟨"getParticipantProperties", "display all properties and values of a participant",
     .getParticipantProperties, [⟨"system name", .connectedSystemsCompletion⟩,
     ⟨"participant name", .connectedParticipantsCompletion⟩], 0, false⟩,
   ⟨"getParticipantProperty", "get value of a property of a participant", .getParticipantProperty,
     [⟨"system name", .connectedSystemsCompletion⟩,
     ⟨"participant name", .connectedParticipantsCompletion⟩,
     ⟨"property_name", .usedPropertiesCompletion⟩], 0, false⟩,
   ⟨"setParticipantProperty", "set value of a property of a participant", .setParticipantProperty,
     [⟨"system name", .connectedSystemsCompletion⟩,
     ⟨"participant name", .connectedParticipantsCompletion⟩,
     ⟨"property_name", .usedPropertiesCompletion⟩, ⟨"property_value", .noCompletion⟩], 0, false⟩,
   ⟨"getParticipantRPCObjects", "retrieve the RPC Objects of the given participant",
     .getRPCObjectsParticipant, [⟨"system name", .connectedSystemsCompletion⟩,
     ⟨"participant name", .connectedParticipantsCompletion⟩], 0, false⟩,
   ⟨"getParticipantRPCObjectIIDs",
     "retrieve the RPC IIDs of a concrete RPC Objects of the given participant",
     .getRPCObjectIIDSParticipant, [⟨"system name", .connectedSystemsCompletion⟩,
     ⟨"participant name", .connectedParticipantsCompletion⟩, ⟨"object name", .noCompletion⟩], 0,
     false⟩,
   ⟨"getParticipantRPCObjectIIDDefinition",
     "retrieve the RPC Definition of an IID of a concrete RPC Objects of the given participant",
     .getRPCObjectDefinitionParticipant, [⟨"system name", .connectedSystemsCompletion⟩,
     ⟨"participant name", .connectedParticipantsCompletion⟩, ⟨"object name", .noCompletion⟩,
     ⟨"interface id", .noCompletion⟩], 0, false⟩,
   ⟨"shutdownParticipant", "shutdown the given participant", .shutdownParticipant,
     [⟨"system name", .connectedSystemsCompletion⟩,
     ⟨"participant name", .connectedParticipantsCompletion⟩], 0, false⟩,
   ⟨"getSystemState", "retrieves the given system", .getSystemState,
     [⟨"system name", .connectedSystemsCompletion⟩], 0, false⟩,
   ⟨"setSystemState", "sets the given system state", .setSystemState,
     [⟨"system name", .connectedSystemsCompletion⟩,
     ⟨"system state", .possibleSystemsStateCompletion⟩], 0, false⟩,
   ⟨"getParticipantState", "retrieves the given participants state", .getParticipantState,
     [⟨"system name", .connectedSystemsCompletion⟩,
     ⟨"participant name", .connectedParticipantsCompletion⟩], 0, false⟩,
   ⟨"setParticipantState", "sets the given participants system state", .setParticipantState,
     [⟨"system name", .connectedSystemsCompletion⟩,
     ⟨"participant name", .connectedParticipantsCompletion⟩,
     ⟨"particiapnt state", .possibleSystemsStateCompletion⟩], 0, false⟩,
   ⟨"getParticipants", "lists the participants of the given system", .getParticipants,
     [⟨"system name", .connectedSystemsCompletion⟩], 0, false⟩,
   ⟨"callRPC", "Transmit a RPC call and wait for it's response", .callRPC,
     [⟨"system name", .connectedSystemsCompletion⟩,
     ⟨"participant name", .connectedParticipantsCompletion⟩, ⟨"service name", .noCompletion⟩,
     ⟨"service iid", .noCompletion⟩, ⟨"function name", .noCompletion⟩,
     ⟨"arguments", .noCompletion⟩], 1, false⟩,
   ⟨"configureTiming3SystemTime",
     "configures the given system for timing System Time (Sync only to the master)",
     .configureSystemTimingSystemTime, [⟨"system name", .connectedSystemsCompletion⟩,
     ⟨"master participant name", .connectedParticipantsCompletion⟩], 0, false⟩,
   ⟨"configureTiming3DiscreteTime",
     "configures the given system for timing Discrete Time (for AFAP use 0.0 as factor)",
     .configureSystemTimingDiscrete, [⟨"system name", .connectedSystemsCompletion⟩,
     ⟨"master participant name", .connectedParticipantsCompletion⟩, ⟨"factor", .noCompletion⟩,
     ⟨"step size (in ns)", .noCompletion⟩], 0, false⟩,
   ⟨"configureTiming3NoSync", "resets the timing configuration", .configureSystemTimeNoSync,
     [⟨"system name", .connectedSystemsCompletion⟩], 0, false⟩,
   ⟨"getCurrentTimingMaster", "retrieves the timing master from the systems participants",
     .getCurrentTimingMaster, [⟨"system name", .connectedSystemsCompletion⟩], 0, false⟩,
   ⟨"enableAutoDiscovery", "enable the auto discovery for commands on systems",
     .enableAutoDiscovery, [], 0, false⟩,
   ⟨"disableAutoDiscovery", "disable the auto discovery for commands on systems",
     .disableAutoDiscovery, [], 0, false⟩,
   ⟨"enableJson", "enable json mode (hidden function)", .enableJsonMode, [], 0, true⟩,
   ⟨"disableJson", "disable json mode (hidden function)", .disableJsonMode, [], 0, true⟩]

/-- `findCommand`: the first entry of that name. -/
def findCommand (command_candidate : String) : Option ControlCommand :=
  getControlCommands.find? fun cmd => cmd.name == command_candidate

/-! ## `help` -/

/-- `cmd._name : cmd._description`, the line of a command in the list. -/
def helpLine (cmd : ControlCommand) : String :=
  if cmd.hidden then "" else cmd.name ++ " : " ++ cmd.description ++ "\n"

/-- The text for one command. -/
def helpText (token : String) (cmd : ControlCommand) : String :=
  token ++ String.join (cmd.arguments.map fun argument => " <" ++ argument.description ++ ">") ++
    " : " ++ cmd.description ++ "\n"

/-- `help`.  For an unknown command the text is only put into the stream that is thrown away. -/
def help (first last : TokenIterator) : Control W Bool := do
  let action ← first.deref
  let first ← first.next
  if first = last then
    writeNote action (String.join (getControlCommands.map helpLine))
    pure true
  else
    let token ← first.deref
    match findCommand token with
    | none => pure false
    | some cmd =>
        writeNote action (helpText token cmd)
        pure true

/-- All commands are listed in one note. -/
theorem help_all (a : String) (env : Env W) (m : Machine W) :
    help (begin_ [a]) (end_ [a]) env m =
      (.ok true, m.wrote (.note a (String.join (getControlCommands.map helpLine)))) := by
  show (if (⟨[a], 1⟩ : TokenIterator) = ⟨[a], 1⟩ then _ else _ : Control W Bool) env m = _
  rw [if_pos rfl]; rfl

/-- One command is described, and a word that is none is passed over in silence. -/
theorem help_command (a token : String) (env : Env W) (m : Machine W) :
    help (begin_ [a, token]) (end_ [a, token]) env m =
      match findCommand token with
      | none => (.ok false, m)
      | some cmd => (.ok true, m.wrote (.note a (helpText token cmd))) := by
  show (if (⟨[a, token], 1⟩ : TokenIterator) = ⟨[a, token], 2⟩ then _ else _ :
    Control W Bool) env m = _
  rw [if_neg (by simp)]
  show (match findCommand token with
    | none => pure false
    | some cmd => _ : Control W Bool) env m = _
  cases findCommand token <;> rfl

/-! ## Dispatch -/

/-- `(this->*action)(first, last)`. -/
def ActionFunction.invoke (first last : TokenIterator) : ActionFunction → Control W Bool
  | .quit => FepControl.quit first last
  | .discoverAllSystems => FepControl.discoverAllSystems first last
  | .discoverSystem => FepControl.discoverSystem first last
  | .setCurrentWorkingDirectory => FepControl.setCurrentWorkingDirectory first last
  | .getCurrentWorkingDirectory => FepControl.getCurrentWorkingDirectory first last
  | .help => FepControl.help first last
  | .loadSystem => FepControl.loadSystem first last
  | .unloadSystem => FepControl.unloadSystem first last
  | .setInitPriority => FepControl.setInitPriority first last
  | .getInitPriority => FepControl.getInitPriority first last
  | .setStartPriority => FepControl.setStartPriority first last
  | .getStartPriority => FepControl.getStartPriority first last
  | .initializeSystem => FepControl.initializeSystem first last
  | .deinitializeSystem => FepControl.deinitializeSystem first last
  | .startSystem => FepControl.startSystem first last
  | .stopSystem => FepControl.stopSystem first last
  | .pauseSystem => FepControl.pauseSystem first last
  | .shutdownSystem => FepControl.shutdownSystem first last
  | .startMonitoringSystem => FepControl.startMonitoringSystem first last
  | .stopMonitoringSystem => FepControl.stopMonitoringSystem first last
  | .loadParticipant => FepControl.loadParticipant first last
  | .unloadParticipant => FepControl.unloadParticipant first last
  | .initializeParticipant => FepControl.initializeParticipant first last
  | .deinitializeParticipant => FepControl.deinitializeParticipant first last
  | .startParticipant => FepControl.startParticipant first last
  | .stopParticipant => FepControl.stopParticipant first last
  | .pauseParticipant => FepControl.pauseParticipant first last
  | .getParticipantPropertyNames => FepControl.getParticipantPropertyNames first last
  | .getParticipantProperties => FepControl.getParticipantProperties first last
  | .getParticipantProperty => FepControl.getParticipantProperty first last
  | .setParticipantProperty => FepControl.setParticipantProperty first last
  | .getRPCObjectsParticipant => FepControl.getRPCObjectsParticipant first last
  | .getRPCObjectIIDSParticipant => FepControl.getRPCObjectIIDSParticipant first last
  | .getRPCObjectDefinitionParticipant => FepControl.getRPCObjectDefinitionParticipant first last
  | .shutdownParticipant => FepControl.shutdownParticipant first last
  | .getSystemState => FepControl.getSystemState first last
  | .setSystemState => FepControl.setSystemState first last
  | .getParticipantState => FepControl.getParticipantState first last
  | .setParticipantState => FepControl.setParticipantState first last
  | .getParticipants => FepControl.getParticipants first last
  | .callRPC => FepControl.callRPC first last
  | .configureSystemTimingSystemTime => FepControl.configureSystemTimingSystemTime first last
  | .configureSystemTimingDiscrete => FepControl.configureSystemTimingDiscrete first last
  | .configureSystemTimeNoSync => FepControl.configureSystemTimeNoSync first last
  | .getCurrentTimingMaster => FepControl.getCurrentTimingMaster first last
  | .enableAutoDiscovery => FepControl.enableAutoDiscovery first last
  | .disableAutoDiscovery => FepControl.disableAutoDiscovery first last
  | .enableJsonMode => FepControl.enableJsonMode first last
  | .disableJsonMode => FepControl.disableJsonMode first last

/-- `a - b` on `std::size_t`. -/
def sizeSub (a b : Nat) : Nat := (a + UInt64.size - b) % UInt64.size

/-- The number of tokens that a command is called with. -/
def ControlCommand.accepts (cmd : ControlCommand) (size : Nat) : Bool :=
  !(cmd.arguments.length + 1 < size ||
    size < sizeSub (cmd.arguments.length + 1) cmd.last_optional_parameters)

/-- The text for a wrong number of arguments. -/
def invalidNumber (cmd : ControlCommand) (front : String) (size : Nat) : String :=
  let error := "Invalid number of arguments for '" ++ front ++ "' (" ++ toString (sizeSub size 1) ++
    " instead of "
  let error :=
    if cmd.last_optional_parameters = 0 then error ++ toString cmd.arguments.length
    else error ++ toString (sizeSub cmd.arguments.length cmd.last_optional_parameters) ++ ".." ++
      toString cmd.arguments.length
  error ++ "), use 'help' for more information"

/-- `processCommandline`.  The source asserts that there is a first token. -/
def processCommandline (command_line : List String) : Control W Int :=
  match command_line with
  | [] => Eff.stop .iteratorOutOfRange
  | front :: _ =>
      match findCommand front with
      | none => do
          let error := "Invalid command '" ++ front ++ "', use 'help' for valid commands"
          writeError "processCommandline" error .input_error
          pure (-2)
      | some cmd => do
          if cmd.accepts command_line.length then
            let success ← cmd.action.invoke (begin_ command_line) (end_ command_line)
            pure (if success then 0 else 1)
          else
            writeError "processCommandline" (invalidNumber cmd front command_line.length)
              .input_error
            pure (-3)

end FepControl
