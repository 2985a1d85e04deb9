/-
  What the control tool uses of the fep3 library, of jsoncpp and of the file system.  None of it is
  part of the repository, so all of it is a parameter: an `Env W` answers the calls, over a world
  `W` of which nothing is known.

  The tool is a thin layer over a distributed system.  Participants come and go, states change while
  a command runs, and any call may fail at any time.  So nothing is assumed of the library beyond
  what its interface says: a call gets a world, and gives a reply or an exception and the world
  after it.  What a theorem needs to know of the replies is a hypothesis of that theorem.

  1. **Objects** -- a `fep3::System` is a value that the tool stores, moves and looks into; its
     `monitors` is how many monitors are registered with the object.  A `fep3::ParticipantProxy`
     belongs to a system.  The RPC proxies of a participant have no state of their own: a call on
     one names the participant.

  2. **Calls** -- every call of the library is ONE `Call`, and may answer with a `Reply` or throw a
     `std::exception` of which only `what()` is used.  `getSystemName`, `getParticipants` and
     `getName` answer with the data of the object, if they do not throw.

  3. **Lists of calls** -- `Env.run` makes some calls in a row, and `Env.AnyThrows` says that one of
     them throws.

  4. **Libraries** -- a few that are needed to try things out: one that answers everything, one that
     is offline, and some that answer a single call in another way.
-/
import FepControl.Response

namespace FepControl

/-- `fep3::SystemAggregatedState`; an enumeration of C++ may hold any number. -/
inductive AggregatedState where
  | undefined
  | unreachable
  | unloaded
  | loaded
  | initialized
  | paused
  | running
  | other (id : Nat)
  deriving DecidableEq, Repr

/-- A `fep3::System`. -/
structure System where
  /-- tells two objects of one name apart -/
  handle : Nat
  /-- `getSystemName()` -/
  name : String
  /-- the names of `getParticipants()` -/
  participants : List String
  /-- the registered monitors -/
  monitors : Nat
  deriving DecidableEq, Repr

/-- A `fep3::ParticipantProxy`. -/
structure ParticipantProxy where
  /-- the name of its system -/
  system : String
  /-- `getName()` -/
  name : String
  /-- `operator bool` -/
  valid : Bool
  deriving DecidableEq, Repr

/-- The state changes of a system or of a participant. -/
inductive StateChange where
  | load
  | unload
  /-- `initialize()` -/
  | init
  /-- `deinitialize()` -/
  | deinit
  | start
  | stop
  | pause
  | shutdown
  deriving DecidableEq, Repr

/-- The methods of `fep3::System`. -/
inductive SystemCall where
  | getSystemName
  | getParticipants
  | change (step : StateChange)
  | registerMonitoring
  | unregisterMonitoring
  | getParticipant (participant_name : String)
  | getSystemState
  | setSystemState (state : AggregatedState)
  | configureTiming3ClockSyncOnlyInterpolation (master_name cycle_time : String)
  | configureTiming3DiscreteSteps (master_name step_size factor : String)
  | configureTiming3NoMaster
  | getCurrentTimingMasters
  | add (participant_name : String)
  deriving DecidableEq, Repr

/-- The methods of `fep3::ParticipantProxy` and of its RPC proxies. -/
inductive ParticipantCall where
  | getName
  | setInitPriority (priority : Int)
  | setStartPriority (priority : Int)
  | getInitPriority
  | getStartPriority
  /-- `getRPCComponentProxy<IRPCParticipantStateMachine>()` -/
  | getStateMachine
  | change (step : StateChange)
  | getState
  /-- `getRPCComponentProxy<IRPCConfiguration>()` -/
  | getConfiguration
  | getProperties (node : String)
  | getProperty (node name : String)
  | getPropertyType (node name : String)
  | getPropertyNames (node : String)
  | setProperty (node name value type : String)
  /-- `getRPCComponentProxy<IRPCParticipantInfo>()` -/
  | getParticipantInfo
  | getRPCComponents
  | getRPCComponentIIDs (object_name : String)
  | getRPCComponentInterfaceDefinition (object_name intf_name : String)
  /-- `getRPCComponentProxy(service_name, iid, rpc_passthrough)` -/
  | getPassthrough (service_name : String)
  /-- `rpc_passthrough->call(request, response)` -/
  | passthrough (service_name request : String)
  deriving DecidableEq, Repr

/-- A call of the library. -/
inductive Call where
  | discoverAllSystems
  | discoverSystem (system_name : String)
  /-- the constructor `fep3::System(system_name)` -/
  | newSystem (system_name : String)
  /-- the constructor `fep3::System()`, of the value that a `std::map` makes for a new key -/
  | defaultSystem
  | system (sys : System) (call : SystemCall)
  | participant (part : ParticipantProxy) (call : ParticipantCall)
  deriving DecidableEq, Repr

/-- `fep3::SystemState`. -/
structure SystemState where
  state : AggregatedState
  homogeneous : Bool
  deriving DecidableEq, Repr

/-- The answer of a method of `fep3::System`.  Registering and unregistering answer with the
    number of monitors the object has afterwards. -/
def SystemCall.Reply : SystemCall → Type
  | .registerMonitoring | .unregisterMonitoring => Nat
  | .getParticipant _ => ParticipantProxy
  | .getSystemState => SystemState
  | .getCurrentTimingMasters => List String
  | _ => Unit

/-- The answer of a method of `fep3::ParticipantProxy`.  A proxy that is asked for is there or
    null; `passthrough` answers with the response if it succeeds. -/
def ParticipantCall.Reply : ParticipantCall → Type
  | .getInitPriority | .getStartPriority => Int
  | .getStateMachine | .getConfiguration | .getProperties _ | .getParticipantInfo
  | .getPassthrough _ => Option Unit
  | .getState => AggregatedState
  | .getProperty _ _ | .getPropertyType _ _ | .getRPCComponentInterfaceDefinition _ _ => String
  | .getPropertyNames _ | .getRPCComponents | .getRPCComponentIIDs _ => List String
  | .passthrough _ _ => Option String
  | _ => Unit

/-- The answer of a call.  A `System` that is constructed has a handle of its own. -/
def Call.Reply : Call → Type
  | .discoverAllSystems => List System
  | .discoverSystem _ => System
  | .newSystem _ => Nat
  | .defaultSystem => Unit
  | .system _ call => call.Reply
  | .participant _ call => call.Reply

/-- `a_util::filesystem::Error`. -/
inductive FilesystemError where
  | OK
  | OPEN_FAILED
  | GENERAL_FAILURE
  | IO_ERROR
  | INVALID_PATH
  | ACCESS_DENIED
  /-- a value that the tool does not know -/
  | other
  deriving DecidableEq, Repr

/-- Everything outside the repository. -/
structure Env (W : Type) where
  fep3 : (c : Call) → W → Except String c.Reply × W
  /-- the number of an enumerator -/
  stateId : AggregatedState → Nat
  json : JsonWriter
  /-- `Json::CharReader::parse`: a value, or the parse errors -/
  parse : String → Except String Json
  /-- `jsonrpc::RpcProtocolClient::BuildRequest` -/
  buildRequest : String → Json → String
  /-- `a_util::filesystem::Path(p)`, `makeCanonical` and `toString` -/
  makeCanonical : String → String
  /-- `setWorkingDirectory`, from the current directory: the result and the directory after it -/
  setWorkingDirectory : String → String → FilesystemError × String
  /-- the log records that reach the monitor between two statements of the session -/
  recordsMeanwhile : W → List LogRecord
  /-- how deep `traverseProperties` can call itself -/
  stackDepth : Nat

/-- `fep3::discoverAllSystems()`. -/
def Env.discoverAllSystems {W : Type} (env : Env W) : W → Except String (List System) × W :=
  env.fep3 .discoverAllSystems

/-- `fep3::discoverSystem(system_name)`. -/
def Env.discoverSystem {W : Type} (env : Env W) (system_name : String) :
    W → Except String System × W := env.fep3 (.discoverSystem system_name)

/-- `sys.registerMonitoring(monitor)`. -/
def Env.registerMonitoring {W : Type} (env : Env W) (sys : System) : W → Except String Nat × W :=
  env.fep3 (.system sys .registerMonitoring)

/-- `sys.unregisterMonitoring(monitor)`. -/
def Env.unregisterMonitoring {W : Type} (env : Env W) (sys : System) :
    W → Except String Nat × W := env.fep3 (.system sys .unregisterMonitoring)

/-- `sys.getParticipant(participant_name)`. -/
def Env.getParticipant {W : Type} (env : Env W) (sys : System) (participant_name : String) :
    W → Except String ParticipantProxy × W :=
  env.fep3 (.system sys (.getParticipant participant_name))

/-- `part.getRPCComponentProxy<IRPCConfiguration>()`. -/
def Env.getConfiguration {W : Type} (env : Env W) (part : ParticipantProxy) :
    W → Except String (Option Unit) × W := env.fep3 (.participant part .getConfiguration)

/-- `part.getRPCComponentProxy(service_name, iid, rpc_passthrough)`: the proxy afterwards. -/
def Env.getPassthrough {W : Type} (env : Env W) (part : ParticipantProxy) (service_name : String) :
    W → Except String (Option Unit) × W :=
  env.fep3 (.participant part (.getPassthrough service_name))

/-- `rpc_passthrough->call(request, response)`: the response, if the call returned `true`. -/
def Env.passthrough {W : Type} (env : Env W) (part : ParticipantProxy)
    (service_name request : String) : W → Except String (Option String) × W :=
  env.fep3 (.participant part (.passthrough service_name request))

/-- The library calls `cs`, made one after the other from `w`: the world after them, or `none` if
    one of them throws. -/
def Env.run {W : Type} (env : Env W) : W → List Call → Option W
  | w, [] => some w
  | w, c :: cs =>
      match env.fep3 c w with
      | (.ok _, w') => env.run w' cs
      | (.error _, _) => none

/-- One of the calls `cs`, made one after the other from `w`, throws. -/
def Env.AnyThrows {W : Type} (env : Env W) (w : W) (cs : List Call) : Prop := env.run w cs = none

/-- Calls that are made in two parts. -/
theorem Env.run_append {W : Type} (env : Env W) : ∀ (cs cs' : List Call) (w : W),
    env.run w (cs ++ cs') = (env.run w cs).bind fun w' => env.run w' cs'
  | [], _, _ => rfl
  | c :: cs, cs', w => by
      rw [List.cons_append, Env.run, Env.run]
      split
      · exact Env.run_append env cs cs' _
      · rfl

/-- Calls that lead to a world have not thrown. -/
theorem Env.not_anyThrows {W : Type} {env : Env W} {w w' : W} {cs : List Call}
    (h : env.run w cs = some w') : ¬ env.AnyThrows w cs := by
  unfold Env.AnyThrows
  rw [h]
  exact Option.some_ne_none _

/-- Behind calls that lead to a world only the rest can throw. -/
theorem Env.anyThrows_append_iff {W : Type} {env : Env W} {w w' : W} {cs : List Call}
    (h : env.run w cs = some w') (cs' : List Call) :
    env.AnyThrows w (cs ++ cs') ↔ env.AnyThrows w' cs' := by
  unfold Env.AnyThrows
  rw [Env.run_append, h]
  exact Iff.rfl

/-- A call that throws throws whatever was to come behind it. -/
theorem Env.AnyThrows.append {W : Type} {env : Env W} {w : W} {cs : List Call}
    (h : env.AnyThrows w cs) (cs' : List Call) : env.AnyThrows w (cs ++ cs') := by
  unfold Env.AnyThrows at h ⊢
  rw [Env.run_append, h]
  rfl

/-! ## Libraries -/

/-- The answers of a library that is asked about systems without participants and without
    surprises: a system is there as soon as its name is said. -/
def SystemCall.reply (sys : System) : (c : SystemCall) → Except String c.Reply
  | .registerMonitoring => .ok (sys.monitors + 1)
  | .unregisterMonitoring =>
      if sys.monitors = 0 then .error "not registered" else .ok (sys.monitors - 1)
  | .getParticipant participant_name => .ok ⟨sys.name, participant_name, true⟩
  | .getSystemState => .ok ⟨.unloaded, true⟩
  | .getCurrentTimingMasters => .ok []
  | .getSystemName | .getParticipants | .change _ | .setSystemState _
  | .configureTiming3ClockSyncOnlyInterpolation _ _ | .configureTiming3DiscreteSteps _ _ _
  | .configureTiming3NoMaster | .add _ => .ok ()

def ParticipantCall.reply : (c : ParticipantCall) → Except String c.Reply
  | .getInitPriority | .getStartPriority => .ok (0 : Int)
  | .getStateMachine | .getConfiguration | .getProperties _ | .getParticipantInfo
  | .getPassthrough _ => .ok (some ())
  | .getState => .ok AggregatedState.unloaded
  | .getProperty _ _ | .getPropertyType _ _ | .getRPCComponentInterfaceDefinition _ _ => .ok ""
  | .getPropertyNames _ | .getRPCComponents | .getRPCComponentIIDs _ => .ok ([] : List String)
  | .passthrough _ _ => .ok (some "")
  | .getName | .setInitPriority _ | .setStartPriority _ | .change _ | .setProperty _ _ _ _ =>
      .ok ()

def Call.reply : (c : Call) → Except String c.Reply
  | .discoverAllSystems => .ok ([] : List System)
  | .discoverSystem system_name => .ok (⟨0, system_name, [], 0⟩ : System)
  | .newSystem _ => .ok (0 : Nat)
  | .defaultSystem => .ok ()
  | .system sys call => call.reply sys
  | .participant _ call => call.reply

/-- A library that answers every call. -/
def Env.answering : Env Unit where
  fep3 c w := (c.reply, w)
  stateId _ := 0
  json := .jsoncpp
  parse _ := .ok .null
  buildRequest method _ := method
  makeCanonical path := path
  setWorkingDirectory _ path := (.OK, path)
  recordsMeanwhile _ := []
  stackDepth := 8

/-- A library with a world of its own, that is otherwise like `answering`. -/
def Env.over {W : Type} (fep3 : (c : Call) → W → Except String c.Reply × W) : Env W where
  fep3 := fep3
  stateId := answering.stateId
  json := answering.json
  parse := answering.parse
  buildRequest := answering.buildRequest
  makeCanonical := answering.makeCanonical
  setWorkingDirectory := answering.setWorkingDirectory
  recordsMeanwhile _ := []
  stackDepth := answering.stackDepth

/-- A library that answers every call, and discovers these systems. -/
def Env.discoversAll (systems : List System) : Env Unit :=
  { Env.answering with fep3 := fun
      | .discoverAllSystems, w => (.ok systems, w)
      | c, w => (c.reply, w) }

/-- A library without a connection: every call throws. -/
def Env.offline : Env Unit :=
  { Env.answering with fep3 := fun _ w => (.error "offline", w) }

end FepControl
