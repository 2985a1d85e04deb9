/-
  Finding the system, and the participant, that a command is about: the helper methods of
  `FepControl` that the handlers share.

  Almost every command names a system, and some a participant of it.  The name is looked up in the
  registry; what is not there can be discovered on the way, if that is switched on, and the
  discovery asks the library, stores an object, and lists what it has found, all of which may fail.
  The handlers call these helpers before their `try` or inside of it, so it matters which of them
  throw what.

  1. **The registry** -- `getConnectedOrDiscoveredSystem` looks a name up.  A name that is not a key
     is reported, or, with auto-discovery, discovered and looked up once more.

  2. **Storing** -- `assignSystem` is the assignment through `operator[]`, which makes a
     `fep3::System` for a new key before it has anything to put there; that is a library call as
     well.

  3. **Iterators** -- an iterator into the registry is the entry it points at, `(first, second)`; no
     handler uses one after its entry has been erased.

  4. **What a lookup can do** is said by the equations `connected_found`, `connected_missing` and
     `connected_discover`.
-/
import FepControl.Session

namespace FepControl

open Lib

variable {W : Type}

/-! ## Accessors of library objects -/

/-- `sys.getSystemName()`. -/
def System.getSystemName (sys : System) : Control W String := do
  let _ ← fep3 (.system sys .getSystemName)
  pure sys.name

/-- `sys.getParticipants()`. -/
def System.getParticipants (sys : System) : Control W (List ParticipantProxy) := do
  let _ ← fep3 (.system sys .getParticipants)
  pure (sys.participants.map fun name => ⟨sys.name, name, true⟩)

/-- `part.getName()`. -/
def ParticipantProxy.getName (part : ParticipantProxy) : Control W String := do
  let _ ← fep3 (.participant part .getName)
  pure part.name

/-- `fep3::discoverSystem(system_name)`. -/
def fep3DiscoverSystem (system_name : String) : Control W System :=
  fep3 (.discoverSystem system_name)

theorem fep3DiscoverSystem_ok {env : Env W} {m : Machine W} {system_name : String}
    {system : System} {w : W} (h : env.discoverSystem system_name m.world = (.ok system, w)) :
    fep3DiscoverSystem system_name env m =
      (.ok system, m.called (.discoverSystem system_name) false w) := fep3_ok h

theorem fep3DiscoverSystem_throws {env : Env W} {m : Machine W} {system_name what : String}
    {w : W} (h : env.discoverSystem system_name m.world = (.error what, w)) :
    fep3DiscoverSystem system_name env m =
      (.throws what, m.called (.discoverSystem system_name) true w) := fep3_throws h

/-- `fep3::discoverAllSystems()`. -/
def fep3DiscoverAllSystems : Control W (List System) := fep3 .discoverAllSystems

theorem fep3DiscoverAllSystems_ok {env : Env W} {m : Machine W} {systems : List System} {w : W}
    (h : env.discoverAllSystems m.world = (.ok systems, w)) :
    fep3DiscoverAllSystems env m = (.ok systems, m.called .discoverAllSystems false w) :=
  fep3_ok h

theorem fep3DiscoverAllSystems_throws {env : Env W} {m : Machine W} {what : String} {w : W}
    (h : env.discoverAllSystems m.world = (.error what, w)) :
    fep3DiscoverAllSystems env m = (.throws what, m.called .discoverAllSystems true w) :=
  fep3_throws h

/-- `sys.getSystemState()`. -/
def System.getSystemState (sys : System) : Control W SystemState :=
  fep3 (.system sys .getSystemState)

/-- `sys.getCurrentTimingMasters()`. -/
def System.getCurrentTimingMasters (sys : System) : Control W (List String) :=
  fep3 (.system sys .getCurrentTimingMasters)

/-- `sys.registerMonitoring(monitor)`: the number of monitors of the object afterwards. -/
def System.registerMonitoring (sys : System) : Control W Nat :=
  fep3 (.system sys .registerMonitoring)

/-- `sys.unregisterMonitoring(monitor)`, likewise. -/
def System.unregisterMonitoring (sys : System) : Control W Nat :=
  fep3 (.system sys .unregisterMonitoring)

/-- `sys.getParticipant(participant_name)`. -/
def System.getParticipant (sys : System) (participant_name : String) :
    Control W ParticipantProxy := fep3 (.system sys (.getParticipant participant_name))

/-- A method of a system that answers nothing. -/
def System.call (sys : System) (call : SystemCall) : Control W Unit := do
  let _ ← fep3 (.system sys call)
  pure ()

/-- The loop `for (const auto& participant: participants)` that collects the names. -/
def getNames : List ParticipantProxy → Control W (List String)
  | [] => pure []
  | part :: participants => do
      let name ← part.getName
      let names ← getNames participants
      pure (name :: names)

/-- The name the tool displays for a system and stores it under: `-` for the unnamed one. -/
def displayedName (system_name : String) : String :=
  if system_name = "" then empty_system_name else system_name

/-- `getSystemParticipants`. -/
def getSystemParticipants (system : System) : Control W Attributes := do
  let system_name ← system.getSystemName
  let participants ← system.getParticipants
  let names ← getNames participants
  pure [("system_name", displayedName system_name), ("participants", join names ", ")]

/-- `getSystems`. -/
def getSystems : List System → Control W AttributesVec
  | [] => pure []
  | system :: systems => do
      let attributes ← getSystemParticipants system
      let attributes_vec ← getSystems systems
      pure (attributes :: attributes_vec)

/-! ## The lookup -/

/-- `_last_system_name_used = name`, which the completion reads. -/
def setLastSystemNameUsed (name : String) : Control W Unit :=
  update fun s => { s with last_system_name_used := name }

/-- The object under `key` is this one from now on. -/
def storeSystem (key : String) (system : System) : Control W Unit :=
  update fun s => { s with
    connected_or_discovered_systems := s.connected_or_discovered_systems.assign key system }

/-- `_connected_or_discovered_systems[key] = system`.  For a new key `operator[]` makes an entry
    first, with a `fep3::System()` in it; if that throws, there is no entry. -/
def assignSystem (key : String) (system : System) : Control W Unit := do
  match (← session).connected_or_discovered_systems.find? key with
  | some _ => storeSystem key system
  | none => do
      let _ ← fep3 .defaultSystem
      storeSystem key system

/-- The name that discovery is asked for: the alias `-` stands for the unnamed system. -/
def discoveredName (name : String) : String := if name = empty_system_name then "" else name

/-- `discoverSystemByName`. -/
def discoverSystemByName (name : String) : Control W Unit := do
  setLastSystemNameUsed name
  let system ← fep3DiscoverSystem (discoveredName name)
  let key ← system.getSystemName
  assignSystem key system

/-- An iterator into the registry. -/
abbrev Entry := String × System

/-- The text that a missing system is reported with. -/
def notConnected (name : String) : String := "System '" ++ name ++ "' is not connected"

/-- `_connected_or_discovered_systems.find(name)`; what to do when the name is no key comes from
    the caller. -/
def findSystem (name : String) (missing : Control W (Option Entry)) : Control W (Option Entry) := do
  match (← session).connected_or_discovered_systems.find? name with
  | some system => do
      setLastSystemNameUsed name
      pure (some (name, system))
  | none => missing

/-- `getConnectedOrDiscoveredSystem`.  The source calls itself once more after a discovery, with
    auto-discovery off; `none` is `end()`. -/
def getConnectedOrDiscoveredSystem (name : String) (auto_discovery : Bool) (action : String) :
    Control W (Option Entry) :=
  let report : Control W (Option Entry) := do
    writeError action (notConnected name) .generic_error ""
    pure none
  findSystem name
    (if auto_discovery then do
      discoverSystemByName name
      findSystem name report
    else report)

/-- `getConnectedOrDiscoveredSystem(name, _auto_discovery_of_systems, action)`, as every handler
    calls it. -/
def lookup (name action : String) : Control W (Option Entry) := do
  getConnectedOrDiscoveredSystem name (← session).auto_discovery_of_systems action

/-- `auto it = getConnectedOrDiscoveredSystem(name, ...); if (it == end()) return false;`, and the
    rest of the handler. -/
def withSystem (name action : String) (rest : Entry → Control W Bool) : Control W Bool := do
  match ← lookup name action with
  | none => pure false
  | some it => rest it

/-- `getParticipant`. -/
def getParticipant (action system_name participant_name : String) :
    Control W (Option ParticipantProxy) := do
  match ← lookup system_name action with
  | none => pure none
  | some it =>
      try
        let participant ← it.2.getParticipant participant_name
        pure (some participant)
      catch e =>
        let exception_msg := "participant '" ++ participant_name ++ "' is not in system '" ++
          system_name ++ "'. " ++ "Is it in another system? Try to run 'discoverSystem " ++
          system_name ++ "' or 'discoverAllSystems'."
        writeException action exception_msg .generic_error e
        pure none

/-- `auto part = getParticipant(...); if (part) ... else return false;`, with the rest of the
    handler in the place of the dots. -/
def withParticipant (action system_name participant_name : String)
    (rest : ParticipantProxy → Control W Bool) : Control W Bool := do
  match ← getParticipant action system_name participant_name with
  | none => pure false
  | some part => rest part

/-! ## What a lookup can do -/

/-- The registry of a machine. -/
abbrev Machine.registry (m : Machine W) : Registry := m.session.connected_or_discovered_systems

/-- The machine after a lookup that found `name`. -/
def Machine.found (m : Machine W) (name : String) : Machine W :=
  { m with session := { m.session with last_system_name_used := name } }

/-- The machine after a lookup of `name` that was reported to be missing. -/
def Machine.missed (m : Machine W) (name action : String) : Machine W :=
  m.wrote (.error action (notConnected name) .generic_error "")

/-- A handler looks up with the flag of its session. -/
theorem lookup_eq (name action : String) (env : Env W) (m : Machine W) :
    lookup name action env m = getConnectedOrDiscoveredSystem name
      m.session.auto_discovery_of_systems action env m := rfl

/-- A key is found, with or without auto-discovery. -/
theorem connected_found {m : Machine W} {name : String} {system : System}
    (h : m.registry.find? name = some system) (env : Env W) (auto_discovery : Bool)
    (action : String) :
    getConnectedOrDiscoveredSystem name auto_discovery action env m =
      (.ok (some (name, system)), m.found name) := by
  show (match m.registry.find? name with
    | some system => _
    | none => _ : Control W (Option Entry)) env m = _
  rw [h]; rfl

/-- Without auto-discovery a name that is no key is reported, and nothing else happens. -/
theorem connected_missing {m : Machine W} {name : String} (h : m.registry.find? name = none)
    (env : Env W) (action : String) :
    getConnectedOrDiscoveredSystem name false action env m =
      (.ok none, m.missed name action) := by
  show (match m.registry.find? name with
    | some system => _
    | none => _ : Control W (Option Entry)) env m = _
  rw [h]; rfl

/-- With auto-discovery a name that is no key is discovered first, and then looked up. -/
theorem connected_discover {m : Machine W} {name : String} (h : m.registry.find? name = none)
    (env : Env W) (action : String) :
    getConnectedOrDiscoveredSystem name true action env m =
      (do
        discoverSystemByName name
        getConnectedOrDiscoveredSystem name false action : Control W (Option Entry)) env m := by
  show (match m.registry.find? name with
    | some system => _
    | none => _ : Control W (Option Entry)) env m = _
  rw [h]; rfl

end FepControl
