/-
  A session of the control tool: the members of `FepControl`, and what its handlers are made of.

  A handler is a method.  It reads and changes the members of its object, asks the library, and
  writes to a sink.  For a statement about all handlers there has to be one type for what they all
  do, and it is `Control`: a computation over a `Machine`, which holds the members and everything
  that was ever done with the outside.  Since the records only grow, what a command did is what was
  added to them.

  1. **Machine** -- the session, the world behind the library, the working directory of the process,
     and three records of what happened: the helper calls that answered (`written`), the log records
     the monitor wrote (`logged`) and the library calls (`calls`).  The strings handed to the sink
     are a function of the first two (`Response.outputs`, `LogRecord.output`).

  2. **Control** -- the code of a handler.  It may throw, when a library call does, and it may end
     the process: by `exit`, or where C++ leaves the behaviour undefined (`Stop`).

  3. **Answering** -- the helpers record the response, with the mode in which it is written.

  4. **Iterators** -- a `TokenIterator` knows the vector it runs over; reading at its end, or
     stepping over it, stops with `iteratorOutOfRange`.
-/
import FepControl.Fep3
import FepControl.Lib.Eff

namespace FepControl

open Lib

/-! ## The session -/

/-- `std::map<std::string, fep3::System>`. -/
abbrev Registry := SortedMap String System

/-- The members of `FepControl` and of its `Monitor`. -/
structure Session where
  json_mode : Bool
  /-- the copy in the monitor -/
  monitor_json_mode : Bool
  connected_or_discovered_systems : Registry
  auto_discovery_of_systems : Bool
  last_system_name_used : String
  used_properties : List String

/-- The constructor `FepControl(json_mode)`. -/
def Session.new (json_mode : Bool) : Session where
  json_mode := json_mode
  monitor_json_mode := json_mode
  connected_or_discovered_systems := .empty
  auto_discovery_of_systems := false
  last_system_name_used := ""
  used_properties := ["clock/main_clock", "clock/step_size", "clock/time_factor"]

/-- `_empty_system_name`. -/
def empty_system_name : String := "-"

/-- A helper call, and the mode in which it wrote. -/
structure Written where
  json_mode : Bool
  response : Response

/-- A call of `Monitor::onLog`: the monitor's copy of the mode, which it writes in, and the mode
    of the session. -/
structure Logged where
  monitor_json_mode : Bool
  json_mode : Bool
  log : LogRecord

/-- The process of one session, over a world `W`. -/
structure Machine (W : Type) where
  session : Session
  world : W
  working_directory : String
  written : List Written
  logged : List Logged
  /-- the library calls, and whether they threw -/
  calls : List (Call × Bool)

/-- The machine of a new session. -/
def Machine.new {W : Type} (json_mode : Bool) (working_directory : String) (w : W) : Machine W where
  session := .new json_mode
  world := w
  working_directory := working_directory
  written := []
  logged := []
  calls := []

/-- How a session can end without returning. -/
inductive Stop where
  /-- `exit(code)` -/
  | exit (code : Int)
  /-- a token iterator is read at the end of the tokens or stepped out of them -/
  | iteratorOutOfRange
  /-- a null proxy is used -/
  | nullPointer
  /-- a recursion does not end -/
  | stackExhausted
  deriving DecidableEq, Repr

/-- The code of a session. -/
abbrev Control (W α : Type) := Eff (Env W) (Machine W) String Stop α

variable {W : Type}

/-- Change the session. -/
def update (f : Session → Session) : Control W Unit :=
  Eff.modify fun m => { m with session := f m.session }

/-- The session. -/
def session : Control W Session := do
  let m ← Eff.get
  pure m.session

/-- The machine after a call of the library. -/
def Machine.called (m : Machine W) (c : Call) (threw : Bool) (w : W) : Machine W :=
  { m with world := w, calls := m.calls ++ [(c, threw)] }

/-- A call of the library. -/
def fep3 (c : Call) : Control W c.Reply := fun env m =>
  match env.fep3 c m.world with
  | (.ok reply, w) => (.ok reply, m.called c false w)
  | (.error what, w) => (.throws what, m.called c true w)

/-- A call that is answered. -/
theorem fep3_ok {env : Env W} {m : Machine W} {c : Call} {reply : c.Reply} {w : W}
    (h : env.fep3 c m.world = (.ok reply, w)) : fep3 c env m = (.ok reply, m.called c false w) := by
  unfold fep3; rw [h]

/-- A call that throws: it is recorded too. -/
theorem fep3_throws {env : Env W} {m : Machine W} {c : Call} {what : String} {w : W}
    (h : env.fep3 c m.world = (.error what, w)) :
    fep3 c env m = (.throws what, m.called c true w) := by
  unfold fep3; rw [h]

/-! ## Answering -/

/-- The machine after a helper call. -/
def Machine.wrote (m : Machine W) (r : Response) : Machine W :=
  { m with written := m.written ++ [⟨m.session.json_mode, r⟩] }

/-- A helper call. -/
def write (r : Response) : Control W Unit := Eff.modify fun m => m.wrote r

/-- `writeNote(action, note)`. -/
def writeNote (action note : String) : Control W Unit := write (.note action note)

/-- `writeNote(action, attribute)`. -/
def writeAttribute (action : String) (attr : Attribute) : Control W Unit :=
  write (.attr action attr)

/-- `writeNotes(action, attributes)`. -/
def writeNotes (action : String) (attributes : Attributes) : Control W Unit :=
  write (.notes action attributes)

/-- `writeNotes(action, attributes_vec)`. -/
def writeNotesVec (action : String) (attributes_vec : AttributesVec) : Control W Unit :=
  write (.notesVec action attributes_vec)

/-- `writeError(action, error, status, reason)`. -/
def writeError (action error : String) (status : CmdStatus) (reason : String := "") :
    Control W Unit := write (.error action error status reason)

/-- `writeException(action, exception, status, e)`. -/
def writeException (action exception : String) (status : CmdStatus) (e : String) :
    Control W Unit := write (.exception action exception status e)

/-- `writeOutput(args...)`, called by a handler. -/
def writeOutput (args : Output) : Control W Unit := write (.output args)

/-- `Monitor::onLog`. -/
def onLog (log : LogRecord) : Control W Unit :=
  Eff.modify fun m =>
    { m with logged := m.logged ++ [⟨m.session.monitor_json_mode, m.session.json_mode, log⟩] }

/-! ## Token iterators -/

/-- `std::vector<std::string>::const_iterator`. -/
structure TokenIterator where
  tokens : List String
  pos : Nat
  deriving DecidableEq, Repr

/-- `*it`. -/
def TokenIterator.deref (it : TokenIterator) : Control W String :=
  match it.tokens[it.pos]? with
  | some token => pure token
  | none => Eff.stop .iteratorOutOfRange

/-- `++it`, `it++`, `std::next(it)`, `it + 1`. -/
def TokenIterator.next (it : TokenIterator) : Control W TokenIterator :=
  if it.pos < it.tokens.length then pure { it with pos := it.pos + 1 }
  else Eff.stop .iteratorOutOfRange

/-- `--it`. -/
def TokenIterator.prev (it : TokenIterator) : Control W TokenIterator :=
  if 0 < it.pos then pure { it with pos := it.pos - 1 }
  else Eff.stop .iteratorOutOfRange

/-- `command_line.begin()`. -/
def begin_ (command_line : List String) : TokenIterator := ⟨command_line, 0⟩

/-- `command_line.end()`. -/
def end_ (command_line : List String) : TokenIterator := ⟨command_line, command_line.length⟩

end FepControl
