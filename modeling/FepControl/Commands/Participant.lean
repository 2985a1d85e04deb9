/-
  The commands on participants: priorities, state changes, the state.

  A participant is named together with its system, and both may not be there.  The handlers of the
  priorities and of the state start with `getParticipant`, which answers for a participant that is
  not there; the state changes look their participant up inside the `try` of
  `doParticipantStateChange`, so that a missing participant is answered for by its handler.

  1. **Priorities** -- the number is read by `stoi`, which takes what it can from the front of its
     argument and throws when there is nothing to take.  The four commands are two functions with a
     `PriorityType`.

  2. **State changes** -- the eight commands are `doParticipantStateChange` with the method and the
     messages of each.

  3. **The state** -- `setParticipantState` does not use the object of the registry for it: it makes
     a `fep3::System` of its own, adds the participant to it, and sets the state of that.

  4. **What the handlers guarantee** -- all of them are handlers around a lookup that are guarded
     from there on (`OnSystem`).
-/
import FepControl.Commands.System
import FepControl.Tokenizer

namespace FepControl

open Lib

variable {W : Type} {D : Stop → Prop}

/-! ## Accessors of library objects -/

/-- A method of a participant, or of its proxies, that answers nothing. -/
def ParticipantProxy.call (part : ParticipantProxy) (call : ParticipantCall) : Control W Unit := do
  let _ ← fep3 (.participant part call)
  pure ()

/-- `part.getRPCComponentProxy<IRPCParticipantStateMachine>()`. -/
def ParticipantProxy.getStateMachine (part : ParticipantProxy) : Control W (Option Unit) :=
  fep3 (.participant part .getStateMachine)

/-- `state_machine->getState()`. -/
def ParticipantProxy.getState (part : ParticipantProxy) : Control W AggregatedState :=
  fep3 (.participant part .getState)

/-- `part->getInitPriority()`. -/
def ParticipantProxy.getInitPriority (part : ParticipantProxy) : Control W Int :=
  fep3 (.participant part .getInitPriority)

/-- `part->getStartPriority()`. -/
def ParticipantProxy.getStartPriority (part : ParticipantProxy) : Control W Int :=
  fep3 (.participant part .getStartPriority)

/-- `fep3::System system_temp(system_name)`. -/
def newSystem (system_name : String) : Control W System := do
  let handle : Nat ← fep3 (.newSystem system_name)
  pure { handle := handle, name := system_name, participants := [], monitors := 0 }

/-- `sys.add(participant_name)`. -/
def System.add (sys : System) (participant_name : String) : Control W System := do
  sys.call (.add participant_name)
  pure { sys with participants := sys.participants ++ [participant_name] }

/-! ## Priorities -/

/-- `PriorityType`. -/
inductive PriorityType where
  | init_priority
  | start_priority
  deriving DecidableEq, Repr

/-- `std::stoi` on a 32 bit `int`: leading whitespace, a sign, digits, and whatever follows. -/
def stoi (s : String) : Except String Int :=
  let (negative, cs) := match s.toList.dropWhile isspace with
    | '-' :: cs => (true, cs)
    | '+' :: cs => (false, cs)
    | cs => (false, cs)
  let digits := cs.takeWhile Char.isDigit
  if digits.isEmpty then .error "stoi"
  else
    let n : Int := digits.foldl (fun n c => 10 * n + (c.toNat - '0'.toNat : Nat)) 0
    let value := if negative then -n else n
    if -2147483648 ≤ value ∧ value ≤ 2147483647 then .ok value else .error "stoi"

/-- A standard function that throws. -/
def orThrow {α : Type} : Except String α → Control W α
  | .ok a => pure a
  | .error what => throw what

/-- `setPriority`. -/
def setPriority (first _last : TokenIterator) (type : PriorityType) : Control W Bool := do
  let action ← first.deref
  let first ← first.next
  let system ← first.deref
  let first ← first.next
  let participant ← first.deref
  let first ← first.next
  let priority ← first.deref
  withParticipant action system participant fun part =>
    try
      let value ← orThrow (stoi priority)
      match type with
      | .init_priority => part.call (.setInitPriority value)
      | .start_priority => part.call (.setStartPriority value)
      writeNote action ("priority for '" ++ participant ++ "' set")
      pure true
    catch e =>
      let exception := "cannot set priority for '" ++ participant ++ "@" ++ system ++ "'"
      writeException action exception .generic_error e
      pure false

/-- `getPriority`. -/
def getPriority (first _last : TokenIterator) (type : PriorityType) : Control W Bool := do
  let action ← first.deref
  let first ← first.next
  let system ← first.deref
  let first ← first.next
  let participant ← first.deref
  withParticipant action system participant fun part =>
    try
      let priority ← match type with
        | .init_priority => part.getInitPriority
        | .start_priority => part.getStartPriority
      writeAttribute action ("priority", toString priority)
      pure true
    catch e =>
      let exception := "cannot get priority for '" ++ participant ++ "@" ++ system ++ "'"
      writeException action exception .generic_error e
      pure false

/-- `setInitPriority`. -/
def setInitPriority (first last : TokenIterator) : Control W Bool :=
  setPriority first last .init_priority

/-- `getInitPriority`. -/
def getInitPriority (first last : TokenIterator) : Control W Bool :=
  getPriority first last .init_priority

/-- `setStartPriority`. -/
def setStartPriority (first last : TokenIterator) : Control W Bool :=
  setPriority first last .start_priority

/-- `getStartPriority`. -/
def getStartPriority (first last : TokenIterator) : Control W Bool :=
  getPriority first last .start_priority

/-! ## State changes -/

/-- `doParticipantStateChange`. -/
def doParticipantStateChange (first : TokenIterator)
    (change_state : ParticipantProxy → Control W Unit) (action message_1 message_2 : String) :
    Control W Bool := do
  withSystem (← first.deref) action fun it => do
    let partname ← (← first.next).deref
    Eff.tryElse
      (do
        let part ← it.2.getParticipant partname
        if part.valid then
          match ← part.getStateMachine with
          | some _ =>
              change_state part
              -- this updates for completion
              setLastSystemNameUsed it.1
              pure none
          | none =>
              let error := "participant '" ++ partname ++ "@" ++ (← first.deref) ++
                "' has no state machine"
              writeError action error .statechange_error
              pure (some false)
        else
          let error := "participant '" ++ partname ++ "' is not in system '" ++
            (← first.deref) ++ "'"
          writeError action error .statechange_error
          pure (some false))
      (fun e => do
        let exception := "cannot " ++ message_1 ++ " participant '" ++ partname ++ "@" ++
          (← first.deref) ++ "'"
        writeException action exception .statechange_error e
        pure false)
      (do
        let note := partname ++ "@" ++ (← first.deref) ++ " " ++ message_2
        writeNote action note
        pure true)

/-- `loadParticipant`. -/
def loadParticipant (first _last : TokenIterator) : Control W Bool := do
  let action ← first.deref
  let first ← first.next
  doParticipantStateChange first (fun part => part.call (.change .load)) action "load" "loaded"

/-- `unloadParticipant`. -/
def unloadParticipant (first _last : TokenIterator) : Control W Bool := do
  let action ← first.deref
  let first ← first.next
  doParticipantStateChange first (fun part => part.call (.change .unload)) action "unload"
    "unloaded"

/-- `initializeParticipant`. -/
def initializeParticipant (first _last : TokenIterator) : Control W Bool := do
  let action ← first.deref
  let first ← first.next
  doParticipantStateChange first (fun part => part.call (.change .init)) action "initialize"
    "initialized"

/-- `deinitializeParticipant`. -/
def deinitializeParticipant (first _last : TokenIterator) : Control W Bool := do
  let action ← first.deref
  let first ← first.next
  doParticipantStateChange first (fun part => part.call (.change .deinit)) action "deinitialize"
    "deinitialized"

/-- `startParticipant`. -/
def startParticipant (first _last : TokenIterator) : Control W Bool := do
  let action ← first.deref
  let first ← first.next
  doParticipantStateChange first (fun part => part.call (.change .start)) action "start" "started"

/-- `stopParticipant`. -/
def stopParticipant (first _last : TokenIterator) : Control W Bool := do
  let action ← first.deref
  let first ← first.next
  doParticipantStateChange first (fun part => part.call (.change .stop)) action "stop" "stopped"

/-- `pauseParticipant`. -/
def pauseParticipant (first _last : TokenIterator) : Control W Bool := do
  let action ← first.deref
  let first ← first.next
  doParticipantStateChange first (fun part => part.call (.change .pause)) action "pause" "paused"

/-- `shutdownParticipant`. -/
def shutdownParticipant (first _last : TokenIterator) : Control W Bool := do
  let action ← first.deref
  let first ← first.next
  doParticipantStateChange first (fun part => part.call (.change .shutdown)) action "shutdown"
    "shutdowned"

/-! ## The state of a participant -/

/-- `getParticipantState`. -/
def getParticipantState (first _last : TokenIterator) : Control W Bool := do
  let action ← first.deref
  let first ← first.next
  let system_name ← first.deref
  let participant_name ← (← first.next).deref
  withParticipant action system_name participant_name fun part =>
    try
      match ← part.getStateMachine with
      | some _ =>
          let value ← part.getState
          let attributes := [("stateID", ← stateID value), ("stateName", resolveSystemState value)]
          writeNotes action attributes
          pure true
      | none =>
          let error := "participant '" ++ participant_name ++ "@" ++ system_name ++
            "' has no state machine"
          writeError action error .participant_error
          pure false
    catch e =>
      let exception := "cannot get participant state for participant '" ++ participant_name ++
        "@" ++ (← first.deref) ++ "'"
      writeException action exception .participant_error e
      pure false

/-- `setParticipantState`: the state is set on a second, temporary system that has only the one
    participant. -/
def setParticipantState (first _last : TokenIterator) : Control W Bool := do
  let action ← first.deref
  let first ← first.next
  let system_name ← first.deref
  let first ← first.next
  let participant_name ← first.deref
  let first ← first.next
  let state_string ← first.deref
  withParticipant action system_name participant_name fun _part =>
    try
      let system_temp ← newSystem system_name
      let system_temp ← system_temp.add participant_name
      let state_to_set := getStateFromString state_string
      if state_to_set = .unreachable then
        system_temp.call (.setSystemState .unloaded)
        system_temp.call (.change .shutdown)
      else
        system_temp.call (.setSystemState state_to_set)
      let attributes := [("stateID", ← stateID state_to_set),
        ("stateName", resolveSystemState state_to_set)]
      writeNotes action attributes
      pure true
    catch e =>
      let exception := "cannot set participant state" ++ state_string ++ "for participant '" ++
        participant_name ++ "@" ++ system_name ++ "'"
      writeException action exception .participant_error e
      pure false

/-! ## What the handlers guarantee -/

theorem Quiet.participantCall (part : ParticipantProxy) (c : ParticipantCall) :
    Quiet D (part.call c : Control W Unit) := (Quiet.fep3 _).bind fun _ => Quiet.pure _

theorem Quiet.orThrow {α : Type} : ∀ x : Except String α, Quiet D (orThrow x : Control W α)
  | .ok a => Quiet.pure a
  | .error what => Quiet.throw what

theorem Quiet.newSystem (system_name : String) :
    Quiet D (newSystem system_name : Control W System) :=
  (Quiet.fep3 _).bind fun _ => Quiet.pure _

theorem Quiet.add (sys : System) (participant_name : String) :
    Quiet D (sys.add participant_name : Control W System) :=
  (Quiet.call sys _).bind fun _ => Quiet.pure _

variable {K : Bool → Bool → Response → Prop}

/-- Whatever the argument is: what is not a number is answered for by the handler of the `try`. -/
theorem setPriority_onSystem {a : String} (hK : Approves K a) (s p n : String)
    (last : TokenIterator) (type : PriorityType) :
    OnSystem D K (fun _ => Stays) s a
      (setPriority (begin_ [a, s, p, n]) last type : Control W Bool) := by
  refine OnSystem.tryParticipant hK (by decide) fun part => ?_
  refine Body.bind (Quiet.orThrow _) fun value => ?_
  cases type with
  | init_priority =>
    exact Body.bind (Quiet.participantCall part _) fun _ => (Guarded.note hK _).body
  | start_priority =>
    exact Body.bind (Quiet.participantCall part _) fun _ => (Guarded.note hK _).body

/-- Both priorities are read alike. -/
theorem getPriority_onSystem {a : String} (hK : Approves K a) (s p : String)
    (last : TokenIterator) (type : PriorityType) :
    OnSystem D K (fun _ => Stays) s a
      (getPriority (begin_ [a, s, p]) last type : Control W Bool) := by
  refine OnSystem.tryParticipant hK (by decide) fun part => ?_
  cases type with
  | init_priority => exact Body.bind (Quiet.fep3 _) fun _ => (Guarded.attr hK _).body
  | start_priority => exact Body.bind (Quiet.fep3 _) fun _ => (Guarded.attr hK _).body

/-- What a state change does with the participant it found, if that has a state machine. -/
theorem changeParticipant_else (it : Entry) (part : ParticipantProxy) (c : ParticipantCall) :
    BodyElse D Stays K (do
      part.call c
      setLastSystemNameUsed it.1
      pure none : Control W (Option Bool)) :=
  BodyElse.bind (Quiet.participantCall part c) fun _ =>
    BodyElse.bind (Quiet.setLastSystemNameUsed it.1) fun _ => BodyElse.none

/-- **The state changes of a participant**. -/
theorem doParticipantStateChange_onSystem (a s p : String) (c : ParticipantCall)
    (message_1 message_2 : String) :
    OnSystem D (Plain a) (fun _ => Stays) s a
      (doParticipantStateChange ⟨[a, s, p], 1⟩ (fun part => part.call c) a message_1 message_2 :
        Control W Bool) := by
  refine ⟨_, rfl, fun it => Guarded.tryElse ?_ (fun e => ?_) fun j => Plain.note a _ j⟩
  · refine BodyElse.bind (Quiet.fep3 _) fun part => ?_
    cases part.valid with
    | true =>
      refine BodyElse.bind (Quiet.fep3 _) fun state_machine => ?_
      cases state_machine with
      | some _ => exact changeParticipant_else it part c
      | none => exact BodyElse.write fun j => Plain.error a _ (by decide) _ j
    | false => exact BodyElse.write fun j => Plain.error a _ (by decide) _ j
  · exact Guarded.exception (Plain.approves a) (fun _ => rfl) _ (by decide) e

/-- What `getParticipantState` does with a participant that has a state machine. -/
theorem participantState_body {a : String} (hK : Approves K a) (part : ParticipantProxy) :
    Body D Stays K (do
      let value ← part.getState
      let id ← stateID value
      writeNotes a [("stateID", id), ("stateName", resolveSystemState value)]
      pure true : Control W Bool) :=
  Body.bind (Quiet.fep3 _) fun _ => Body.bind (Quiet.stateID _) fun _ => (Guarded.notes hK _).body

/-- The state is looked up in a table of names, which has one for every state. -/
theorem getParticipantState_onSystem (a s p : String) (last : TokenIterator) :
    OnSystem D (Plain a) (fun _ => Stays) s a
      (getParticipantState (begin_ [a, s, p]) last : Control W Bool) := by
  have hK := Plain.approves a
  refine OnSystem.tryParticipant hK (by decide) fun part => ?_
  refine Body.bind (Quiet.fep3 _) fun state_machine => ?_
  cases state_machine with
  | some _ => exact participantState_body hK part
  | none => exact (Guarded.error a _ (by decide) _).body

/-- The object that is made on the way is in the `try` as well. -/
theorem setParticipantState_onSystem {a : String} (hK : Approves K a) (s p state_string : String)
    (last : TokenIterator) :
    OnSystem D K (fun _ => Stays) s a
      (setParticipantState (begin_ [a, s, p, state_string]) last : Control W Bool) := by
  refine OnSystem.tryParticipant hK (by decide) fun part => ?_
  refine Body.bind (Quiet.newSystem _) fun system_temp => Body.bind (Quiet.add _ _)
    fun system_temp => ?_
  have hnotes : ∀ state, Body D Stays K (do
      writeNotes a [("stateID", ← stateID state), ("stateName", resolveSystemState state)]
      pure true : Control W Bool) := fun state =>
    Body.bind (Quiet.stateID state) fun _ => (Guarded.notes hK _).body
  show Body D _ _ (if getStateFromString state_string = .unreachable then _ else _)
  split
  · exact Body.bind (Quiet.call _ _) fun _ => Body.bind (Quiet.call _ _) fun _ => hnotes _
  · exact Body.bind (Quiet.call _ _) fun _ => hnotes _

end FepControl
