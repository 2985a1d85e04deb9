/-
  The handlers behind the command table.

  A handler reads its arguments through an iterator, without looking where the end is.  It relies on
  the number of tokens that the dispatch has let through for it, and that number is written down in
  the table, far from the handler.  The table has more than forty entries, and for a statement about
  all commands each of them would be a case.  So the handlers are sorted here by their form.

  1. **Arity** -- `ActionFunction.reads` is the range of token counts that a handler is written for;
     the table accepts no other count (`accepts_reads`, checked entry by entry).

  2. **Handlers around a lookup** -- most handlers look up the system that their first argument
     names, and are guarded from there on.  `onSystem_invoke` collects them, so that a fact about
     all commands needs one case for them and one for each of the others.

  3. **Stopping** -- of these handlers only those that walk a configuration can stop the process
     (`ActionFunction.stops`).
-/
import FepControl.Commands.Table

namespace FepControl

open Lib

variable {W : Type}

/-! ## Arity -/

/-- The least and the greatest number of tokens that a handler is written for. -/
def ActionFunction.reads : ActionFunction → Nat × Nat
  | .quit | .discoverAllSystems | .getCurrentWorkingDirectory | .enableAutoDiscovery
  | .disableAutoDiscovery | .enableJsonMode | .disableJsonMode => (1, 1)
  | .help => (1, 2)
  | .discoverSystem | .setCurrentWorkingDirectory | .loadSystem | .unloadSystem
  | .initializeSystem | .deinitializeSystem | .startSystem | .stopSystem | .pauseSystem
  | .shutdownSystem | .startMonitoringSystem | .stopMonitoringSystem | .getSystemState
  | .getParticipants | .configureSystemTimeNoSync | .getCurrentTimingMaster => (2, 2)
  | .getInitPriority | .getStartPriority | .loadParticipant | .unloadParticipant
  | .initializeParticipant | .deinitializeParticipant | .startParticipant | .stopParticipant
  | .pauseParticipant | .shutdownParticipant | .getParticipantPropertyNames
  | .getParticipantProperties | .getRPCObjectsParticipant | .setSystemState
  | .getParticipantState | .configureSystemTimingSystemTime => (3, 3)
  | .setInitPriority | .setStartPriority | .getParticipantProperty
  | .getRPCObjectIIDSParticipant | .setParticipantState => (4, 4)
  | .setParticipantProperty | .getRPCObjectDefinitionParticipant
  | .configureSystemTimingDiscrete => (5, 5)
  | .callRPC => (6, 7)

/-- **The table and the handlers agree**: no subtraction wraps, and the accepted counts are those
    that the handler is written for. -/
theorem table_reads : ∀ cmd ∈ getControlCommands,
    cmd.last_optional_parameters ≤ cmd.arguments.length ∧
      cmd.arguments.length + 1 < UInt64.size ∧
      cmd.action.reads =
        (cmd.arguments.length + 1 - cmd.last_optional_parameters, cmd.arguments.length + 1) := by
  decide

/-- A subtraction that does not go below zero does not wrap. -/
theorem sizeSub_of_le {a b : Nat} (ha : a < UInt64.size) (h : b ≤ a) : sizeSub a b = a - b := by
  unfold sizeSub
  unfold UInt64.size at ha ⊢
  omega

/-- **The table fits the handlers**: a number of tokens that is accepted is one that the handler
    reads. -/
theorem accepts_reads {cmd : ControlCommand} (hmem : cmd ∈ getControlCommands) {size : Nat}
    (h : cmd.accepts size = true) : cmd.action.reads.1 ≤ size ∧ size ≤ cmd.action.reads.2 := by
  obtain ⟨hopt, hsize, hreads⟩ := table_reads cmd hmem
  have hsub : sizeSub (cmd.arguments.length + 1) cmd.last_optional_parameters =
      cmd.arguments.length + 1 - cmd.last_optional_parameters :=
    sizeSub_of_le hsize (by omega)
  rw [ControlCommand.accepts, hsub] at h
  simp at h
  rw [hreads]
  omega

/-! ## Handlers around a lookup -/

/-- The handlers that look a system up and are guarded from there on, leaving the registry alone
    and answering through the compact writer. -/
def ActionFunction.onSystem : ActionFunction → Bool
  | .loadSystem | .unloadSystem | .initializeSystem | .deinitializeSystem | .startSystem
  | .stopSystem | .pauseSystem | .getSystemState | .configureSystemTimeNoSync
  | .getCurrentTimingMaster | .getInitPriority | .getStartPriority | .loadParticipant
  | .unloadParticipant | .initializeParticipant | .deinitializeParticipant | .startParticipant
  | .stopParticipant | .pauseParticipant | .shutdownParticipant | .getParticipantProperties
  | .getRPCObjectsParticipant | .getParticipantState | .configureSystemTimingSystemTime
  | .setInitPriority | .setStartPriority | .getParticipantProperty
  | .getRPCObjectIIDSParticipant | .setParticipantState | .setParticipantProperty
  | .getRPCObjectDefinitionParticipant | .configureSystemTimingDiscrete => true
  | _ => false

/-- How a handler may stop: a walk over a configuration can meet a null pointer or run out of
    stack, and a call of a service can meet a null pointer. -/
def ActionFunction.stops : ActionFunction → Stop → Prop
  | .getParticipantPropertyNames | .getParticipantProperties | .getParticipantProperty
  | .callRPC => Benign
  | _ => NoStop

/-- The handlers with a system for their argument. -/
theorem onSystem_two {K : Bool → Bool → Response → Prop} {a : String} (hK : Approves K a)
    {f : ActionFunction} (hf : f.onSystem = true) (hreads : f.reads = (2, 2)) (s : String)
    (last : TokenIterator) :
    OnSystem f.stops K (fun _ => Stays) s a
      (f.invoke (begin_ [a, s]) last : Control W Bool) := by
  cases f
  case loadSystem => exact changeState_onSystem hK s (.change .load) "loaded" "load"
  case unloadSystem => exact changeState_onSystem hK s (.change .unload) "unloaded" "unload"
  case initializeSystem =>
    exact changeState_onSystem hK s (.change .init) "initialized" "initialize"
  case deinitializeSystem =>
    exact changeState_onSystem hK s (.change .deinit) "deinitialized" "deinitialize"
  case startSystem => exact changeState_onSystem hK s (.change .start) "started" "start"
  case stopSystem => exact changeState_onSystem hK s (.change .stop) "stopped" "stop"
  case pauseSystem => exact changeState_onSystem hK s (.change .pause) "paused" "pause"
  case getSystemState => exact getSystemState_onSystem hK s last
  case configureSystemTimeNoSync => exact configureSystemTimeNoSync_onSystem hK s last
  case getCurrentTimingMaster => exact getCurrentTimingMaster_onSystem hK s last
  all_goals first | exact absurd hf (by decide) | exact absurd hreads (by decide)

/-- Those with one argument more, -/
theorem onSystem_three {f : ActionFunction} (hf : f.onSystem = true) (hreads : f.reads = (3, 3))
    (a s p : String) (last : TokenIterator) :
    OnSystem f.stops (Plain a) (fun _ => Stays) s a
      (f.invoke (begin_ [a, s, p]) last : Control W Bool) := by
  cases f
  case getInitPriority => exact getPriority_onSystem (Plain.approves a) s p last .init_priority
  case getStartPriority => exact getPriority_onSystem (Plain.approves a) s p last .start_priority
  case loadParticipant =>
    exact doParticipantStateChange_onSystem a s p (.change .load) "load" "loaded"
  case unloadParticipant =>
    exact doParticipantStateChange_onSystem a s p (.change .unload) "unload" "unloaded"
  case initializeParticipant =>
    exact doParticipantStateChange_onSystem a s p (.change .init) "initialize" "initialized"
  case deinitializeParticipant =>
    exact doParticipantStateChange_onSystem a s p (.change .deinit) "deinitialize" "deinitialized"
  case startParticipant =>
    exact doParticipantStateChange_onSystem a s p (.change .start) "start" "started"
  case stopParticipant =>
    exact doParticipantStateChange_onSystem a s p (.change .stop) "stop" "stopped"
  case pauseParticipant =>
    exact doParticipantStateChange_onSystem a s p (.change .pause) "pause" "paused"
  case shutdownParticipant =>
    exact doParticipantStateChange_onSystem a s p (.change .shutdown) "shutdown" "shutdowned"
  case getParticipantProperties => exact getParticipantProperties_onSystem a s p last
  case getRPCObjectsParticipant => exact getRPCObjectsParticipant_onSystem a s p last
  case getParticipantState => exact getParticipantState_onSystem a s p last
  case configureSystemTimingSystemTime =>
    exact configureSystemTimingSystemTime_onSystem (Plain.approves a) s p last
  all_goals first | exact absurd hf (by decide) | exact absurd hreads (by decide)

/-- with two, -/
theorem onSystem_four {f : ActionFunction} (hf : f.onSystem = true) (hreads : f.reads = (4, 4))
    (a s p x : String) (last : TokenIterator) :
    OnSystem f.stops (Plain a) (fun _ => Stays) s a
      (f.invoke (begin_ [a, s, p, x]) last : Control W Bool) := by
  cases f
  case setInitPriority => exact setPriority_onSystem (Plain.approves a) s p x last .init_priority
  case setStartPriority => exact setPriority_onSystem (Plain.approves a) s p x last .start_priority
  case getParticipantProperty => exact getParticipantProperty_onSystem a s p x last
  case getRPCObjectIIDSParticipant => exact getRPCObjectIIDSParticipant_onSystem a s p x last
  case setParticipantState => exact setParticipantState_onSystem (Plain.approves a) s p x last
  all_goals first | exact absurd hf (by decide) | exact absurd hreads (by decide)

/-- and with three. -/
theorem onSystem_five {f : ActionFunction} (hf : f.onSystem = true) (hreads : f.reads = (5, 5))
    (a s p x y : String) (last : TokenIterator) :
    OnSystem f.stops (Plain a) (fun _ => Stays) s a
      (f.invoke (begin_ [a, s, p, x, y]) last : Control W Bool) := by
  cases f
  case setParticipantProperty => exact setParticipantProperty_onSystem a s p x y last
  case getRPCObjectDefinitionParticipant =>
    exact getRPCObjectDefinitionParticipant_onSystem a s p x y last
  case configureSystemTimingDiscrete =>
    exact configureSystemTimingDiscrete_onSystem (Plain.approves a) s p x y last
  all_goals first | exact absurd hf (by decide) | exact absurd hreads (by decide)

/-- The counts of the handlers around a lookup. -/
theorem reads_of_onSystem : ∀ {f : ActionFunction}, f.onSystem = true →
    f.reads = (2, 2) ∨ f.reads = (3, 3) ∨ f.reads = (4, 4) ∨ f.reads = (5, 5) := by
  intro f hf
  cases f <;> first | exact absurd hf (by decide) | decide

/-- A list of known length is taken apart. -/
theorem eq_cons_of_length {l : List String} {n : Nat} (h : l.length = n + 1) :
    ∃ a l', l = a :: l' ∧ l'.length = n := by
  cases l with
  | nil => exact absurd h (by simp)
  | cons a l' => exact ⟨a, l', rfl, by simpa using h⟩

theorem eq_one {l : List String} (h : l.length = 1) : ∃ a, l = [a] := by
  obtain ⟨a, l', rfl, hl⟩ := eq_cons_of_length h
  obtain rfl := List.eq_nil_of_length_eq_zero hl
  exact ⟨a, rfl⟩

theorem eq_two {l : List String} (h : l.length = 2) : ∃ a s, l = [a, s] := by
  obtain ⟨a, l', rfl, hl⟩ := eq_cons_of_length h
  obtain ⟨s, rfl⟩ := eq_one hl
  exact ⟨a, s, rfl⟩

theorem eq_three {l : List String} (h : l.length = 3) : ∃ a s p, l = [a, s, p] := by
  obtain ⟨a, l', rfl, hl⟩ := eq_cons_of_length h
  obtain ⟨s, p, rfl⟩ := eq_two hl
  exact ⟨a, s, p, rfl⟩

theorem eq_four {l : List String} (h : l.length = 4) : ∃ a s p x, l = [a, s, p, x] := by
  obtain ⟨a, l', rfl, hl⟩ := eq_cons_of_length h
  obtain ⟨s, p, x, rfl⟩ := eq_three hl
  exact ⟨a, s, p, x, rfl⟩

theorem eq_five {l : List String} (h : l.length = 5) : ∃ a s p x y, l = [a, s, p, x, y] := by
  obtain ⟨a, l', rfl, hl⟩ := eq_cons_of_length h
  obtain ⟨s, p, x, y, rfl⟩ := eq_four hl
  exact ⟨a, s, p, x, y, rfl⟩

/-- The tokens of `callRPC`, with or without the optional one. -/
theorem eq_rpc {l : List String} (hmin : 6 ≤ l.length) (hmax : l.length ≤ 7) :
    ∃ a s p service iid function arguments,
      l = a :: s :: p :: service :: iid :: function :: arguments ∧ arguments.length ≤ 1 := by
  obtain ⟨a, l₁, rfl, h₁⟩ := eq_cons_of_length (l := l) (n := l.length - 1) (by omega)
  obtain ⟨s, l₂, rfl, h₂⟩ := eq_cons_of_length (l := l₁) (n := l₁.length - 1) (by omega)
  simp only [List.length_cons] at hmin hmax h₁ h₂
  obtain ⟨p, x, y, z, hl⟩ : ∃ p x y z, l₂.take 4 = [p, x, y, z] :=
    eq_four (by rw [List.length_take]; omega)
  refine ⟨a, s, p, x, y, z, l₂.drop 4, ?_, by rw [List.length_drop]; omega⟩
  have hsplit := List.take_append_drop 4 l₂
  rw [hl] at hsplit
  rw [← hsplit]; rfl

/-- **The handlers around a lookup**, on any accepted tokens: the system is the second token. -/
theorem onSystem_invoke {f : ActionFunction} (hf : f.onSystem = true) {tokens : List String}
    (hmin : f.reads.1 ≤ tokens.length) (hmax : tokens.length ≤ f.reads.2)
    (last : TokenIterator) :
    ∃ a s rest, tokens = a :: s :: rest ∧ OnSystem f.stops (Plain a) (fun _ => Stays) s a
      (f.invoke (begin_ tokens) last : Control W Bool) := by
  rcases reads_of_onSystem hf with h | h | h | h
  · rw [h] at hmin hmax
    obtain ⟨a, s, rfl⟩ := eq_two (Nat.le_antisymm hmax hmin)
    exact ⟨a, s, [], rfl, onSystem_two (Plain.approves a) hf h s last⟩
  · rw [h] at hmin hmax
    obtain ⟨a, s, p, rfl⟩ := eq_three (Nat.le_antisymm hmax hmin)
    exact ⟨a, s, [p], rfl, onSystem_three hf h a s p last⟩
  · rw [h] at hmin hmax
    obtain ⟨a, s, p, x, rfl⟩ := eq_four (Nat.le_antisymm hmax hmin)
    exact ⟨a, s, [p, x], rfl, onSystem_four hf h a s p x last⟩
  · rw [h] at hmin hmax
    obtain ⟨a, s, p, x, y, rfl⟩ := eq_five (Nat.le_antisymm hmax hmin)
    exact ⟨a, s, [p, x, y], rfl, onSystem_five hf h a s p x y last⟩

end FepControl
