/-
  The commands on systems: state changes, the state, the participants, timing.

  1. **Text** -- a handler is the source's text.  `*(first++)` is a `deref` followed by a `next`; a
     `try` whose handler returns, with more code behind it, is `Eff.tryElse`.

  2. **Families** -- the state changes of a system are `changeStateMethod` with the method and the
     messages of each command.  `shutdownSystem` is one of them, with a call that also takes the
     system out of the registry.

  3. **Guarded** -- what a handler does once it has its system is guarded: it answers exactly once,
     with the flag it returns, and no library call escapes from it.  `getParticipants` is not,
     because it calls the library outside of any `try`.

  4. **setSystemState** -- it sets the state, and leaves the answer to the handler of
     `getSystemState`, which it calls as a function and whose flag it drops.  So when the query
     fails an error is written and `true` returned (`QueryFails`).  For `shutdowned` it hands over
     to `shutdownSystem` in the same way, and there it does return the flag.

  5. **Timing** -- the commands that configure the timing take a participant and numbers as text and
     hand them to the library as they are.
-/
import FepControl.Listing

namespace FepControl

open Lib

variable {W : Type} {D : Stop → Prop}

/-! ## State changes -/

/-- `changeStateMethod`. -/
def changeStateMethod (first : TokenIterator) (call : System → Control W Unit)
    (action success_message failed_message : String) : Control W Bool := do
  withSystem (← first.deref) action fun it =>
    Eff.tryElse
      (do
        call it.2
        pure none)
      (fun e => do
        let exception := "cannot " ++ failed_message ++ " system '" ++ (← first.deref) ++ "'"
        writeException action exception .generic_error e
        pure false)
      (do
        let note := (← first.deref) ++ " " ++ success_message
        writeNote action note
        pure true)

/-- `startSystem`. -/
def startSystem (first _last : TokenIterator) : Control W Bool := do
  let action ← first.deref
  let first ← first.next
  changeStateMethod first (fun sys => sys.call (.change .start)) action "started" "start"

/-- `stopSystem`. -/
def stopSystem (first _last : TokenIterator) : Control W Bool := do
  let action ← first.deref
  let first ← first.next
  changeStateMethod first (fun sys => sys.call (.change .stop)) action "stopped" "stop"

/-- `loadSystem`. -/
def loadSystem (first _last : TokenIterator) : Control W Bool := do
  let action ← first.deref
  let first ← first.next
  changeStateMethod first (fun sys => sys.call (.change .load)) action "loaded" "load"

/-- `unloadSystem`. -/
def unloadSystem (first _last : TokenIterator) : Control W Bool := do
  let action ← first.deref
  let first ← first.next
  changeStateMethod first (fun sys => sys.call (.change .unload)) action "unloaded" "unload"

/-- `initializeSystem`. -/
def initializeSystem (first _last : TokenIterator) : Control W Bool := do
  let action ← first.deref
  let first ← first.next
  changeStateMethod first (fun sys => sys.call (.change .init)) action "initialized" "initialize"

/-- `deinitializeSystem`. -/
def deinitializeSystem (first _last : TokenIterator) : Control W Bool := do
  let action ← first.deref
  let first ← first.next
  changeStateMethod first (fun sys => sys.call (.change .deinit)) action "deinitialized"
    "deinitialize"

/-- `pauseSystem`. -/
def pauseSystem (first _last : TokenIterator) : Control W Bool := do
  let action ← first.deref
  let first ← first.next
  changeStateMethod first (fun sys => sys.call (.change .pause)) action "paused" "pause"

/-- `_connected_or_discovered_systems.erase(name)`. -/
def eraseSystem (name : String) : Control W Unit :=
  update fun s => { s with
    connected_or_discovered_systems := s.connected_or_discovered_systems.erase name }

/-- The function that `shutdownSystem` hands to `changeStateMethod`: the entry that is erased is
    the one of the name the SYSTEM reports. -/
def shutdownCall (sys : System) : Control W Unit := do
  let name ← sys.getSystemName
  sys.call (.change .shutdown)
  eraseSystem name

/-- `shutdownSystem`. -/
def shutdownSystem (first _last : TokenIterator) : Control W Bool := do
  let action ← first.deref
  let first ← first.next
  changeStateMethod first shutdownCall action "shutdowned" "shutdown"

/-! ## The state of a system -/

/-- `resolveSystemState`. -/
def resolveSystemState : AggregatedState → String
  | .undefined => "undefined"
  | .unreachable => "unreachable"
  | .unloaded => "unloaded"
  | .loaded => "loaded"
  | .initialized => "initialized"
  | .paused => "paused"
  | .running => "running"
  | .other _ => "NOT RESOLVABLE"

/-- `getStateFromString`. -/
def getStateFromString (state_string : String) : AggregatedState :=
  if state_string = "shutdowned" then .unreachable
  else if state_string = "unloaded" then .unloaded
  else if state_string = "loaded" then .loaded
  else if state_string = "initialized" then .initialized
  else if state_string = "paused" then .paused
  else if state_string = "running" then .running
  else .undefined

/-- `std::to_string` of a state. -/
def stateID (state : AggregatedState) : Control W String := do
  pure (toString ((← Eff.read).stateId state))

/-- `getSystemState`. -/
def getSystemState (first _last : TokenIterator) : Control W Bool := do
  let action ← first.deref
  let first ← first.next
  withSystem (← first.deref) action fun it =>
    try
      let state ← it.2.getSystemState
      let attributes := [("stateID", ← stateID state.state),
        ("stateName", resolveSystemState state.state),
        ("homogeneous", if state.homogeneous then "homogeneous" else "inhomogeneous")]
      writeNotes action attributes
      pure true
    catch e =>
      let exception := "cannot get system state for '" ++ (← first.deref) ++ "'"
      writeException action exception .generic_error e
      pure false

/-- `setSystemState`.  Nothing throws behind `--first`: the two handlers find the system, which is
    still in the registry, and catch what the library throws; so the `catch` sees the iterator at
    the system's name. -/
def setSystemState (first last : TokenIterator) : Control W Bool := do
  let action ← first.deref
  let first ← first.next
  let it ← lookup (← first.deref) action
  let state_string ← (← first.next).deref
  match it with
  | none => pure false
  | some it =>
      try
        let state_to_set := getStateFromString state_string
        if state_to_set = .unreachable then
          it.2.call (.setSystemState .unloaded)
          shutdownSystem (← first.prev) last
        else
          it.2.call (.setSystemState state_to_set)
          let _ ← getSystemState (← first.prev) last
          pure true
      catch e =>
        let exception := "cannot set system state '" ++ state_string ++ "' for '" ++
          (← first.deref) ++ "'"
        writeException action exception .generic_error e
        pure false

/-- `getParticipants`. -/
def getParticipants (first _last : TokenIterator) : Control W Bool := do
  let action ← first.deref
  let first ← first.next
  withSystem (← first.deref) action fun it => do
    writeNotes action (← getSystemParticipants it.2)
    pure true

/-! ## Timing -/

/-- `configureSystemTimingSystemTime`. -/
def configureSystemTimingSystemTime (first _last : TokenIterator) : Control W Bool := do
  let action ← first.deref
  let first ← first.next
  let master_name ← (← first.next).deref
  withSystem (← first.deref) action fun it =>
    try
      it.2.call (.configureTiming3ClockSyncOnlyInterpolation master_name "100")
      writeNote action "successfully set SystemTimingSystemTime"
      pure true
    catch e =>
      let exception := "cannot set timing for '" ++ (← first.deref) ++ "'"
      writeException action exception .systemtiming_error e
      pure false

/-- `configureSystemTimingDiscrete`. -/
def configureSystemTimingDiscrete (first _last : TokenIterator) : Control W Bool := do
  let action ← first.deref
  let first ← first.next
  let system_name ← first.deref
  let first ← first.next
  let master_name ← first.deref
  let first ← first.next
  let factor ← first.deref
  let first ← first.next
  let step_size ← first.deref
  withSystem system_name action fun it =>
    try
      it.2.call (.configureTiming3DiscreteSteps master_name step_size factor)
      writeNote action "successfully set SystemTimingDiscrete"
      pure true
    catch e =>
      let exception := "cannot set timing for '" ++ system_name ++ "'"
      writeException action exception .systemtiming_error e
      pure false

/-- `configureSystemTimeNoSync`. -/
def configureSystemTimeNoSync (first _last : TokenIterator) : Control W Bool := do
  let action ← first.deref
  let first ← first.next
  let system_name ← first.deref
  withSystem system_name action fun it =>
    try
      -- this updates for completion
      setLastSystemNameUsed system_name
      it.2.call .configureTiming3NoMaster
      writeNote action "successfully set SystemTimeNoSync"
      pure true
    catch e =>
      let exception := "cannot set timing for '" ++ system_name ++ "'"
      writeException action exception .systemtiming_error e
      pure false

/-- `getCurrentTimingMaster`. -/
def getCurrentTimingMaster (first _last : TokenIterator) : Control W Bool := do
  let action ← first.deref
  let first ← first.next
  let system_name ← first.deref
  withSystem system_name action fun it =>
    try
      let masters ← it.2.getCurrentTimingMasters
      let masters_string := join masters ","
      writeAttribute action ("timing_masters", masters_string)
      pure true
    catch e =>
      let exception := "cannot get timing master for '" ++ system_name ++ "'"
      writeException action exception .systemtiming_error e
      pure false

/-! ## What the handlers guarantee

  Each handler is read on the tokens it is called with: it is `withSystem` and a guarded rest. -/

variable {K : Bool → Bool → Response → Prop}

theorem System.call_eq (sys : System) (c : SystemCall) :
    (sys.call c : Control W Unit) = callAll [.system sys c] := rfl

theorem Quiet.call (sys : System) (c : SystemCall) : Quiet D (sys.call c : Control W Unit) :=
  (Quiet.fep3 _).bind fun _ => Quiet.pure _

/-- The rest of a handler of the `changeStateMethod` family. -/
def changeStateRest (s : String) (call : System → Control W Unit)
    (action success_message failed_message : String) (it : Entry) : Control W Bool :=
  Eff.tryElse
    (do
      call it.2
      pure none)
    (fun e => do
      writeException action ("cannot " ++ failed_message ++ " system '" ++ s ++ "'")
        .generic_error e
      pure false)
    (do
      writeNote action (s ++ " " ++ success_message)
      pure true)

/-- What a shutdown does to the registry: on success it erases the name the system reports. -/
def Erases (it : Entry) : Bool → Registry → Registry → Prop
  | true, r, r' => r' = r.erase it.2.name
  | false, r, r' => r' = r

/-- **A state change**, whatever the method: its success is noted and its exception reported. -/
theorem changeStateRest_guarded {P : Bool → Registry → Registry → Prop} {action : String}
    (hK : Approves K action) (hP : ∀ r, P false r r) (s : String)
    {call : System → Control W Unit} {it : Entry}
    (hcall : BodyElse D P K (do call it.2; pure none : Control W (Option Bool)))
    (success_message failed_message : String) :
    Guarded D P K (changeStateRest s call action success_message failed_message it) :=
  Guarded.tryElse hcall (fun e => Guarded.exception hK hP _ (by decide) e) (hK.note _)

/-- **The state changes of a system**: a method that leaves the registry alone. -/
theorem changeState_onSystem {a : String} (hK : Approves K a) (s : String) (c : SystemCall)
    (success_message failed_message : String) :
    OnSystem D K (fun _ => Stays) s a
      (changeStateMethod ⟨[a, s], 1⟩ (fun sys => sys.call c) a success_message failed_message :
        Control W Bool) :=
  ⟨changeStateRest s (fun sys => sys.call c) a success_message failed_message, rfl, fun it =>
    changeStateRest_guarded hK (fun _ => rfl) s
      (BodyElse.bind (Quiet.call it.2 c) fun _ => BodyElse.none) success_message failed_message⟩

/-- The entry is erased when the library has shut the system down, and not before. -/
theorem shutdownCall_else (it : Entry) :
    BodyElse D (Erases it) K (do shutdownCall it.2; pure none : Control W (Option Bool)) := by
  rw [shutdownCall, System.getSystemName]
  simp only [bind_assoc, pure_bind]
  refine BodyElse.bind (Quiet.fep3 _) fun _ => BodyElse.bind (Quiet.call it.2 _) fun _ => ?_
  exact fun env m => ⟨⟨⟨rfl, rfl, rfl, rfl⟩, rfl⟩, rfl⟩

/-- A shutdown erases the name of the system on success, and nothing on failure. -/
theorem shutdownRest_guarded {a : String} (hK : Approves K a) (s : String) (it : Entry) :
    Guarded D (Erases it) K
      (changeStateRest s shutdownCall a "shutdowned" "shutdown" it : Control W Bool) :=
  changeStateRest_guarded hK (fun _ => rfl) s (shutdownCall_else it) "shutdowned" "shutdown"

theorem shutdownSystem_eq (a s : String) (tokens : List String) (last : TokenIterator) :
    (shutdownSystem (begin_ (a :: s :: tokens)) last : Control W Bool) =
      withSystem s a (changeStateRest s shutdownCall a "shutdowned" "shutdown") := rfl

theorem shutdownSystem_onSystem {a : String} (hK : Approves K a) (s : String)
    (last : TokenIterator) :
    OnSystem D K Erases s a (shutdownSystem (begin_ [a, s]) last : Control W Bool) :=
  ⟨_, shutdownSystem_eq a s [] last, shutdownRest_guarded hK s⟩

/-- What `getSystemState` does with the system it found. -/
def systemStateRest (a s : String) (it : Entry) : Control W Bool :=
  tryCatch
    (do
      let state ← it.2.getSystemState
      let id ← stateID state.state
      writeNotes a [("stateID", id), ("stateName", resolveSystemState state.state),
        ("homogeneous", if state.homogeneous then "homogeneous" else "inhomogeneous")]
      pure true)
    fun e => do
      writeException a ("cannot get system state for '" ++ s ++ "'") .generic_error e
      pure false

theorem Quiet.stateID (state : AggregatedState) : Quiet D (stateID state : Control W String) :=
  fun _ m => Silent.refl m

theorem getSystemState_eq (a s : String) (tokens : List String) (last : TokenIterator) :
    (getSystemState (begin_ (a :: s :: tokens)) last : Control W Bool) =
      withSystem s a (systemStateRest a s) := rfl

/-- The state is asked for in a `try`. -/
theorem systemStateRest_guarded {a : String} (hK : Approves K a) (s : String) (it : Entry) :
    Guarded D Stays K (systemStateRest a s it : Control W Bool) := by
  refine Guarded.tryCatch ?_ fun e => Guarded.exception hK (fun _ => rfl) _ (by decide) e
  exact Body.bind (Quiet.fep3 _) fun _ => Body.bind (Quiet.stateID _) fun _ =>
    (Guarded.notes hK _).body

theorem getSystemState_onSystem {a : String} (hK : Approves K a) (s : String)
    (last : TokenIterator) :
    OnSystem D K (fun _ => Stays) s a (getSystemState (begin_ [a, s]) last : Control W Bool) :=
  ⟨_, getSystemState_eq a s [] last, systemStateRest_guarded hK s⟩

theorem configureSystemTimingSystemTime_onSystem {a : String} (hK : Approves K a) (s p : String)
    (last : TokenIterator) :
    OnSystem D K (fun _ => Stays) s a
      (configureSystemTimingSystemTime (begin_ [a, s, p]) last : Control W Bool) := by
  refine ⟨_, rfl, fun it => Guarded.tryCatch ?_ fun e => ?_⟩
  · exact Body.bind (Quiet.call it.2 _) fun _ => (Guarded.note hK _).body
  · exact Guarded.exception hK (fun _ => rfl) _ (by decide) e

theorem configureSystemTimingDiscrete_onSystem {a : String} (hK : Approves K a)
    (s p f t : String) (last : TokenIterator) :
    OnSystem D K (fun _ => Stays) s a
      (configureSystemTimingDiscrete (begin_ [a, s, p, f, t]) last : Control W Bool) := by
  refine ⟨_, rfl, fun it => Guarded.tryCatch ?_ fun e => ?_⟩
  · exact Body.bind (Quiet.call it.2 _) fun _ => (Guarded.note hK _).body
  · exact Guarded.exception hK (fun _ => rfl) _ (by decide) e

theorem configureSystemTimeNoSync_onSystem {a : String} (hK : Approves K a) (s : String)
    (last : TokenIterator) :
    OnSystem D K (fun _ => Stays) s a
      (configureSystemTimeNoSync (begin_ [a, s]) last : Control W Bool) := by
  refine ⟨_, rfl, fun it => Guarded.tryCatch ?_ fun e => ?_⟩
  · exact Body.bind (Quiet.setLastSystemNameUsed _) fun _ => Body.bind (Quiet.call it.2 _)
      fun _ => (Guarded.note hK _).body
  · exact Guarded.exception hK (fun _ => rfl) _ (by decide) e

theorem getCurrentTimingMaster_onSystem {a : String} (hK : Approves K a) (s : String)
    (last : TokenIterator) :
    OnSystem D K (fun _ => Stays) s a
      (getCurrentTimingMaster (begin_ [a, s]) last : Control W Bool) := by
  refine ⟨_, rfl, fun it => Guarded.tryCatch ?_ fun e => ?_⟩
  · exact Body.bind (Quiet.fep3 _) fun _ => (Guarded.attr hK _).body
  · exact Guarded.exception hK (fun _ => rfl) _ (by decide) e

/-! ## Setting the state -/

/-- What `setSystemState` does with an exception. -/
def stateException (a s state_string e : String) : Control W Bool := do
  writeException a ("cannot set system state '" ++ state_string ++ "' for '" ++ s ++ "'")
    .generic_error e
  pure false

/-- What `setSystemState` does with the system it found. -/
def setStateRest (a s state_string : String) (last : TokenIterator) (it : Entry) :
    Control W Bool :=
  tryCatch
    (if getStateFromString state_string = .unreachable then do
      it.2.call (.setSystemState .unloaded)
      shutdownSystem (begin_ [a, s, state_string]) last
    else do
      it.2.call (.setSystemState (getStateFromString state_string))
      let _ ← getSystemState (begin_ [a, s, state_string]) last
      pure true)
    (stateException a s state_string)

theorem setSystemState_eq (a s state_string : String) (last : TokenIterator) :
    (setSystemState (begin_ [a, s, state_string]) last : Control W Bool) =
      withSystem s a (setStateRest a s state_string last) := by
  funext env m
  show Eff.andThen _ env (lookup s a env m) = Eff.andThen _ env (lookup s a env m)
  rcases lookup s a env m with ⟨(_ | it) | _ | _, m'⟩ <;> rfl

/-- The flag of the state query is the fate of its library call. -/
theorem systemStateRest_ok {env : Env W} {m : Machine W} {it : Entry} {state : SystemState} {w : W}
    (h : env.fep3 (.system it.2 .getSystemState) m.world = (.ok state, w)) (a s : String) :
    ∃ m', systemStateRest a s it env m = (.ok true, m') := by
  rw [systemStateRest, Eff.tryCatch_apply,
    Eff.bind_of_ok (show it.2.getSystemState env m = _ from fep3_ok h)]
  exact ⟨_, rfl⟩

theorem systemStateRest_throws {env : Env W} {m : Machine W} {it : Entry} {e : String} {w : W}
    (h : env.fep3 (.system it.2 .getSystemState) m.world = (.error e, w)) (a s : String) :
    ∃ m', systemStateRest a s it env m = (.ok false, m') := by
  rw [systemStateRest, Eff.tryCatch_apply,
    Eff.bind_of_throws (show it.2.getSystemState env m = _ from fep3_throws h)]
  exact ⟨_, rfl⟩

/-- The state is set, and then cannot be queried: the query answers for the failure, and the
    command returns `true` all the same. -/
def QueryFails (env : Env W) (state : AggregatedState) (system : System) (w : W) : Prop :=
  state ≠ .unreachable ∧ ∃ w', env.run w [.system system (.setSystemState state)] = some w' ∧
    env.AnyThrows w' [.system system .getSystemState]

/-- What setting the state does to the registry: for `shutdowned` it may erase the name of the
    system. -/
def MayErase (state_string : String) (it : Entry) (_ : Bool) (r r' : Registry) : Prop :=
  r' = r ∨ getStateFromString state_string = .unreachable ∧ r' = r.erase it.2.name

/-- The answer of `setSystemState`: where the query fails, it is a failure, whatever the flag. -/
def StateAnswers (K : Bool → Bool → Response → Prop) (lost : Prop) (b : Bool)
    (m m' : Machine W) : Prop :=
  lost ∧ b = true ∧ Answers (K false) m m' ∨ ¬ lost ∧ Answers (K b) m m'

/-- The shutdown of a system that is a key. -/
theorem shutdownSystem_found_wp {env : Env W} {m : Machine W} {s : String} {system : System}
    (h : m.registry.find? s = some system) {a : String} (hK : Approves K a)
    (tokens : List String) (last : TokenIterator) :
    (shutdownSystem (begin_ (a :: s :: tokens)) last).wp env
      ⟨fun b m' => Keeps (Erases (s, system) b) m m' ∧ Answers (K b) m m', fun _ _ => False,
        fun d _ => NoStop d⟩ m := by
  rw [shutdownSystem_eq]
  unfold Eff.wp
  rw [withSystem_found h]
  exact Eff.wp_mono (shutdownRest_guarded hK s (s, system) env (m.found s))
    (fun _ _ h' => (Silent.found m s).keeps_answers h') (fun _ _ h' => h') (fun _ _ h' => h')

/-- The state query of a system that is a key. -/
theorem getSystemState_found (env : Env W) {m : Machine W} {s : String} {system : System}
    (h : m.registry.find? s = some system) {a : String} (hK : Approves K a)
    (tokens : List String) (last : TokenIterator) :
    ∃ b m', getSystemState (begin_ (a :: s :: tokens)) last env m = (.ok b, m') ∧
      Keeps Eq m m' ∧ Answers (K b) m m' ∧
      (b = false ↔ env.AnyThrows m.world [.system system .getSystemState]) := by
  rw [getSystemState_eq, withSystem_found h]
  have hrest : Guarded NoStop Stays K (systemStateRest a s (s, system) : Control W Bool) :=
    systemStateRest_guarded hK s (s, system)
  have hguarded := hrest env (m.found s)
  unfold Env.AnyThrows Env.run
  rcases hreply : env.fep3 (.system system .getSystemState) m.world with ⟨e | state, w⟩
  · have hcall : env.fep3 (.system (s, system).2 .getSystemState) (m.found s).world = _ := hreply
    obtain ⟨m', hm'⟩ := systemStateRest_throws hcall a s
    have hpost := (Silent.found m s).keeps_answers (Eff.wp_ok hguarded hm')
    exact ⟨false, m', hm', hpost.1, hpost.2, by simp⟩
  · have hcall : env.fep3 (.system (s, system).2 .getSystemState) (m.found s).world = _ := hreply
    obtain ⟨m', hm'⟩ := systemStateRest_ok hcall a s
    have hpost := (Silent.found m s).keeps_answers (Eff.wp_ok hguarded hm')
    exact ⟨true, m', hm', hpost.1, hpost.2, by simp [Env.run]⟩

/-- The handler of `setSystemState` reports, and changes nothing. -/
theorem stateException_guarded {a : String} (hK : Approves K a) (s state_string e : String)
    (it : Entry) :
    Guarded D (MayErase state_string it) K
      (stateException a s state_string e : Control W Bool) :=
  Guarded.exception hK (fun _ => .inl rfl) _ (by decide) e

/-- The part of `setSystemState` behind the lookup. -/
theorem setStateRest_wp {env : Env W} {m : Machine W} {s : String} {system : System}
    (h : m.registry.find? s = some system) {a : String} (hK : Approves K a)
    (state_string : String) (last : TokenIterator) :
    (setStateRest a s state_string last (s, system)).wp env
      ⟨fun b m' => Keeps (MayErase state_string (s, system) b) m m' ∧
          StateAnswers K (QueryFails env (getStateFromString state_string) system m.world) b m m',
        fun _ _ => False, fun d _ => NoStop d⟩ m := by
  have hcatch : ∀ e m₁, Silent m m₁ →
      ¬ QueryFails env (getStateFromString state_string) system m.world →
      (stateException a s state_string e).wp env
        ⟨fun b m' => Keeps (MayErase state_string (s, system) b) m m' ∧
            StateAnswers K (QueryFails env (getStateFromString state_string) system m.world) b m m',
          fun _ _ => False, fun d _ => NoStop d⟩ m₁ := by
    intro e m₁ hsilent hlost
    refine Eff.wp_mono (stateException_guarded hK s state_string e (s, system) env m₁)
      (fun b m' h' => ?_)
      (fun _ _ h' => h') (fun _ _ h' => h')
    have h' := hsilent.keeps_answers h'
    exact ⟨h'.1, .inr ⟨hlost, h'.2⟩⟩
  by_cases hstate : getStateFromString state_string = .unreachable
  · have hlost : ¬ QueryFails env (getStateFromString state_string) system m.world :=
      fun hlost => hlost.1 hstate
    rw [setStateRest, if_pos hstate, Eff.wp_tryCatch, Eff.wp_bind]
    refine Eff.wp_mono (Quiet.call system _ env m) (fun _ m₁ hsilent => ?_)
      (fun e m₁ hsilent => hcatch e m₁ hsilent hlost) (fun _ _ h' => h')
    refine Eff.wp_mono (shutdownSystem_found_wp (hsilent.registry ▸ h) hK [state_string] last)
      (fun b m' h' => ?_) (fun _ _ h' => h'.elim) (fun _ _ h' => h')
    have h' := hsilent.keeps_answers h'
    refine ⟨⟨h'.1.toKeepsModes, ?_⟩, .inr ⟨hlost, h'.2⟩⟩
    cases b with
    | true => exact .inr ⟨hstate, h'.1.registry⟩
    | false => exact .inl h'.1.registry
  · rw [setStateRest, if_neg hstate, Eff.wp_tryCatch, System.call_eq, Eff.wp_bind]
    refine Eff.wp_mono (callAll_wp env _ m) (fun _ m₁ h₁ => ?_)
      (fun e m₁ h₁ => hcatch e m₁ h₁.1 ?_) (fun _ _ h' => h'.elim)
    · obtain ⟨hsilent, hrun⟩ := h₁
      have hfind : m₁.registry.find? s = some system := hsilent.registry ▸ h
      obtain ⟨b, m', hm', hkeeps, hanswers, hflag⟩ :=
        getSystemState_found env hfind hK [state_string] last
      show (getSystemState _ last >>= fun _ => pure true : Control W Bool).wp env _ m₁
      unfold Eff.wp
      rw [Eff.bind_of_ok hm']
      have h' := hsilent.keeps_answers ⟨hkeeps, hanswers⟩
      refine ⟨⟨h'.1.toKeepsModes, .inl h'.1.registry.symm⟩, ?_⟩
      cases b with
      | false => exact .inl ⟨⟨hstate, _, hrun, hflag.mp rfl⟩, rfl, h'.2⟩
      | true =>
        refine .inr ⟨fun ⟨_, w', hrun', hthrows⟩ => ?_, h'.2⟩
        obtain rfl : m₁.world = w' := Option.some.inj (hrun.symm.trans hrun')
        exact absurd (hflag.mpr hthrows) (by decide)
    · rintro ⟨_, w', hrun', _⟩
      exact absurd (h₁.2.symm.trans hrun') nofun

/-- A library call behind the lookup of `setSystemState` throws where nothing reports it. -/
def StateLost (env : Env W) (m : Machine W) (s state_string : String) : Prop :=
  ∃ system w, Finds env m s system w ∧
    QueryFails env (getStateFromString state_string) system w

/-- **What `setSystemState` does**: it erases at most the system it has shut down, and answers once;
    its flag says what is answered unless the query fails. -/
theorem setSystemState_wp (a s state_string : String) (last : TokenIterator) (env : Env W)
    (m : Machine W) : (setSystemState (begin_ [a, s, state_string]) last).wp env
      ⟨fun b m' => KeepsModes m m' ∧ ¬ LookupThrows env m s ∧
          OnEntry env m s (MayErase state_string) b m'.registry ∧
          StateAnswers (Plain a) (StateLost env m s state_string) b m m',
        fun _ m' => Silent m m' ∧ LookupThrows env m s, fun d _ => NoStop d⟩ m := by
  rw [setSystemState_eq]
  refine withSystem_wp (fun m' h => ?_) (fun system m' h => ?_) (fun _ _ h h' => ⟨h, h'⟩)
  · refine ⟨h.modes, h.returns, .missing h _, .inr ⟨?_, h.answers⟩⟩
    exact fun ⟨system, w, hfinds, _⟩ => h.unknown system w hfinds
  · refine Eff.wp_mono (setStateRest_wp h.find (Plain.approves a) state_string last)
      (fun b m'' h' => ?_) (fun _ _ h' => h'.elim) (fun _ _ h' => h')
    have hfinds := h.finds
    refine ⟨h.modes.trans h'.1.toKeepsModes, h.returns, .found h h'.1.registry, ?_⟩
    rcases h'.2 with ⟨hlost, hb, hanswers⟩ | ⟨hlost, hanswers⟩
    · exact .inl ⟨⟨system, _, hfinds, hlost⟩, hb, hanswers.found h⟩
    · refine .inr ⟨fun ⟨system', w, hfinds', hlost'⟩ => ?_, hanswers.found h⟩
      obtain ⟨rfl, rfl⟩ := hfinds.unique hfinds'
      exact hlost hlost'

/-! ## The participants -/

/-- A library call of `getParticipants` throws. -/
def ParticipantsThrow (env : Env W) (m : Machine W) (s : String) : Prop :=
  LookupThrows env m s ∨ ∃ system w, Finds env m s system w ∧ env.AnyThrows w (listing system)

/-- **What `getParticipants` does**: it lists the participants, or lets an exception through. -/
theorem getParticipants_wp (a s : String) (last : TokenIterator) (env : Env W) (m : Machine W) :
    (getParticipants (begin_ [a, s]) last).wp env
      ⟨fun b m' => KeepsModes m m' ∧ ¬ ParticipantsThrow env m s ∧
          OnEntry env m s (fun _ => Stays) b m'.registry ∧ Answers (Plain a b) m m',
        fun _ m' => KeepsModes m m' ∧ ParticipantsThrow env m s ∧ Looked env s m m'.registry ∧
          m'.written = m.written,
        fun _ _ => False⟩ m := by
  have hform : (getParticipants (begin_ [a, s]) last : Control W Bool) =
      withSystem s a (fun it => do
        callAll (listing it.2)
        writeNotes a (displayed it.2)
        pure true) := by
    show (withSystem s a fun it => do
      writeNotes a (← getSystemParticipants it.2)
      pure true : Control W Bool) = _
    simp only [getSystemParticipants_eq, bind_assoc, pure_bind]
  rw [hform]
  refine withSystem_wp (fun m' h => ?_) (fun system m' h => ?_) (fun _ m' h h' => ?_)
  · refine ⟨h.modes, ?_, .missing h _, h.answers⟩
    rintro (hthrows | ⟨system, w, hfinds, _⟩)
    · exact h.returns hthrows
    · exact h.unknown system w hfinds
  · have hfinds := h.finds
    rw [Eff.wp_bind]
    refine Eff.wp_mono (callAll_wp env _ m') (fun _ m₁ h₁ => ?_) (fun _ m₁ h₁ => ?_)
      (fun _ _ h' => h')
    · obtain ⟨hsilent, hrun⟩ := h₁
      refine ⟨(h.modes.trans hsilent.toKeepsModes).trans (KeepsModes.wrote m₁ _), ?_,
        .found h hsilent.registry, .found h (hsilent.answers
          ⟨.notes a (displayed system), rfl, Plain.notes a _ _⟩)⟩
      rintro (hthrows | ⟨system', w, hfinds', hthrows⟩)
      · exact h.returns hthrows
      · obtain ⟨rfl, rfl⟩ := hfinds.unique hfinds'
        exact absurd (hrun.symm.trans hthrows) nofun
    · exact ⟨h.modes.trans h₁.1.toKeepsModes, .inr ⟨system, _, hfinds, h₁.2⟩,
        h₁.1.registry ▸ h.looked, h₁.1.written.trans h.written⟩
  · exact ⟨h.toKeepsModes, .inl h', h.registry ▸ .same, h.written⟩

end FepControl
