/-
  What a handler calls, and what it changes.

  That a command about one system does not touch another one is not a statement about its result.
  The calls that it makes have to be known, each with the object it is made on, and the object is a
  value that was found on the way.  This file goes through the text of every handler once and writes
  down what it can call and what it can assign, without running it.

  1. **Confined** -- a part of a handler is confined to calls `C` and updates `U` if it is made of
     library calls that satisfy `C`, of helper calls, of updates of the session that satisfy `U`,
     and of reading.  It is closed under the constructs of the code (`Lib.Eff.Made`).

  2. **Values** -- a continuation has to be confined only for the values that its first part can
     give (`Eff.Gives`).  So what is called on a participant is known to be called on one that the
     library gave for this name.

  3. **Footprint** -- the calls of a command behind the lookup of its system: on the object that was
     found, or on the one participant that the command names.  `setParticipantState` alone makes an
     object of its own.

  4. **looksUp_invoke** -- every handler that starts with a lookup is confined to its footprint from
     there on.  There is one lemma for each of them, and these are put together by the number of
     their arguments.
-/
import FepControl.Invoke
import FepControl.Lib.Made

namespace FepControl

open Lib

variable {W α β : Type}

/-! ## Confined parts -/

/-- The basic steps of a handler. -/
inductive Basic (C : Call → Prop) (U : (Session → Session) → Prop) :
    (α : Type) → Control W α → Prop where
  | call {c : Call} (h : C c) : Basic C U c.Reply (fep3 c)
  | write (r : Response) : Basic C U Unit (write r)
  | update {f : Session → Session} (h : U f) : Basic C U Unit (update f)
  | session : Basic C U Session session
  | read : Basic C U (Env W) Eff.read

/-- The part calls the library only as `C` says, and changes the session only as `U` says, in an
    environment that satisfies `E`. -/
def Confined (E : Env W → Prop) (C : Call → Prop) (U : (Session → Session) → Prop)
    (c : Control W α) : Prop := Eff.Made E (Basic C U) c

variable {E : Env W → Prop} {C : Call → Prop} {U : (Session → Session) → Prop}

namespace Confined

theorem pure (a : α) : Confined E C U (pure a : Control W α) := Eff.Made.pure a

theorem throw (e : String) : Confined E C U (throw e : Control W α) := Eff.Made.throw e

theorem stop (d : Stop) : Confined E C U (Eff.stop d : Control W α) := Eff.Made.stop d

/-- Sequencing: the second part is looked at for the values of the first. -/
theorem bind {c : Control W α} {f : α → Control W β} (hc : Confined E C U c)
    (hf : ∀ a, Eff.Gives E c a → Confined E C U (f a)) : Confined E C U (c >>= f) :=
  Eff.Made.bind hc hf

theorem andThen {c : Control W α} {f : α → Control W β} (hc : Confined E C U c)
    (hf : ∀ a, Confined E C U (f a)) : Confined E C U (c >>= f) := Eff.Made.andThen hc hf

theorem tryCatch {c : Control W α} {h : String → Control W α} (hc : Confined E C U c)
    (hh : ∀ e, Confined E C U (h e)) : Confined E C U (tryCatch c h) := Eff.Made.tryCatch hc hh

/-- A `try` block with more code behind it. -/
theorem tryElse {c : Control W (Option α)} {h : String → Control W α} {k : Control W α}
    (hc : Confined E C U c) (hh : ∀ e, Confined E C U (h e)) (hk : Confined E C U k) :
    Confined E C U (Eff.tryElse c h k) := Eff.Made.tryElse hc hh hk

/-- Confinement may be loosened. -/
theorem mono {C' : Call → Prop} {U' : (Session → Session) → Prop} {c : Control W α}
    (h : Confined E C U c) (hC : ∀ call, C call → C' call) (hU : ∀ f, U f → U' f) :
    Confined E C' U' c := by
  refine Eff.Made.mono h fun _ _ hbasic => ?_
  cases hbasic with
  | call h => exact .call (hC _ h)
  | write r => exact .write r
  | update h => exact .update (hU _ h)
  | session => exact .session
  | read => exact .read

theorem fep3 {c : Call} (h : C c) : Confined E C U (fep3 c : Control W c.Reply) :=
  Eff.Made.basic (.call h)

theorem update {f : Session → Session} (h : U f) : Confined E C U (update f : Control W Unit) :=
  Eff.Made.basic (.update h)

theorem session : Confined E C U (session : Control W Session) := Eff.Made.basic .session

theorem read : Confined E C U (Eff.read : Control W (Env W)) := Eff.Made.basic .read

/-- Writing a response and returning a value. -/
theorem answer (r : Response) (a : α) :
    Confined E C U (do write r; Pure.pure a : Control W α) :=
  andThen (Eff.Made.basic (.write r)) fun _ => pure a

/-- A method of a system that answers nothing. -/
theorem call {sys : System} {c : SystemCall} (h : C (.system sys c)) :
    Confined E C U (sys.call c : Control W Unit) := andThen (fep3 h) fun _ => pure ()

/-- The same of a participant. -/
theorem participantCall {part : ParticipantProxy} {c : ParticipantCall}
    (h : C (.participant part c)) : Confined E C U (part.call c : Control W Unit) :=
  andThen (fep3 h) fun _ => pure ()

theorem callAll : ∀ {cs : List Call}, (∀ c ∈ cs, C c) →
    Confined E C U (callAll cs : Control W Unit)
  | [], _ => pure ()
  | c :: _, h => andThen (fep3 (h c List.mem_cons_self)) fun _ =>
      callAll fun c' hc' => h c' (List.mem_cons_of_mem _ hc')

theorem stateID (state : AggregatedState) : Confined E C U (stateID state : Control W String) :=
  andThen read fun _ => pure _

theorem orThrow : ∀ x : Except String α, Confined E C U (orThrow x : Control W α)
  | .ok a => pure a
  | .error what => throw what

theorem nonNull : ∀ p : Option Unit, Confined E C U (nonNull p : Control W Unit)
  | some _ => pure ()
  | none => stop .nullPointer

end Confined

/-- An update that only tells the completion which system was used last. -/
def Usual (f : Session → Session) : Prop :=
  ∃ name, f = fun s => { s with last_system_name_used := name }

theorem Confined.setLastSystemNameUsed (hU : ∀ f, Usual f → U f) (name : String) :
    Confined E C U (setLastSystemNameUsed name : Control W Unit) := .update (hU _ ⟨name, rfl⟩)

/-! ## Footprints -/

/-- The calls on a system object, however many monitors are registered with it, and those that
    display its participants. -/
inductive OnObject (system : System) : Call → Prop where
  | object (monitors : Nat) (call : SystemCall) :
      OnObject system (.system { system with monitors := monitors } call)
  | name {part : ParticipantProxy} (h : part ∈ system.proxies) :
      OnObject system (.participant part .getName)

/-- The calls on one participant of a system: the call that answers with it, and those on the
    answer. -/
inductive OnProxy (E : Env W → Prop) (system : System) (p : String) : Call → Prop where
  | lookup : OnProxy E system p (.system system (.getParticipant p))
  | proxy {part : ParticipantProxy}
      (h : Eff.Gives E (system.getParticipant p : Control W ParticipantProxy) part)
      (call : ParticipantCall) : OnProxy E system p (.participant part call)

/-- The calls on a system that is made of a name, and of one participant. -/
inductive OnTemporary (s p : String) : Call → Prop where
  | new : OnTemporary s p (.newSystem s)
  | add (handle : Nat) : OnTemporary s p (.system ⟨handle, s, [], 0⟩ (.add p))
  | object (handle : Nat) (call : SystemCall) :
      OnTemporary s p (.system ⟨handle, s, [p], 0⟩ call)

theorem OnObject.self (system : System) (call : SystemCall) :
    OnObject system (.system system call) := .object system.monitors call

/-- The commands on one participant, the second argument. -/
def ActionFunction.onParticipant : ActionFunction → Bool
  | .setInitPriority | .getInitPriority | .setStartPriority | .getStartPriority
  | .loadParticipant | .unloadParticipant | .initializeParticipant | .deinitializeParticipant
  | .startParticipant | .stopParticipant | .pauseParticipant | .shutdownParticipant
  | .getParticipantPropertyNames | .getParticipantProperties | .getParticipantProperty
  | .setParticipantProperty | .getRPCObjectsParticipant | .getRPCObjectIIDSParticipant
  | .getRPCObjectDefinitionParticipant | .getParticipantState | .setParticipantState
  | .callRPC => true
  | _ => false

/-- The calls of the command `f` on the system `s` with these further arguments, once it has found
    the object `system`. -/
def Footprint (E : Env W → Prop) (f : ActionFunction) (s : String) (arguments : List String)
    (system : System) (c : Call) : Prop :=
  if f.onParticipant then
    OnProxy E system (arguments.headD "") c ∨
      f = .setParticipantState ∧ OnTemporary s (arguments.headD "") c
  else OnObject system c

/-- The updates of the session that the command `f` makes behind the lookup. -/
def Updates (f : ActionFunction) (u : Session → Session) : Prop :=
  Usual u ∨
    match f with
    | .getParticipantProperty | .setParticipantProperty => ∃ p path, u = useProperty p path
    | .shutdownSystem | .setSystemState | .startMonitoringSystem | .stopMonitoringSystem =>
        ∃ g : Registry → Registry, u = fun s =>
          { s with connected_or_discovered_systems := g s.connected_or_discovered_systems }
    | _ => False

/-- The handler looks the system `s` up, and what it does with the object it found is confined. -/
def LooksUp (E : Env W → Prop) (C : System → Call → Prop) (U : (Session → Session) → Prop)
    (s action : String) (c : Control W Bool) : Prop :=
  ∃ rest, c = withSystem s action rest ∧ ∀ it : Entry, Confined E (C it.2) U (rest it)

/-- And so may that of a handler around a lookup. -/
theorem LooksUp.mono {C C' : System → Call → Prop} {U U' : (Session → Session) → Prop}
    {s action : String} {c : Control W Bool} (h : LooksUp E C U s action c)
    (hC : ∀ system call, C system call → C' system call) (hU : ∀ f, U f → U' f) :
    LooksUp E C' U' s action c := by
  obtain ⟨rest, hc, hrest⟩ := h
  exact ⟨rest, hc, fun it => (hrest it).mono (hC it.2) hU⟩

/-! ## The handlers of systems -/

variable {W : Type} {E : Env W → Prop} {C : Call → Prop} {U : (Session → Session) → Prop}

theorem Usual.updates (f : ActionFunction) {u : Session → Session} (h : Usual u) : Updates f u :=
  .inl h

/-- The `changeStateMethod` family: what is handed over is confined. -/
theorem changeStateRest_confined {it : Entry} {call : System → Control W Unit}
    (hcall : Confined E C U (call it.2)) (s action success_message failed_message : String) :
    Confined E C U (changeStateRest s call action success_message failed_message it) :=
  .tryElse (hcall.andThen fun _ => .pure none) (fun _ => .answer _ _) (.answer _ _)

theorem changeState_looksUp (a s : String) (c : SystemCall)
    (success_message failed_message : String) :
    LooksUp E OnObject U s a (changeStateMethod ⟨[a, s], 1⟩ (fun sys => sys.call c) a
      success_message failed_message) :=
  ⟨changeStateRest s (fun sys => sys.call c) a success_message failed_message, rfl, fun it =>
    changeStateRest_confined (.call (.self it.2 c)) s a success_message failed_message⟩

/-- A shutdown erases an entry. -/
theorem shutdownRest_confined (hU : ∀ name, U fun session => { session with
      connected_or_discovered_systems := session.connected_or_discovered_systems.erase name })
    (a s : String) (it : Entry) : Confined E (OnObject it.2) U
      (changeStateRest s shutdownCall a "shutdowned" "shutdown" it : Control W Bool) := by
  refine changeStateRest_confined ?_ s a "shutdowned" "shutdown"
  refine Confined.andThen ?_ fun name => Confined.andThen (.call (.self it.2 _)) fun _ =>
    .update (hU name)
  exact Confined.andThen (.fep3 (.self it.2 _)) fun _ => .pure _

theorem shutdownSystem_looksUp (a s : String) (last : TokenIterator) :
    LooksUp E OnObject (Updates .shutdownSystem) s a (shutdownSystem (begin_ [a, s]) last) :=
  ⟨_, shutdownSystem_eq a s [] last, fun it =>
    shutdownRest_confined (fun name => .inr ⟨fun r => r.erase name, rfl⟩) a s it⟩

theorem systemStateRest_confined (a s : String) (it : Entry) :
    Confined E (OnObject it.2) U (systemStateRest a s it : Control W Bool) := by
  refine Confined.tryCatch ?_ fun _ => .answer _ _
  exact Confined.andThen (.fep3 (.self it.2 _)) fun _ => Confined.andThen (.stateID _) fun _ =>
    .answer _ _

theorem getSystemState_looksUp (a s : String) (last : TokenIterator) :
    LooksUp E OnObject U s a (getSystemState (begin_ [a, s]) last) :=
  ⟨_, getSystemState_eq a s [] last, systemStateRest_confined a s⟩

/-- What `setSystemState` does with the system it found, the two handlers that it calls with it:
    each looks the system up once more, and finds it. -/
def setStateInlined (a s state_string : String) (it : Entry) : Control W Bool :=
  tryCatch
    (if getStateFromString state_string = .unreachable then do
      it.2.call (.setSystemState .unloaded)
      setLastSystemNameUsed s
      changeStateRest s shutdownCall a "shutdowned" "shutdown" it
    else do
      it.2.call (.setSystemState (getStateFromString state_string))
      setLastSystemNameUsed s
      let _ ← systemStateRest a s it
      pure true)
    (stateException a s state_string)

/-- Setting a state is all right with the entry, which a call of the library leaves where it is. -/
theorem setStateRest_found {m : Machine W} {s : String} {system : System}
    (h : m.registry.find? s = some system) (env : Env W) (a state_string : String)
    (last : TokenIterator) :
    setStateRest a s state_string last (s, system) env m =
      setStateInlined a s state_string (s, system) env m := by
  rw [setStateRest, setStateInlined]
  split
  · rw [Eff.tryCatch_apply, Eff.tryCatch_apply, Eff.bind_apply, Eff.bind_apply]
    -- the call does not touch the registry, so the second lookup finds the same system
    have hquiet : Quiet NoStop (system.call (.setSystemState .unloaded) : Control W Unit) :=
      Quiet.call system _
    have hsilent := hquiet env m
    unfold Eff.wp at hsilent
    rcases hcall : system.call (.setSystemState .unloaded) env m with ⟨_ | _ | _, m'⟩
    · rw [hcall] at hsilent
      have hfind : m'.registry.find? s = some system := hsilent.registry ▸ h
      show Eff.orElse _ env (shutdownSystem _ last env m') = _
      rw [shutdownSystem_eq, withSystem_found hfind]
      rfl
    · rfl
    · rfl
  · rw [Eff.tryCatch_apply, Eff.tryCatch_apply, Eff.bind_apply, Eff.bind_apply]
    have hquiet : Quiet NoStop
        (system.call (.setSystemState (getStateFromString state_string)) : Control W Unit) :=
      Quiet.call system _
    have hsilent := hquiet env m
    unfold Eff.wp at hsilent
    rcases hcall : system.call (.setSystemState (getStateFromString state_string)) env m with
      ⟨_ | _ | _, m'⟩
    · rw [hcall] at hsilent
      have hfind : m'.registry.find? s = some system := hsilent.registry ▸ h
      show Eff.orElse _ env (Eff.andThen _ env (getSystemState _ last env m')) = _
      rw [getSystemState_eq, withSystem_found hfind]
      rfl
    · rfl
    · rfl

/-- `setSystemState` with the handlers that it calls written out: the lookup that they repeat finds
    the same system. -/
theorem setSystemState_inlined (a s state_string : String) (last : TokenIterator) :
    (setSystemState (begin_ [a, s, state_string]) last : Control W Bool) =
      withSystem s a (setStateInlined a s state_string) := by
  rw [setSystemState_eq]
  funext env m
  rw [withSystem, withSystem, Eff.bind_apply, Eff.bind_apply]
  have hlookup := lookup_wp env m s a
  unfold Eff.wp at hlookup
  rcases hit : lookup s a env m with ⟨(_ | ⟨key, system⟩) | _ | _, m'⟩
  · rfl
  · rw [hit] at hlookup
    obtain ⟨rfl, hfound⟩ := hlookup
    exact setStateRest_found hfound.find env a state_string last
  · rfl
  · rfl

theorem setSystemState_looksUp (a s state_string : String) (last : TokenIterator) :
    LooksUp E OnObject (Updates .setSystemState) s a
      (setSystemState (begin_ [a, s, state_string]) last) := by
  refine ⟨_, setSystemState_inlined a s state_string last, fun it => ?_⟩
  refine Confined.tryCatch ?_ fun _ => .answer _ _
  have hused : Confined E (OnObject it.2) (Updates .setSystemState)
      (setLastSystemNameUsed s : Control W Unit) :=
    .setLastSystemNameUsed (fun _ => Usual.updates _) s
  split
  · refine Confined.andThen (.call (.self it.2 _)) fun _ => hused.andThen fun _ => ?_
    exact shutdownRest_confined (fun name => .inr ⟨fun r => r.erase name, rfl⟩) a s it
  · refine Confined.andThen (.call (.self it.2 _)) fun _ => hused.andThen fun _ => ?_
    exact (systemStateRest_confined a s it).andThen fun _ => .pure true

/-- Displaying a system asks its object and its participants. -/
theorem listing_onObject {system : System} {c : Call} (h : c ∈ listing system) :
    OnObject system c := by
  rcases List.mem_cons.mp h with rfl | h
  · exact .self system _
  · rcases List.mem_cons.mp h with rfl | h
    · exact .self system _
    · obtain ⟨part, hpart, rfl⟩ := List.mem_map.mp h
      exact .name hpart

theorem getParticipants_looksUp (a s : String) (last : TokenIterator) :
    LooksUp E OnObject U s a (getParticipants (begin_ [a, s]) last) := by
  refine ⟨_, rfl, fun it => ?_⟩
  show Confined E (OnObject it.2) U (getSystemParticipants it.2 >>= fun attributes => do
    writeNotes a attributes
    pure true : Control W Bool)
  rw [getSystemParticipants_eq]
  refine Confined.andThen ?_ fun _ => .answer _ _
  exact Confined.andThen (.callAll fun c hc => listing_onObject hc) fun _ => .pure _

/-! ## Timing and monitoring -/

theorem configureSystemTimingSystemTime_looksUp (a s p : String) (last : TokenIterator) :
    LooksUp E OnObject U s a (configureSystemTimingSystemTime (begin_ [a, s, p]) last) := by
  refine ⟨_, rfl, fun it => Confined.tryCatch ?_ fun _ => .answer _ _⟩
  exact Confined.andThen (.call (.self it.2 _)) fun _ => .answer _ _

theorem configureSystemTimingDiscrete_looksUp (a s p f t : String) (last : TokenIterator) :
    LooksUp E OnObject U s a (configureSystemTimingDiscrete (begin_ [a, s, p, f, t]) last) := by
  refine ⟨_, rfl, fun it => Confined.tryCatch ?_ fun _ => .answer _ _⟩
  exact Confined.andThen (.call (.self it.2 _)) fun _ => .answer _ _

theorem configureSystemTimeNoSync_looksUp (hU : ∀ f, Usual f → U f) (a s : String)
    (last : TokenIterator) :
    LooksUp E OnObject U s a (configureSystemTimeNoSync (begin_ [a, s]) last) := by
  refine ⟨_, rfl, fun it => Confined.tryCatch ?_ fun _ => .answer _ _⟩
  exact Confined.andThen (.setLastSystemNameUsed hU s) fun _ =>
    Confined.andThen (.call (.self it.2 _)) fun _ => .answer _ _

theorem getCurrentTimingMaster_looksUp (a s : String) (last : TokenIterator) :
    LooksUp E OnObject U s a (getCurrentTimingMaster (begin_ [a, s]) last) := by
  refine ⟨_, rfl, fun it => Confined.tryCatch ?_ fun _ => .answer _ _⟩
  exact Confined.andThen (.fep3 (.self it.2 _)) fun _ => .answer _ _

/-- What is left of an object once its monitor is unregistered is the object, but for its
    monitors. -/
theorem tryUnregisterMonitoring_gives {it it' : Entry}
    (h : Eff.Gives E (tryUnregisterMonitoring it : Control W Entry) it') :
    ∃ monitors, it' = (it.1, { it.2 with monitors := monitors }) := by
  obtain ⟨env, m, m', -, h⟩ := h
  obtain ⟨-, -, rfl, -⟩ := Eff.wp_ok (tryUnregisterMonitoring_wp it env m) h
  unfold Env.unregistered
  split
  · exact ⟨_, rfl⟩
  · exact ⟨it.2.monitors, rfl⟩

/-- Unregistering and registering are calls on the object that was found, as it is by then. -/
theorem monitoring_confined (hU : ∀ key system, U fun session => { session with
      connected_or_discovered_systems :=
        session.connected_or_discovered_systems.assign key system }) (it : Entry) :
    Confined E (OnObject it.2) U (tryUnregisterMonitoring it : Control W Entry) ∧
      ∀ monitors, Confined E (OnObject it.2) U
        (registerMonitoring (it.1, { it.2 with monitors := monitors }) : Control W Entry) := by
  constructor
  · refine Confined.tryCatch ?_ fun _ => .pure it
    exact Confined.andThen (.fep3 (.self it.2 _)) fun _ =>
      Confined.andThen (.update (hU _ _)) fun _ => .pure _
  · intro monitors
    exact Confined.andThen (.fep3 (.object monitors _)) fun _ =>
      Confined.andThen (.update (hU _ _)) fun _ => .pure _

theorem startMonitoringSystem_looksUp (a s : String) (last : TokenIterator) :
    LooksUp E OnObject (Updates .startMonitoringSystem) s a
      (startMonitoringSystem (begin_ [a, s]) last) := by
  refine ⟨_, rfl, fun it => ?_⟩
  obtain ⟨hunregister, hregister⟩ := monitoring_confined (E := E)
    (U := Updates .startMonitoringSystem)
    (fun key system => .inr ⟨fun r => r.assign key system, rfl⟩) it
  refine Confined.bind hunregister fun it' h => ?_
  obtain ⟨monitors, rfl⟩ := tryUnregisterMonitoring_gives h
  exact (hregister monitors).andThen fun _ => .answer _ _

theorem stopMonitoringSystem_looksUp (a s : String) (last : TokenIterator) :
    LooksUp E OnObject (Updates .stopMonitoringSystem) s a
      (stopMonitoringSystem (begin_ [a, s]) last) := by
  refine ⟨_, rfl, fun it => ?_⟩
  obtain ⟨hunregister, -⟩ := monitoring_confined (E := E)
    (U := Updates .stopMonitoringSystem)
    (fun key system => .inr ⟨fun r => r.assign key system, rfl⟩) it
  exact hunregister.andThen fun _ => .answer _ _

/-! ## The handlers of participants -/

/-- The calls on the participant `p` of a system. -/
abbrev OnOne (E : Env W → Prop) (p : String) (system : System) : Call → Prop := OnProxy E system p

/-- The proxy that `participantOf` gives is the answer of the library. -/
theorem participantOf_gives {a s p : String} {it : Entry} {part : ParticipantProxy}
    (h : Eff.Gives E (participantOf a s p it : Control W (Option ParticipantProxy)) (some part)) :
    Eff.Gives E (it.2.getParticipant p : Control W ParticipantProxy) part := by
  obtain ⟨env, m, m', hE, h⟩ := h
  rw [participantOf, Eff.tryCatch_apply, Eff.bind_apply] at h
  rcases hreply : it.2.getParticipant p env m with ⟨part' | e | d, m₁⟩
  · rw [hreply] at h
    obtain rfl : part' = part := Option.some.inj (Outcome.ok.inj (Prod.mk.inj h).1)
    exact ⟨env, m, m₁, hE, hreply⟩
  · rw [hreply] at h
    cases Outcome.ok.inj (Prod.mk.inj h).1
  · rw [hreply] at h
    cases (Prod.mk.inj h).1

/-- **The handlers around a participant**: what they do with it is all that has to be confined. -/
theorem LooksUp.withParticipant {C : System → Call → Prop} {a s p : String}
    {rest : ParticipantProxy → Control W Bool} (hC : ∀ system c, OnOne E p system c → C system c)
    (hrest : ∀ system part,
      Eff.Gives E (system.getParticipant p : Control W ParticipantProxy) part →
        Confined E (C system) U (rest part)) :
    LooksUp E C U s a (withParticipant a s p rest) := by
  refine ⟨_, withParticipant_eq a s p rest, fun it => Confined.bind ?_ fun part hpart => ?_⟩
  · refine Confined.tryCatch ?_ fun _ => .answer _ _
    exact Confined.andThen (.fep3 (hC it.2 _ .lookup)) fun part => .pure _
  · cases part with
    | none => exact .pure false
    | some part => exact hrest it.2 part (participantOf_gives hpart)

section

variable {system : System} {p : String} {part : ParticipantProxy}
  (hpart : Eff.Gives E (system.getParticipant p : Control W ParticipantProxy) part)

include hpart

theorem Confined.onProxy (c : ParticipantCall) : Confined E (OnOne E p system) U
    (FepControl.fep3 (.participant part c) : Control W _) := .fep3 (.proxy hpart c)

theorem Confined.callProxy (c : ParticipantCall) :
    Confined E (OnOne E p system) U (part.call c : Control W Unit) :=
  .participantCall (.proxy hpart c)

end

theorem setPriority_looksUp (a s p n : String) (last : TokenIterator) (type : PriorityType) :
    LooksUp E (OnOne E p) U s a (setPriority (begin_ [a, s, p, n]) last type) := by
  refine LooksUp.withParticipant (fun _ _ h => h) fun system part hpart =>
    Confined.tryCatch ?_ fun _ => .answer _ _
  refine Confined.andThen (.orThrow _) fun value => ?_
  cases type with
  | init_priority => exact Confined.andThen (.callProxy hpart _) fun _ => .answer _ _
  | start_priority => exact Confined.andThen (.callProxy hpart _) fun _ => .answer _ _

theorem getPriority_looksUp (a s p : String) (last : TokenIterator) (type : PriorityType) :
    LooksUp E (OnOne E p) U s a (getPriority (begin_ [a, s, p]) last type) := by
  refine LooksUp.withParticipant (fun _ _ h => h) fun system part hpart =>
    Confined.tryCatch ?_ fun _ => .answer _ _
  cases type with
  | init_priority => exact Confined.andThen (.onProxy hpart _) fun _ => .answer _ _
  | start_priority => exact Confined.andThen (.onProxy hpart _) fun _ => .answer _ _

theorem doParticipantStateChange_looksUp (hU : ∀ f, Usual f → U f) (a s p : String)
    (c : ParticipantCall) (message_1 message_2 : String) :
    LooksUp E (OnOne E p) U s a (doParticipantStateChange ⟨[a, s, p], 1⟩
      (fun part => part.call c) a message_1 message_2) := by
  refine ⟨_, rfl, fun it => Confined.tryElse ?_ (fun _ => .answer _ _) (.answer _ _)⟩
  refine Confined.bind (.fep3 .lookup) fun part hpart => ?_
  cases part.valid with
  | true =>
    refine Confined.andThen (.onProxy hpart _) fun state_machine => ?_
    cases state_machine with
    | some _ =>
      exact Confined.andThen (.callProxy hpart c) fun _ =>
        Confined.andThen (.setLastSystemNameUsed hU it.1) fun _ => .pure none
    | none => exact .answer _ _
  | false => exact .answer _ _

theorem getParticipantState_looksUp (a s p : String) (last : TokenIterator) :
    LooksUp E (OnOne E p) U s a (getParticipantState (begin_ [a, s, p]) last) := by
  refine LooksUp.withParticipant (fun _ _ h => h) fun system part hpart =>
    Confined.tryCatch ?_ fun _ => .answer _ _
  refine Confined.andThen (.onProxy hpart _) fun state_machine => ?_
  cases state_machine with
  | some _ =>
    exact Confined.andThen (.onProxy hpart _) fun _ => Confined.andThen (.stateID _) fun _ =>
      .answer _ _
  | none => exact .answer _ _

/-- The constructor gives an object of that name, without participants. -/
theorem newSystem_gives {s : String} {system : System}
    (h : Eff.Gives E (newSystem s : Control W System) system) :
    ∃ handle, system = ⟨handle, s, [], 0⟩ := by
  obtain ⟨env, m, m', -, h⟩ := h
  rcases hreply : env.fep3 (.newSystem s) m.world with ⟨e | handle, w⟩
  · have hthrows : newSystem s env m = (.throws e, m.called (.newSystem s) true w) :=
      Eff.bind_of_throws (fep3_throws hreply) _
    rw [hthrows] at h
    cases (Prod.mk.inj h).1
  · have hok : newSystem s env m = (.ok ⟨handle, s, [], 0⟩, m.called (.newSystem s) false w) :=
      Eff.bind_of_ok (fep3_ok hreply) _
    rw [hok] at h
    exact ⟨handle, (Outcome.ok.inj (Prod.mk.inj h).1).symm⟩

/-- What `setParticipantState` does with its temporary system. -/
def temporaryState (a p state_string : String) (system_temp : System) : Control W Bool := do
  let system_temp ← system_temp.add p
  let state_to_set := getStateFromString state_string
  if state_to_set = .unreachable then
    system_temp.call (.setSystemState .unloaded)
    system_temp.call (.change .shutdown)
  else
    system_temp.call (.setSystemState state_to_set)
  let attributes := [("stateID", ← stateID state_to_set),
    ("stateName", resolveSystemState state_to_set)]
  writeNotes a attributes
  pure true

/-- What `setParticipantState` does with an exception. -/
def participantStateException (a s p state_string e : String) : Control W Bool := do
  writeException a ("cannot set participant state" ++ state_string ++ "for participant '" ++ p ++
    "@" ++ s ++ "'") .participant_error e
  pure false

/-- The handler, with what it does in its `try` as a function. -/
theorem setParticipantState_eq (a s p state_string : String) (last : TokenIterator) :
    (setParticipantState (begin_ [a, s, p, state_string]) last : Control W Bool) =
      withParticipant a s p fun _ => tryCatch (newSystem s >>= temporaryState a p state_string)
        (participantStateException a s p state_string) := rfl

/-- What is called on the object that is made on the way. -/
theorem temporaryState_confined {system : System} {p : String} (hadd : C (.system system (.add p)))
    (hobject : ∀ call, C (.system { system with participants := system.participants ++ [p] } call))
    (a state_string : String) :
    Confined E C U (temporaryState a p state_string system : Control W Bool) := by
  have hnotes : ∀ state, Confined E C U (do
      writeNotes a [("stateID", ← stateID state), ("stateName", resolveSystemState state)]
      pure true : Control W Bool) := fun state =>
    Confined.andThen (.stateID state) fun _ => .answer _ _
  -- both branches write the notes of the state that was asked for
  have hform : (temporaryState a p state_string system : Control W Bool) = (do
      system.call (.add p)
      let system_temp := { system with participants := system.participants ++ [p] }
      if getStateFromString state_string = .unreachable then do
        system_temp.call (.setSystemState .unloaded)
        system_temp.call (.change .shutdown)
        writeNotes a [("stateID", ← stateID .unreachable),
          ("stateName", resolveSystemState .unreachable)]
        pure true
      else do
        system_temp.call (.setSystemState (getStateFromString state_string))
        writeNotes a [("stateID", ← stateID (getStateFromString state_string)),
          ("stateName", resolveSystemState (getStateFromString state_string))]
        pure true) := by
    rw [temporaryState, System.add]
    simp only [bind_assoc, pure_bind]
    refine bind_congr fun _ => ?_
    split
    · rename_i h
      rw [h]
    · rfl
  rw [hform]
  refine Confined.andThen (.call hadd) fun _ => ?_
  split
  · exact Confined.andThen (.call (hobject _)) fun _ =>
      Confined.andThen (.call (hobject _)) fun _ => hnotes _
  · exact Confined.andThen (.call (hobject _)) fun _ => hnotes _

/-- `setParticipantState` calls the library on an object of its own too. -/
theorem setParticipantState_looksUp (a s p state_string : String) (last : TokenIterator) :
    LooksUp E (fun system c => OnOne E p system c ∨ OnTemporary s p c) U s a
      (setParticipantState (begin_ [a, s, p, state_string]) last) := by
  rw [setParticipantState_eq]
  refine LooksUp.withParticipant (fun _ _ h => .inl h) fun system part _ =>
    Confined.tryCatch ?_ fun _ => .answer _ _
  refine Confined.bind ?_ fun system_temp htemp => ?_
  · exact Confined.andThen (.fep3 (.inr .new)) fun handle => .pure _
  · obtain ⟨handle, rfl⟩ := newSystem_gives htemp
    exact temporaryState_confined (.inr (.add handle)) (fun call => .inr (.object handle call)) a
      state_string

/-! ## The handlers of properties -/

section

variable {part : ParticipantProxy} (hC : ∀ c, C (.participant part c))

include hC

theorem Confined.visitProperty {σ T : Type} (callback : Callback σ T) (node prop_name : String)
    (user_object : T) (depth : Nat) (store : σ) : Confined E C U
      (visitProperty part callback node prop_name user_object depth store :
        Control W (T × σ)) := by
  unfold FepControl.visitProperty
  split
  · exact Confined.andThen (.fep3 (hC _)) fun props => Confined.andThen (.nonNull props) fun _ =>
      Confined.andThen (.fep3 (hC _)) fun _ => Confined.andThen (.fep3 (hC _)) fun _ => .pure _
  · exact .pure _

omit hC in
theorem Confined.forEach {σ : Type} {visit : String → σ → Control W σ}
    (h : ∀ sub_prop store, Confined E C U (visit sub_prop store)) :
    ∀ (sub_props : List String) (store : σ), Confined E C U (forEach visit sub_props store)
  | [], _ => .pure _
  | sub_prop :: sub_props, store =>
      (h sub_prop store).andThen fun store => Confined.forEach h sub_props store

/-- The walk calls the library on its participant, however deep it goes. -/
theorem Confined.traverseProperties {σ T : Type} (callback : Callback σ T) :
    ∀ (fuel : Nat) (node prop_name : String) (user_object : T) (depth : Nat) (store : σ),
    Confined E C U (traverseProperties part callback fuel node prop_name user_object depth store :
      Control W σ) := by
  intro fuel
  induction fuel with
  | zero => intro _ _ _ _ _; exact .stop _
  | succ fuel ih =>
    intro node prop_name user_object depth store
    rw [FepControl.traverseProperties]
    refine (Confined.visitProperty hC callback node prop_name user_object depth store).andThen
      fun result => ?_
    refine Confined.andThen (.fep3 (hC _)) fun props => Confined.andThen (.nonNull props)
      fun _ => Confined.andThen (.fep3 (hC _)) fun sub_props => ?_
    exact .forEach (fun sub_prop store => ih _ _ _ _ _) sub_props _

theorem Confined.walk {σ T : Type} (callback : Callback σ T) (node prop_name : String)
    (user_object : T) (store : σ) :
    Confined E C U (walk part callback node prop_name user_object store : Control W σ) :=
  Confined.andThen .read fun env => .traverseProperties hC callback env.stackDepth _ _ _ _ _

theorem Confined.formatPropertyJson (node prop_name : String) :
    Confined E C U (formatPropertyJson part node prop_name : Control W Json) := by
  refine (Confined.walk hC jsonProperty node prop_name [] .null).andThen fun root => ?_
  split
  · exact .pure _
  · exact .pure _

theorem Confined.formatProperty (node prop_name : String) :
    Confined E C U (formatProperty part node prop_name : Control W String) :=
  (Confined.walk hC textProperty node prop_name () "").andThen fun _ => .pure _

theorem Confined.writePropertyNames (a p : String) :
    Confined E C U (writePropertyNames a p part : Control W Unit) := by
  refine Confined.andThen .session fun session => ?_
  split
  · exact (Confined.walk hC _ _ _ _ _).andThen fun _ => Eff.Made.basic (.write _)
  · exact (Confined.walk hC _ _ _ _ _).andThen fun _ => Eff.Made.basic (.write _)

theorem Confined.writeProperties (a p : String) :
    Confined E C U (writeProperties a p part : Control W Bool) := by
  refine Confined.andThen .session fun session => ?_
  split
  · exact (Confined.formatPropertyJson hC _ _).andThen fun _ => .answer _ _
  · exact (Confined.formatProperty hC _ _).andThen fun _ => .answer _ _

theorem Confined.writeProperty (hU : ∀ p path, U (useProperty p path)) (a p path : String) :
    Confined E C U (writeProperty a p path part : Control W Bool) := by
  have huse : ∀ r, Confined E C U (do
      write r
      FepControl.update (useProperty p path)
      Pure.pure true : Control W Bool) := fun r =>
    Confined.andThen (Eff.Made.basic (.write r)) fun _ =>
      Confined.andThen (.update (hU p path)) fun _ => .pure true
  refine Confined.andThen .session fun session => ?_
  split
  · exact (Confined.formatPropertyJson hC _ _).andThen fun _ => huse _
  · exact (Confined.formatProperty hC _ _).andThen fun _ => huse _

end

theorem getParticipantPropertyNames_looksUp (a s p : String) (last : TokenIterator) :
    LooksUp E (OnOne E p) U s a (getParticipantPropertyNames (begin_ [a, s, p]) last) := by
  refine LooksUp.withParticipant (fun _ _ h => h) fun system part hpart =>
    Confined.tryCatch ?_ fun _ => .answer _ _
  refine Confined.andThen (.onProxy hpart _) fun conf => ?_
  cases conf with
  | some _ => exact (Confined.writePropertyNames (.proxy hpart) a p).andThen fun _ => .pure true
  | none => exact .pure true

theorem getParticipantProperties_looksUp (a s p : String) (last : TokenIterator) :
    LooksUp E (OnOne E p) U s a (getParticipantProperties (begin_ [a, s, p]) last) := by
  refine LooksUp.withParticipant (fun _ _ h => h) fun system part hpart =>
    Confined.tryCatch ?_ fun _ => .answer _ _
  refine Confined.andThen (.onProxy hpart _) fun conf => ?_
  cases conf with
  | some _ => exact .writeProperties (.proxy hpart) a p
  | none => exact .answer _ _

theorem getParticipantProperty_looksUp (hU : ∀ p path, U (useProperty p path))
    (a s p path : String) (last : TokenIterator) :
    LooksUp E (OnOne E p) U s a (getParticipantProperty (begin_ [a, s, p, path]) last) := by
  refine LooksUp.withParticipant (fun _ _ h => h) fun system part hpart =>
    Confined.tryCatch ?_ fun _ => .answer _ _
  refine Confined.andThen (.onProxy hpart _) fun conf => ?_
  cases conf with
  | some _ => exact .writeProperty (.proxy hpart) hU a p path
  | none => exact .answer _ _

theorem setParticipantProperty_looksUp (hU : ∀ p path, U (useProperty p path))
    (a s p path v : String) (last : TokenIterator) :
    LooksUp E (OnOne E p) U s a (setParticipantProperty (begin_ [a, s, p, path, v]) last) := by
  refine LooksUp.withParticipant (fun _ _ h => h) fun system part hpart =>
    Confined.tryCatch ?_ fun _ => .answer _ _
  refine Confined.andThen (.onProxy hpart _) fun conf => ?_
  cases conf with
  | none => exact .answer _ _
  | some _ =>
    refine Confined.andThen (.onProxy hpart _) fun prop => ?_
    cases prop with
    | none => exact .answer _ _
    | some _ =>
      exact Confined.andThen (.onProxy hpart _) fun _ => Confined.andThen (.callProxy hpart _)
        fun _ => Confined.andThen (.update (hU p path)) fun _ => .answer _ _

/-! ## The handlers of RPC objects -/

theorem getRPCObjectsParticipant_looksUp (a s p : String) (last : TokenIterator) :
    LooksUp E (OnOne E p) U s a (getRPCObjectsParticipant (begin_ [a, s, p]) last) := by
  refine LooksUp.withParticipant (fun _ _ h => h) fun system part hpart =>
    Confined.tryCatch ?_ fun _ => .answer _ _
  refine Confined.andThen (.onProxy hpart _) fun info => ?_
  cases info with
  | some _ => exact Confined.andThen (.onProxy hpart _) fun _ => .answer _ _
  | none => exact .answer _ _

theorem getRPCObjectIIDSParticipant_looksUp (a s p o : String) (last : TokenIterator) :
    LooksUp E (OnOne E p) U s a (getRPCObjectIIDSParticipant (begin_ [a, s, p, o]) last) := by
  refine LooksUp.withParticipant (fun _ _ h => h) fun system part hpart =>
    Confined.tryCatch ?_ fun _ => .answer _ _
  refine Confined.andThen (.onProxy hpart _) fun info => ?_
  cases info with
  | some _ =>
    refine Confined.tryCatch ?_ fun _ => .answer _ _
    exact Confined.andThen (.onProxy hpart _) fun _ => .answer _ _
  | none => exact .answer _ _

theorem getRPCObjectDefinitionParticipant_looksUp (a s p o i : String) (last : TokenIterator) :
    LooksUp E (OnOne E p) U s a
      (getRPCObjectDefinitionParticipant (begin_ [a, s, p, o, i]) last) := by
  refine LooksUp.withParticipant (fun _ _ h => h) fun system part hpart =>
    Confined.tryCatch ?_ fun _ => .answer _ _
  refine Confined.andThen (.onProxy hpart _) fun info => ?_
  cases info with
  | some _ =>
    refine Confined.tryCatch ?_ fun _ => .answer _ _
    exact Confined.andThen (.onProxy hpart _) fun _ => .answer _ _
  | none => exact .answer _ _

theorem Confined.parseJsonString (json_string : String) :
    Confined E C U (parseJsonString json_string : Control W Json) := by
  unfold FepControl.parseJsonString
  split
  · exact .pure _
  · refine Confined.andThen .read fun env => ?_
    split
    · exact .pure _
    · exact .throw _

theorem callRPC_looksUp (a s p service function arguments : String) :
    LooksUp E (OnOne E p) U s a
      (withParticipant a s p (callRPCRest a s p service function arguments)) := by
  refine LooksUp.withParticipant (fun _ _ h => h) fun system part hpart =>
    Confined.tryCatch ?_ fun _ => .answer _ _
  have hrequest : Confined E (OnOne E p system) U
      (buildRPCRequest function arguments : Control W String) :=
    Confined.andThen (.parseJsonString _) fun _ => Confined.andThen .read fun _ => .pure _
  refine hrequest.andThen fun request => Confined.andThen (.onProxy hpart _) fun proxy =>
    Confined.andThen (.nonNull proxy) fun _ =>
      Confined.andThen (.onProxy hpart _) fun response => ?_
  cases response with
  | some response => exact Confined.andThen (.parseJsonString _) fun _ => .answer _ _
  | none => exact .throw _

/-! ## Every handler around a lookup -/

section

variable {f : ActionFunction} {a s p : String} {arguments : List String} {c : Control W Bool}

/-- A handler on its system keeps to its footprint. -/
theorem LooksUp.onObject (h : LooksUp E OnObject (Updates f) s a c)
    (hf : f.onParticipant = false) :
    LooksUp E (Footprint E f s arguments) (Updates f) s a c := by
  refine h.mono (fun system call hcall => ?_) fun _ h => h
  unfold Footprint
  rw [hf]
  exact hcall

/-- A handler on a participant keeps to its footprint. -/
theorem LooksUp.onOne (h : LooksUp E (OnOne E p) (Updates f) s a c)
    (hf : f.onParticipant = true) :
    LooksUp E (Footprint E f s (p :: arguments)) (Updates f) s a c := by
  refine h.mono (fun system call hcall => ?_) fun _ h => h
  unfold Footprint
  rw [hf]
  exact .inl hcall

theorem looksUp_two (hf : f.looksUp = true) (hreads : f.reads = (2, 2)) (a s : String)
    (last : TokenIterator) :
    LooksUp E (Footprint E f s []) (Updates f) s a (f.invoke (begin_ [a, s]) last) := by
  cases f
  case loadSystem => exact (changeState_looksUp a s (.change .load) _ _).onObject rfl
  case unloadSystem => exact (changeState_looksUp a s (.change .unload) _ _).onObject rfl
  case initializeSystem => exact (changeState_looksUp a s (.change .init) _ _).onObject rfl
  case deinitializeSystem => exact (changeState_looksUp a s (.change .deinit) _ _).onObject rfl
  case startSystem => exact (changeState_looksUp a s (.change .start) _ _).onObject rfl
  case stopSystem => exact (changeState_looksUp a s (.change .stop) _ _).onObject rfl
  case pauseSystem => exact (changeState_looksUp a s (.change .pause) _ _).onObject rfl
  case shutdownSystem => exact (shutdownSystem_looksUp a s last).onObject rfl
  case startMonitoringSystem => exact (startMonitoringSystem_looksUp a s last).onObject rfl
  case stopMonitoringSystem => exact (stopMonitoringSystem_looksUp a s last).onObject rfl
  case getSystemState => exact (getSystemState_looksUp a s last).onObject rfl
  case getParticipants => exact (getParticipants_looksUp a s last).onObject rfl
  case configureSystemTimeNoSync =>
    exact (configureSystemTimeNoSync_looksUp (fun _ => Usual.updates _) a s last).onObject rfl
  case getCurrentTimingMaster => exact (getCurrentTimingMaster_looksUp a s last).onObject rfl
  all_goals first | exact absurd hf (by decide) | exact absurd hreads (by decide)

theorem looksUp_three (hf : f.looksUp = true) (hreads : f.reads = (3, 3)) (a s p : String)
    (last : TokenIterator) :
    LooksUp E (Footprint E f s [p]) (Updates f) s a (f.invoke (begin_ [a, s, p]) last) := by
  have hU : ∀ f u, Usual u → Updates f u := fun f _ => Usual.updates f
  cases f
  case getInitPriority => exact (getPriority_looksUp a s p last .init_priority).onOne rfl
  case getStartPriority => exact (getPriority_looksUp a s p last .start_priority).onOne rfl
  case loadParticipant =>
    exact (doParticipantStateChange_looksUp (hU _) a s p (.change .load) _ _).onOne rfl
  case unloadParticipant =>
    exact (doParticipantStateChange_looksUp (hU _) a s p (.change .unload) _ _).onOne rfl
  case initializeParticipant =>
    exact (doParticipantStateChange_looksUp (hU _) a s p (.change .init) _ _).onOne rfl
  case deinitializeParticipant =>
    exact (doParticipantStateChange_looksUp (hU _) a s p (.change .deinit) _ _).onOne rfl
  case startParticipant =>
    exact (doParticipantStateChange_looksUp (hU _) a s p (.change .start) _ _).onOne rfl
  case stopParticipant =>
    exact (doParticipantStateChange_looksUp (hU _) a s p (.change .stop) _ _).onOne rfl
  case pauseParticipant =>
    exact (doParticipantStateChange_looksUp (hU _) a s p (.change .pause) _ _).onOne rfl
  case shutdownParticipant =>
    exact (doParticipantStateChange_looksUp (hU _) a s p (.change .shutdown) _ _).onOne rfl
  case getParticipantPropertyNames =>
    exact (getParticipantPropertyNames_looksUp a s p last).onOne rfl
  case getParticipantProperties => exact (getParticipantProperties_looksUp a s p last).onOne rfl
  case getRPCObjectsParticipant => exact (getRPCObjectsParticipant_looksUp a s p last).onOne rfl
  case getParticipantState => exact (getParticipantState_looksUp a s p last).onOne rfl
  case setSystemState => exact (setSystemState_looksUp a s p last).onObject rfl
  case configureSystemTimingSystemTime =>
    exact (configureSystemTimingSystemTime_looksUp a s p last).onObject rfl
  all_goals first | exact absurd hf (by decide) | exact absurd hreads (by decide)

theorem looksUp_four (hf : f.looksUp = true) (hreads : f.reads = (4, 4)) (a s p x : String)
    (last : TokenIterator) :
    LooksUp E (Footprint E f s [p, x]) (Updates f) s a (f.invoke (begin_ [a, s, p, x]) last) := by
  cases f
  case setInitPriority => exact (setPriority_looksUp a s p x last .init_priority).onOne rfl
  case setStartPriority => exact (setPriority_looksUp a s p x last .start_priority).onOne rfl
  case getParticipantProperty =>
    exact (getParticipantProperty_looksUp (fun p path => .inr ⟨p, path, rfl⟩) a s p x last).onOne
      rfl
  case getRPCObjectIIDSParticipant =>
    exact (getRPCObjectIIDSParticipant_looksUp a s p x last).onOne rfl
  case setParticipantState =>
    refine (setParticipantState_looksUp a s p x last).mono (fun system call hcall => ?_)
      fun _ h => h
    exact hcall.imp id fun h => ⟨rfl, h⟩
  all_goals first | exact absurd hf (by decide) | exact absurd hreads (by decide)

theorem looksUp_five (hf : f.looksUp = true) (hreads : f.reads = (5, 5)) (a s p x y : String)
    (last : TokenIterator) :
    LooksUp E (Footprint E f s [p, x, y]) (Updates f) s a
      (f.invoke (begin_ [a, s, p, x, y]) last) := by
  cases f
  case setParticipantProperty =>
    exact (setParticipantProperty_looksUp (fun p path => .inr ⟨p, path, rfl⟩) a s p x y last).onOne
      rfl
  case getRPCObjectDefinitionParticipant =>
    exact (getRPCObjectDefinitionParticipant_looksUp a s p x y last).onOne rfl
  case configureSystemTimingDiscrete =>
    exact (configureSystemTimingDiscrete_looksUp a s p x y last).onObject rfl
  all_goals first | exact absurd hf (by decide) | exact absurd hreads (by decide)

end

/-- The counts of the handlers that look a system up. -/
theorem reads_of_looksUp : ∀ {f : ActionFunction}, f.looksUp = true →
    f.reads = (2, 2) ∨ f.reads = (3, 3) ∨ f.reads = (4, 4) ∨ f.reads = (5, 5) ∨ f = .callRPC := by
  intro f hf
  cases f <;> first | exact absurd hf (by decide) | decide

/-- **The handlers that look a system up**, on any accepted tokens: the system is the second token,
    and what is done with it is confined to the footprint of the command. -/
theorem looksUp_invoke (E : Env W → Prop) {f : ActionFunction} (hf : f.looksUp = true)
    {tokens : List String} (hmin : f.reads.1 ≤ tokens.length)
    (hmax : tokens.length ≤ f.reads.2) :
    ∃ a s arguments, tokens = a :: s :: arguments ∧ LooksUp E (Footprint E f s arguments)
      (Updates f) s a (f.invoke (begin_ tokens) (end_ tokens)) := by
  rcases reads_of_looksUp hf with h | h | h | h | rfl
  · rw [h] at hmin hmax
    obtain ⟨a, s, rfl⟩ := eq_two (Nat.le_antisymm hmax hmin)
    exact ⟨a, s, [], rfl, looksUp_two hf h a s _⟩
  · rw [h] at hmin hmax
    obtain ⟨a, s, p, rfl⟩ := eq_three (Nat.le_antisymm hmax hmin)
    exact ⟨a, s, [p], rfl, looksUp_three hf h a s p _⟩
  · rw [h] at hmin hmax
    obtain ⟨a, s, p, x, rfl⟩ := eq_four (Nat.le_antisymm hmax hmin)
    exact ⟨a, s, [p, x], rfl, looksUp_four hf h a s p x _⟩
  · rw [h] at hmin hmax
    obtain ⟨a, s, p, x, y, rfl⟩ := eq_five (Nat.le_antisymm hmax hmin)
    exact ⟨a, s, [p, x, y], rfl, looksUp_five hf h a s p x y _⟩
  · obtain ⟨a, s, p, service, iid, function, arguments, rfl, harguments⟩ := eq_rpc hmin hmax
    refine ⟨a, s, p :: service :: iid :: function :: arguments, rfl, ?_⟩
    show LooksUp E _ _ s a (callRPC _ _)
    rw [callRPC_form a s p service iid function harguments]
    exact LooksUp.onOne (callRPC_looksUp a s p service function _) rfl

end FepControl
