/-
  What a command does, whichever it is.

  A client of the tool sees a command line go in, a code come back, and responses.  What it may rely
  on is the same for all commands, and so are the few ways in which it may be disappointed.  This
  file puts the specifications of the handlers together into one, in which the command is a
  parameter: everything that is said about the tool as a whole is derived from it.

  1. **In terms of the state before it and of the library** -- `Throws`, `Crashes` and `Unanswered`
     say of an accepted command whether an exception gets out of its handler, whether the handler
     uses a pointer to nothing, and whether it leaves a lookup, a query or a word unanswered.

  2. **Changes** -- the ways in which a command may change the registry: by the lookup of its
     system, by a discovery, by a shutdown, or by monitoring.

  3. **invoke_wp** -- every handler of the table ends as these say.  The handlers around a lookup
     are one case; the others are one case each.

  4. **The command line** -- what is not dispatched is answered with -2 or -3 and changes nothing
     (`processCommandline_rejected`); what is dispatched returns its flag as 0 or 1
     (`returned_of_ok`), throws (`thrown_of_throws`), or stops (`processCommandline_stops`).

  5. **Iterators** -- no command that the table accepts reads beyond its tokens (`table_in_bounds`).
-/
import FepControl.Dispatch

namespace FepControl

open Lib

variable {W : Type}

/-! ## Before the command -/

/-- An exception of the library gets out of the handler. -/
def Throws (env : Env W) (m : Machine W) : ActionFunction → List String → Prop
  | .quit, _ | .help, _ | .setCurrentWorkingDirectory, _ | .getCurrentWorkingDirectory, _
  | .enableAutoDiscovery, _ | .disableAutoDiscovery, _ | .enableJsonMode, _
  | .disableJsonMode, _ => False
  | .discoverAllSystems, _ => DiscoverAllThrows env m.world
  | .discoverSystem, _ :: s :: _ => DiscoverThrows env m s
  | .startMonitoringSystem, _ :: s :: _ => StartThrows env m s
  | .getParticipants, _ :: s :: _ => ParticipantsThrow env m s
  | _, _ :: s :: _ => LookupThrows env m s
  | _, _ => False

/-- The handler uses a pointer to nothing, or a configuration is deeper than the stack. -/
def Crashes (env : Env W) (m : Machine W) : ActionFunction → List String → Prop
  | .getParticipantPropertyNames, [_, s, p] | .getParticipantProperties, [_, s, p] =>
      ConfigurationStops env m s p "" ""
  | .getParticipantProperty, [_, s, p, path] =>
      ConfigurationStops env m s p (getNodeAndLeafNamefromProperty path).1
        (getNodeAndLeafNamefromProperty path).2
  | .callRPC, _ :: s :: p :: service :: _ :: function :: arguments =>
      RpcStops env m s p service function (arguments.headD "")
  | _, _ => False

/-- The handler returns a flag that no response of its own reports. -/
def Unanswered (env : Env W) (m : Machine W) : ActionFunction → List String → Prop
  | .help, [_, token] => findCommand token = none
  | .getParticipantPropertyNames, [_, s, p] => Unconfigured env m s p
  | .setSystemState, [_, s, state_string] => StateLost env m s state_string
  | _, _ => False

/-- The answer is a JSON value that the compact writer does not see. -/
def Streams (env : Env W) (m : Machine W) : ActionFunction → List String → Prop
  | .callRPC, _ :: s :: p :: service :: _ :: function :: arguments =>
      RpcSucceeds env m s p service function (arguments.headD "")
  | _, _ => False

/-! ## After the command -/

/-- The modes and the log after a command. -/
def Switched (env : Env W) (m m' : Machine W) : ActionFunction → Prop
  | .enableAutoDiscovery => KeepsModes (m.autoDiscovery true) m'
  | .disableAutoDiscovery => KeepsModes (m.autoDiscovery false) m'
  | .enableJsonMode => KeepsModes (m.jsonMode env true) m'
  | .disableJsonMode => KeepsModes (m.jsonMode env false) m'
  | _ => KeepsModes m m'

/-- The command starts with the lookup of a system. -/
def ActionFunction.looksUp : ActionFunction → Bool
  | .quit | .discoverAllSystems | .discoverSystem | .setCurrentWorkingDirectory
  | .getCurrentWorkingDirectory | .help | .enableAutoDiscovery | .disableAutoDiscovery
  | .enableJsonMode | .disableJsonMode => false
  | _ => true

/-- How a command may change the registry. -/
inductive Changes (env : Env W) (m : Machine W) (f : ActionFunction) (tokens : List String) :
    Registry → Prop where
  /-- by the lookup of its system -/
  | looked {s : String} {r : Registry} (hs : tokens[1]? = some s) (hf : f.looksUp = true)
      (h : Looked env s m r) : Changes env m f tokens r
  /-- not at all -/
  | same : Changes env m f tokens m.registry
  /-- by adding systems -/
  | emplaced (hf : f = .discoverAllSystems) {systems pre : List System} {w : W}
      (hreply : env.discoverAllSystems m.world = (.ok systems, w)) (hpre : pre <+: systems) :
      Changes env m f tokens (emplaceAll pre m.registry)
  /-- by assigning a system to the name it reports -/
  | assigned (hf : f = .discoverSystem) {s : String} {system : System} {w : W}
      (hs : tokens[1]? = some s)
      (hreply : env.discoverSystem (discoveredName s) m.world = (.ok system, w)) :
      Changes env m f tokens (m.registry.assign system.name system)
  /-- by erasing the name that its system reports -/
  | erased (hf : f = .shutdownSystem ∨ f = .setSystemState ∧
        ∃ state_string, tokens[2]? = some state_string ∧
          getStateFromString state_string = .unreachable)
      {s : String} {system : System} {r : Registry} (hs : tokens[1]? = some s)
      (hlooked : Looked env s m r) (hfind : r.find? s = some system) :
      Changes env m f tokens (r.erase system.name)
  /-- by unregistering the monitor, with nothing behind it -/
  | unregistered (hf : f = .stopMonitoringSystem ∨
        f = .startMonitoringSystem ∧ Throws env m f tokens)
      {s : String} {system system' : System} {r r' : Registry} (hs : tokens[1]? = some s)
      (hlooked : Looked env s m r) (hfind : r.find? s = some system)
      (h : Unregistered env (s, system) r system' r') : Changes env m f tokens r'
  /-- by registering the monitor -/
  | registered (hf : f = .startMonitoringSystem) {s : String} {system : System}
      {r r' : Registry} (hs : tokens[1]? = some s) (hlooked : Looked env s m r)
      (hfind : r.find? s = some system) (h : Registered env (s, system) r r') :
      Changes env m f tokens r'

/-- One response is written, in the mode that the session is then in: an answer to `action` that
    reports the flag. -/
def Responds (streams : Prop) (action : String) (b : Bool) (m m' : Machine W) : Prop :=
  ∃ r, m'.written = m.written ++ [⟨m'.session.json_mode, r⟩] ∧
    RpcAnswer streams action b m'.session.json_mode r

/-- The flag is not reported: nothing is written, or a failure is and the flag is `true`.  When
    the flag is `false`, the command has not done anything. -/
def Lapses (action : String) (b : Bool) (m m' : Machine W) : Prop :=
  m'.written = m.written ∧ (b = false → m' = m) ∨ b = true ∧ Responds False action false m m'

/-- What holds when the handler has returned. -/
structure Returned (env : Env W) (m : Machine W) (f : ActionFunction) (tokens : List String)
    (action : String) (b : Bool) (m' : Machine W) : Prop where
  returns : ¬ Throws env m f tokens
  modes : Switched env m m' f
  registry : Changes env m f tokens m'.registry
  answer : ¬ Unanswered env m f tokens ∧ Responds (Streams env m f tokens) action b m m' ∨
    Unanswered env m f tokens ∧ Lapses action b m m'

/-- What holds when an exception has got out of the handler; the command may have been answered
    before. -/
structure Thrown (env : Env W) (m : Machine W) (f : ActionFunction) (tokens : List String)
    (action : String) (m' : Machine W) : Prop where
  throws : Throws env m f tokens
  modes : KeepsModes m m'
  registry : Changes env m f tokens m'.registry
  answer : MayAnswer (Spoken action) m m'

/-- What a command ends with. -/
def commandPost (env : Env W) (m : Machine W) (f : ActionFunction) (tokens : List String)
    (action : String) : Eff.Post (Machine W) String Stop Bool where
  ok b m' := Returned env m f tokens action b m'
  throws _ m' := Thrown env m f tokens action m'
  stops d _ := f.stops d

/-! ## From the handlers' own guarantees -/

section

variable {env : Env W} {m m' : Machine W} {f : ActionFunction} {tokens : List String}

/-- An answer is a response to the command. -/
theorem Answers.responds {K : Bool → Response → Prop} {C : Prop} {a : String} {b : Bool}
    (h : Answers K m m') (hmodes : KeepsModes m m') (hK : ∀ r, K m.session.json_mode r →
      RpcAnswer C a b m.session.json_mode r) : Responds C a b m m' := by
  obtain ⟨r, hr, hKr⟩ := h
  refine ⟨r, ?_, ?_⟩
  · rw [hmodes.json_mode]; exact hr
  · rw [hmodes.json_mode]; exact hK r hKr

theorem Answers.plain {a : String} {b : Bool} (h : Answers (Plain a b) m m')
    (hmodes : KeepsModes m m') (C : Prop) : Responds C a b m m' :=
  h.responds hmodes fun _ hr => hr.rpcAnswer C

/-- A command on a system changes the registry by its lookup, and as its handler does with the
    entry. -/
theorem OnEntry.changes {P : Entry → Bool → Registry → Registry → Prop} {s : String} {b : Bool}
    {r' : Registry} (h : OnEntry env m s P b r') (hs : tokens[1]? = some s)
    (hf : f.looksUp = true)
    (hP : ∀ system r, Looked env s m r → r.find? s = some system → P (s, system) b r r' →
      Changes env m f tokens r') : Changes env m f tokens r' := by
  obtain ⟨r, hlooked, h⟩ := h
  cases hfind : r.find? s with
  | none =>
    rw [hfind] at h
    obtain ⟨-, rfl⟩ := h
    exact .looked hs hf hlooked
  | some system =>
    rw [hfind] at h
    exact hP system r hlooked hfind h

theorem OnEntry.changes_stays {s : String} {b : Bool} {r' : Registry}
    (h : OnEntry env m s (fun _ => Stays) b r') (hs : tokens[1]? = some s)
    (hf : f.looksUp = true) : Changes env m f tokens r' :=
  h.changes hs hf fun _ _ hlooked _ heq => heq ▸ .looked hs hf hlooked

/-- A handler that leaves the registry alone and never throws. -/
theorem Guarded.command {action : String} {c : Control W Bool}
    (h : Guarded NoStop Stays (Plain action) c) (hthrows : ¬ Throws env m f tokens)
    (hanswered : ¬ Unanswered env m f tokens)
    (hmodes : ∀ m', KeepsModes m m' → Switched env m m' f) :
    c.wp env (commandPost env m f tokens action) m := by
  refine Eff.wp_mono (h env m) (fun b m' h => ?_) (fun _ _ h => h.elim) (fun _ _ h => h.elim)
  obtain ⟨hkeeps, hanswers⟩ := h
  refine ⟨hthrows, hmodes m' hkeeps.toKeepsModes, ?_,
    .inl ⟨hanswered, hanswers.plain hkeeps.toKeepsModes _⟩⟩
  exact hkeeps.registry ▸ .same

end

/-! ## The handlers, one by one -/

section

variable (env : Env W) (m : Machine W)

/-- The handlers around a lookup. -/
theorem onSystem_command {f : ActionFunction} (hf : f.onSystem = true) {tokens : List String}
    (hmin : f.reads.1 ≤ tokens.length) (hmax : tokens.length ≤ f.reads.2) :
    ∃ a rest, tokens = a :: rest ∧ (f.invoke (begin_ tokens) (end_ tokens)).wp env
      (commandPost env m f tokens a) m := by
  obtain ⟨a, s, rest, rfl, honSystem⟩ := onSystem_invoke hf hmin hmax (end_ tokens)
  refine ⟨a, s :: rest, rfl, ?_⟩
  have hthrows : Throws env m f (a :: s :: rest) = LookupThrows env m s := by
    cases f <;> first | rfl | exact absurd hf (by decide)
  have hanswered : ¬ Unanswered env m f (a :: s :: rest) := by
    cases f <;> first | exact id | exact absurd hf (by decide)
  have hmodes : ∀ m', KeepsModes m m' → Switched env m m' f := by
    intro m' h
    cases f <;> first | exact h | exact absurd hf (by decide)
  have hlooks : f.looksUp = true := by
    cases f <;> first | rfl | exact absurd hf (by decide)
  refine Eff.wp_mono (honSystem.wp (fun _ _ h => h) env m) (fun b m' h => ?_) (fun e m' h => ?_)
    (fun d _ h => ?_)
  · obtain ⟨hkeeps, hentry, hanswers, hreturns⟩ := h
    exact ⟨hthrows ▸ hreturns, hmodes m' hkeeps, hentry.changes_stays rfl hlooks,
      .inl ⟨hanswered, hanswers.plain hkeeps _⟩⟩
  · exact ⟨hthrows ▸ h.2, h.1.toKeepsModes, h.1.registry ▸ .same, .inl h.1.written⟩
  · exact h

/-- The commands that are no handlers around a lookup, one by one: the discoveries, -/
theorem discoverAllSystems_command (a : String) :
    (discoverAllSystems (begin_ [a]) (end_ [a])).wp env
      (commandPost env m .discoverAllSystems [a] a) m := by
  have hchanges : ∀ {returned r}, DiscoveredAll env m returned r →
      Changes env m .discoverAllSystems [a] r := by
    rintro returned r (⟨-, rfl⟩ | ⟨systems, w, pre, hreply, hpre, -, rfl⟩)
    · exact .same
    · exact .emplaced rfl hreply hpre
  refine Eff.wp_mono (discoverAllSystems_wp a _ env m) (fun b m' h => ?_) (fun _ m' h => ?_)
    (fun _ _ h => h.elim)
  · obtain ⟨rfl, hkeeps, hanswers, hreg, hreturns⟩ := h
    exact ⟨hreturns, hkeeps, hchanges hreg, .inl ⟨id, hanswers.plain hkeeps _⟩⟩
  · exact ⟨h.2.2.1, h.1, hchanges h.2.1, h.2.2.2⟩

theorem discoverSystem_command (a s : String) :
    (discoverSystem (begin_ [a, s]) (end_ [a, s])).wp env
      (commandPost env m .discoverSystem [a, s] a) m := by
  refine Eff.wp_mono (discoverSystem_wp a s _ env m) (fun b m' h => ?_) (fun _ m' h => ?_)
    (fun _ _ h => h.elim)
  · obtain ⟨rfl, hkeeps, hanswers, ⟨system, w, hreply, hreg⟩, hreturns⟩ := h
    exact ⟨hreturns, hkeeps, hreg ▸ .assigned rfl rfl hreply,
      .inl ⟨id, hanswers.plain hkeeps _⟩⟩
  · exact ⟨h.2.2.1, h.1, h.2.1 ▸ .same, h.2.2.2⟩

/-- the help, -/
theorem help_command_all (a : String) :
    (help (begin_ [a]) (end_ [a])).wp env (commandPost env m .help [a] a) m := by
  unfold Eff.wp
  rw [help_all]
  exact ⟨id, KeepsModes.wrote _ _, .same, .inl ⟨id, _, rfl,
    (Plain.note a _ _).rpcAnswer _⟩⟩

theorem help_command_one (a token : String) :
    (help (begin_ [a, token]) (end_ [a, token])).wp env
      (commandPost env m .help [a, token] a) m := by
  unfold Eff.wp
  rw [help_command]
  cases hfind : findCommand token with
  | none => exact ⟨id, ⟨rfl, rfl, rfl, rfl⟩, .same, .inr ⟨hfind, .inl ⟨rfl, fun _ => rfl⟩⟩⟩
  | some cmd =>
    refine ⟨id, KeepsModes.wrote _ _, .same, .inl ⟨fun h => ?_, _, rfl,
      (Plain.note a _ _).rpcAnswer _⟩⟩
    exact absurd (hfind.symm.trans h) nofun

/-- the shutdown, -/
theorem shutdownSystem_command (a s : String) :
    (shutdownSystem (begin_ [a, s]) (end_ [a, s])).wp env
      (commandPost env m .shutdownSystem [a, s] a) m := by
  have honSystem : OnSystem NoStop (Plain a) Erases s a
      (shutdownSystem (begin_ [a, s]) (end_ [a, s]) : Control W Bool) :=
    shutdownSystem_onSystem (Plain.approves a) s _
  refine Eff.wp_mono (honSystem.wp (fun _ _ h => h) env m) (fun b m' h => ?_) (fun e m' h => ?_)
    (fun _ _ h => h.elim)
  · obtain ⟨hkeeps, hentry, hanswers, hreturns⟩ := h
    refine ⟨hreturns, hkeeps, hentry.changes rfl rfl fun system r hlooked hfind h => ?_,
      .inl ⟨id, hanswers.plain hkeeps _⟩⟩
    cases b with
    | true => exact (show _ = r.erase system.name from h) ▸ .erased (.inl rfl) rfl hlooked hfind
    | false => exact (show _ = r from h) ▸ .looked rfl rfl hlooked
  · exact ⟨h.2, h.1.toKeepsModes, h.1.registry ▸ .same, .inl h.1.written⟩

/-- the monitoring, -/
theorem startMonitoringSystem_command (a s : String) :
    (startMonitoringSystem (begin_ [a, s]) (end_ [a, s])).wp env
      (commandPost env m .startMonitoringSystem [a, s] a) m := by
  refine Eff.wp_mono (startMonitoringSystem_wp a s _ env m) (fun b m' h => ?_) (fun e m' h => ?_)
    (fun _ _ h => h.elim)
  · obtain ⟨hkeeps, hanswers, hreturns, hentry⟩ := h
    exact ⟨hreturns, hkeeps, hentry.changes rfl rfl fun system r hlooked hfind h =>
      .registered rfl rfl hlooked hfind h.2, .inl ⟨id, hanswers.plain hkeeps _⟩⟩
  · obtain ⟨hkeeps, hthrows, hwritten, r, hlooked, hreg⟩ := h
    have hthrows : Throws env m .startMonitoringSystem [a, s] := hthrows
    refine ⟨hthrows, hkeeps, ?_, .inl hwritten⟩
    rcases hreg with hreg | ⟨system, system', hfind, hunregistered⟩
    · exact hreg ▸ .looked rfl rfl hlooked
    · exact .unregistered (.inr ⟨rfl, hthrows⟩) rfl hlooked hfind hunregistered

theorem stopMonitoringSystem_command (a s : String) :
    (stopMonitoringSystem (begin_ [a, s]) (end_ [a, s])).wp env
      (commandPost env m .stopMonitoringSystem [a, s] a) m := by
  refine Eff.wp_mono (stopMonitoringSystem_wp a s _ env m) (fun b m' h => ?_) (fun e m' h => ?_)
    (fun _ _ h => h.elim)
  · obtain ⟨hkeeps, hanswers, hreturns, hentry⟩ := h
    exact ⟨hreturns, hkeeps, hentry.changes rfl rfl fun system r hlooked hfind ⟨_, _, h⟩ =>
      .unregistered (.inl rfl) rfl hlooked hfind h, .inl ⟨id, hanswers.plain hkeeps _⟩⟩
  · exact ⟨h.2, h.1.toKeepsModes, h.1.registry ▸ .same, .inl h.1.written⟩

/-- and the four that have a path without a proper answer. -/
theorem getParticipantPropertyNames_command (a s p : String) :
    (getParticipantPropertyNames (begin_ [a, s, p]) (end_ [a, s, p])).wp env
      (commandPost env m .getParticipantPropertyNames [a, s, p] a) m := by
  refine Eff.wp_mono (getParticipantPropertyNames_wp a s p _ env m) (fun b m' h => ?_)
    (fun e m' h => ?_) (fun _ _ h => h)
  · obtain ⟨hkeeps, hreturns, hentry, hanswer⟩ := h
    refine ⟨hreturns, hkeeps, hentry.changes_stays rfl rfl, ?_⟩
    rcases hanswer with ⟨hunconfigured, hb, hwritten⟩ | ⟨hconfigured, hanswers⟩
    · exact .inr ⟨hunconfigured, .inl ⟨hwritten, fun hb' => absurd (hb.symm.trans hb') nofun⟩⟩
    · exact .inl ⟨hconfigured, hanswers.plain hkeeps _⟩
  · exact ⟨h.2, h.1.toKeepsModes, h.1.registry ▸ .same, .inl h.1.written⟩

theorem setSystemState_command (a s state_string : String) :
    (setSystemState (begin_ [a, s, state_string]) (end_ [a, s, state_string])).wp env
      (commandPost env m .setSystemState [a, s, state_string] a) m := by
  refine Eff.wp_mono (setSystemState_wp a s state_string _ env m) (fun b m' h => ?_)
    (fun e m' h => ?_) (fun _ _ h => h.elim)
  · obtain ⟨hkeeps, hreturns, hentry, hanswer⟩ := h
    refine ⟨hreturns, hkeeps, hentry.changes rfl rfl fun system r hlooked hfind h => ?_, ?_⟩
    · rcases h with h | ⟨hstate, h⟩
      · exact h ▸ .looked rfl rfl hlooked
      · exact h ▸ .erased (.inr ⟨rfl, _, rfl, hstate⟩) rfl hlooked hfind
    · rcases hanswer with ⟨hlost, hb, hanswers⟩ | ⟨hlost, hanswers⟩
      · exact .inr ⟨hlost, .inr ⟨hb, hanswers.plain hkeeps _⟩⟩
      · exact .inl ⟨hlost, hanswers.plain hkeeps _⟩
  · exact ⟨h.2, h.1.toKeepsModes, h.1.registry ▸ .same, .inl h.1.written⟩

theorem getParticipants_command (a s : String) :
    (getParticipants (begin_ [a, s]) (end_ [a, s])).wp env
      (commandPost env m .getParticipants [a, s] a) m := by
  refine Eff.wp_mono (getParticipants_wp a s _ env m) (fun b m' h => ?_) (fun e m' h => ?_)
    (fun _ _ h => h.elim)
  · obtain ⟨hkeeps, hreturns, hentry, hanswers⟩ := h
    exact ⟨hreturns, hkeeps, hentry.changes_stays rfl rfl, .inl ⟨id, hanswers.plain hkeeps _⟩⟩
  · exact ⟨h.2.1, h.1, .looked rfl rfl h.2.2.1, .inl h.2.2.2⟩

/-- `callRPC` with its optional argument or without. -/
theorem callRPC_form (a s p service iid function : String) {arguments : List String}
    (h : arguments.length ≤ 1) :
    (callRPC (begin_ (a :: s :: p :: service :: iid :: function :: arguments))
      (end_ (a :: s :: p :: service :: iid :: function :: arguments)) : Control W Bool) =
        withParticipant a s p (callRPCRest a s p service function (arguments.headD "")) := by
  cases arguments with
  | nil => exact callRPC_eq a s p service iid function
  | cons argument rest =>
    obtain rfl := List.eq_nil_of_length_eq_zero (by simpa using h)
    exact callRPC_eq_argument a s p service iid function argument

theorem callRPC_command (a s p service iid function : String) {arguments : List String}
    (h : arguments.length ≤ 1) :
    (callRPC (begin_ (a :: s :: p :: service :: iid :: function :: arguments))
        (end_ (a :: s :: p :: service :: iid :: function :: arguments))).wp env
      (commandPost env m .callRPC (a :: s :: p :: service :: iid :: function :: arguments) a)
      m := by
  rw [callRPC_form a s p service iid function h]
  refine Eff.wp_mono (callRPC_wp a s p service function _ env m) (fun b m' h => ?_)
    (fun e m' h => ?_) (fun _ _ h => h)
  · obtain ⟨hkeeps, hreturns, hentry, hanswers⟩ := h
    exact ⟨hreturns, hkeeps, hentry.changes_stays rfl rfl,
      .inl ⟨id, hanswers.responds hkeeps fun _ hr => hr⟩⟩
  · exact ⟨h.2, h.1.toKeepsModes, h.1.registry ▸ .same, .inl h.1.written⟩

/-- A switch of a mode answers in the mode that the session is then in. -/
theorem switch_command {f : ActionFunction} {a text : String} {m' : Machine W}
    {c : Control W Bool} (hc : c env m = (.ok true, m'.wrote (.note a text)))
    (hreturns : ¬ Throws env m f [a]) (hanswered : ¬ Unanswered env m f [a])
    (hmodes : Switched env m (m'.wrote (.note a text)) f) (hwritten : m'.written = m.written)
    (hreg : m'.registry = m.registry) : c.wp env (commandPost env m f [a] a) m := by
  unfold Eff.wp
  rw [hc]
  refine ⟨hreturns, hmodes, (show (m'.wrote (.note a text)).registry = _ from hreg) ▸ .same,
    .inl ⟨hanswered, .note a text, ?_, (Plain.note a text _).rpcAnswer _⟩⟩
  show m'.written ++ _ = _
  rw [hwritten]; rfl

end

/-! ## Every command -/

/-- **What a command does**: a handler of the table, other than `quit`, on tokens that the table
    accepts. -/
theorem invoke_wp {f : ActionFunction} (hquit : f ≠ .quit) {tokens : List String}
    (hmin : f.reads.1 ≤ tokens.length) (hmax : tokens.length ≤ f.reads.2) (env : Env W)
    (m : Machine W) : ∃ a rest, tokens = a :: rest ∧
      (f.invoke (begin_ tokens) (end_ tokens)).wp env (commandPost env m f tokens a) m := by
  cases hf : f.onSystem with
  | true => exact onSystem_command env m hf hmin hmax
  | false =>
    cases f
    case discoverAllSystems =>
      obtain ⟨a, rfl⟩ := eq_one (Nat.le_antisymm hmax hmin)
      exact ⟨a, [], rfl, discoverAllSystems_command env m a⟩
    case discoverSystem =>
      obtain ⟨a, s, rfl⟩ := eq_two (Nat.le_antisymm hmax hmin)
      exact ⟨a, [s], rfl, discoverSystem_command env m a s⟩
    case setCurrentWorkingDirectory =>
      obtain ⟨a, d, rfl⟩ := eq_two (Nat.le_antisymm hmax hmin)
      exact ⟨a, [d], rfl, (setCurrentWorkingDirectory_guarded a d (end_ [a, d])).command id id
        fun _ h => h⟩
    case getCurrentWorkingDirectory =>
      obtain ⟨a, rfl⟩ := eq_one (Nat.le_antisymm hmax hmin)
      exact ⟨a, [], rfl, (getCurrentWorkingDirectory_guarded a (end_ [a])).command id id
        fun _ h => h⟩
    case help =>
      rcases Nat.lt_or_ge tokens.length 2 with hlt | hge
      · obtain ⟨a, rfl⟩ := eq_one (Nat.le_antisymm (Nat.le_of_lt_succ hlt) hmin)
        exact ⟨a, [], rfl, help_command_all env m a⟩
      · obtain ⟨a, token, rfl⟩ := eq_two (Nat.le_antisymm hmax hge)
        exact ⟨a, [token], rfl, help_command_one env m a token⟩
    case shutdownSystem =>
      obtain ⟨a, s, rfl⟩ := eq_two (Nat.le_antisymm hmax hmin)
      exact ⟨a, [s], rfl, shutdownSystem_command env m a s⟩
    case startMonitoringSystem =>
      obtain ⟨a, s, rfl⟩ := eq_two (Nat.le_antisymm hmax hmin)
      exact ⟨a, [s], rfl, startMonitoringSystem_command env m a s⟩
    case stopMonitoringSystem =>
      obtain ⟨a, s, rfl⟩ := eq_two (Nat.le_antisymm hmax hmin)
      exact ⟨a, [s], rfl, stopMonitoringSystem_command env m a s⟩
    case getParticipantPropertyNames =>
      obtain ⟨a, s, p, rfl⟩ := eq_three (Nat.le_antisymm hmax hmin)
      exact ⟨a, [s, p], rfl, getParticipantPropertyNames_command env m a s p⟩
    case setSystemState =>
      obtain ⟨a, s, state_string, rfl⟩ := eq_three (Nat.le_antisymm hmax hmin)
      exact ⟨a, [s, state_string], rfl, setSystemState_command env m a s state_string⟩
    case getParticipants =>
      obtain ⟨a, s, rfl⟩ := eq_two (Nat.le_antisymm hmax hmin)
      exact ⟨a, [s], rfl, getParticipants_command env m a s⟩
    case callRPC =>
      obtain ⟨a, s, p, service, iid, function, arguments, rfl, harguments⟩ := eq_rpc hmin hmax
      exact ⟨a, _, rfl, callRPC_command env m a s p service iid function harguments⟩
    case enableAutoDiscovery =>
      obtain ⟨a, rfl⟩ := eq_one (Nat.le_antisymm hmax hmin)
      exact ⟨a, [], rfl, switch_command env m (enableAutoDiscovery_eq a (end_ [a]) env m) id id
        (KeepsModes.wrote _ _) rfl rfl⟩
    case disableAutoDiscovery =>
      obtain ⟨a, rfl⟩ := eq_one (Nat.le_antisymm hmax hmin)
      exact ⟨a, [], rfl, switch_command env m (disableAutoDiscovery_eq a (end_ [a]) env m) id id
        (KeepsModes.wrote _ _) rfl rfl⟩
    case enableJsonMode =>
      obtain ⟨a, rfl⟩ := eq_one (Nat.le_antisymm hmax hmin)
      exact ⟨a, [], rfl, switch_command env m (enableJsonMode_eq a (end_ [a]) env m) id id
        (KeepsModes.wrote _ _) rfl rfl⟩
    case disableJsonMode =>
      obtain ⟨a, rfl⟩ := eq_one (Nat.le_antisymm hmax hmin)
      exact ⟨a, [], rfl, switch_command env m (disableJsonMode_eq a (end_ [a]) env m) id id
        (KeepsModes.wrote _ _) rfl rfl⟩
    case quit => exact absurd rfl hquit
    -- the others are on a system
    all_goals exact absurd hf (by decide)

/-- **When a command crashes**. -/
theorem invoke_stops {f : ActionFunction} (hquit : f ≠ .quit) {tokens : List String}
    (hmin : f.reads.1 ≤ tokens.length) (hmax : tokens.length ≤ f.reads.2) (env : Env W)
    (m : Machine W) :
    Eff.Stops (f.invoke (begin_ tokens) (end_ tokens)) env m ↔ Crashes env m f tokens := by
  obtain ⟨a, rest, htokens, hpost⟩ := invoke_wp hquit hmin hmax env m
  cases f
  case getParticipantPropertyNames =>
    obtain ⟨a, s, p, rfl⟩ := eq_three (Nat.le_antisymm hmax hmin)
    exact getParticipantPropertyNames_stops a s p (end_ [a, s, p]) env m
  case getParticipantProperties =>
    obtain ⟨a, s, p, rfl⟩ := eq_three (Nat.le_antisymm hmax hmin)
    exact getParticipantProperties_stops a s p (end_ [a, s, p]) env m
  case getParticipantProperty =>
    obtain ⟨a, s, p, path, rfl⟩ := eq_four (Nat.le_antisymm hmax hmin)
    exact getParticipantProperty_stops a s p path (end_ [a, s, p, path]) env m
  case callRPC =>
    obtain ⟨a, s, p, service, iid, function, arguments, rfl, harguments⟩ := eq_rpc hmin hmax
    show Eff.Stops (callRPC _ _) env m ↔ _
    rw [callRPC_form a s p service iid function harguments]
    exact callRPC_stops a s p service function _ env m
  -- no other handler stops, and `Crashes` says so
  all_goals exact iff_of_false (Eff.not_stops_of_wp hpost fun _ _ h => h) (by rintro ⟨⟩)

/-! ## The command line -/

/-- The entry that a command line is dispatched to. -/
def dispatched (command_line : List String) : Option ControlCommand :=
  match command_line with
  | [] => none
  | front :: _ =>
      match findCommand front with
      | none => none
      | some cmd => if cmd.accepts command_line.length then some cmd else none

/-- A command line that is dispatched names an entry first, and has as many tokens as it accepts. -/
theorem exists_of_dispatched {tokens : List String} {cmd : ControlCommand}
    (h : dispatched tokens = some cmd) : ∃ front rest, tokens = front :: rest ∧
      findCommand front = some cmd ∧ cmd.accepts tokens.length = true := by
  cases tokens with
  | nil => exact absurd h nofun
  | cons front rest =>
    unfold dispatched at h
    cases hfind : findCommand front with
    | none => simp [hfind] at h
    | some cmd' =>
      cases haccepts : cmd'.accepts (front :: rest).length with
      | false => simp only [hfind, haccepts] at h; exact absurd h nofun
      | true =>
        simp only [hfind, haccepts, if_true, Option.some.injEq] at h
        subst h
        exact ⟨front, rest, rfl, hfind, haccepts⟩

/-- A command line that is dispatched is an accepted call of the entry named by its first token. -/
theorem dispatched_some {tokens : List String} {cmd : ControlCommand}
    (h : dispatched tokens = some cmd) :
    cmd ∈ getControlCommands ∧ (∃ rest, tokens = cmd.name :: rest) ∧
      cmd.accepts tokens.length = true ∧ cmd.action.reads.1 ≤ tokens.length ∧
      tokens.length ≤ cmd.action.reads.2 := by
  obtain ⟨front, rest, rfl, hfind, haccepts⟩ := exists_of_dispatched h
  have hmem := List.mem_of_find?_eq_some hfind
  have hname : cmd.name = front := by simpa using List.find?_some hfind
  have hreads := accepts_reads hmem haccepts
  exact ⟨hmem, ⟨rest, by rw [hname]⟩, haccepts, hreads.1, hreads.2⟩

/-- A dispatched command line is the call of its handler. -/
theorem processCommandline_dispatched {tokens : List String} {cmd : ControlCommand}
    (h : dispatched tokens = some cmd) :
    (processCommandline tokens : Control W Int) = (do
      let success ← cmd.action.invoke (begin_ tokens) (end_ tokens)
      pure (if success then 0 else 1)) := by
  obtain ⟨front, rest, rfl, hfind, haccepts⟩ := exists_of_dispatched h
  unfold processCommandline
  simp only [hfind, haccepts, if_true]

/-- A command line that is not dispatched is an error message, with one of two codes. -/
theorem processCommandline_not_dispatched {tokens : List String} (h : dispatched tokens = none)
    (hne : tokens ≠ []) : ∃ code text, (code = -2 ∨ code = -3) ∧
      (processCommandline tokens : Control W Int) = (do
        writeError "processCommandline" text .input_error
        pure code) := by
  cases tokens with
  | nil => exact absurd rfl hne
  | cons front rest =>
    unfold dispatched at h
    unfold processCommandline
    cases hfind : findCommand front with
    | none =>
      simp only [hfind]
      exact ⟨-2, _, .inl rfl, rfl⟩
    | some cmd =>
      cases haccepts : cmd.accepts (front :: rest).length with
      | false =>
        simp only [hfind, haccepts]
        exact ⟨-3, _, .inr rfl, rfl⟩
      | true =>
        simp only [hfind, haccepts, if_true] at h
        exact absurd h nofun

/-- A command line that is not dispatched is reported, with one of two codes. -/
theorem processCommandline_rejected {tokens : List String} (h : dispatched tokens = none)
    (hne : tokens ≠ []) (env : Env W) (m : Machine W) :
    ∃ code text, (code = -2 ∨ code = -3) ∧ processCommandline tokens env m =
      (.ok code, m.wrote (.error "processCommandline" text .input_error "")) := by
  obtain ⟨code, text, hcode, heq⟩ := processCommandline_not_dispatched (W := W) h hne
  refine ⟨code, text, hcode, ?_⟩
  rw [heq]
  rfl

/-- `quit` neither returns nor throws. -/
theorem processCommandline_quit {tokens : List String} {cmd : ControlCommand}
    (h : dispatched tokens = some cmd) (hquit : cmd.action = .quit) (env : Env W) (m : Machine W) :
    ∃ a m', tokens = [a] ∧ processCommandline tokens env m = (.stops (.exit 0), m') ∧
      m'.written = m.written ++ [⟨m.session.json_mode, .note a "bye bye"⟩] := by
  obtain ⟨-, -, -, hmin, hmax⟩ := dispatched_some h
  rw [hquit] at hmin hmax
  obtain ⟨a, rfl⟩ := eq_one (Nat.le_antisymm hmax hmin)
  rw [processCommandline_dispatched h, hquit]
  exact ⟨a, _, rfl, rfl, rfl⟩

section

variable {env : Env W} {m m' : Machine W} {tokens : List String} {cmd : ControlCommand}

/-- A dispatched command line that returns is a handler that returns. -/
theorem invoke_of_ok (h : dispatched tokens = some cmd) {code : Int}
    (hret : processCommandline tokens env m = (.ok code, m')) :
    ∃ b, cmd.action.invoke (begin_ tokens) (end_ tokens) env m = (.ok b, m') ∧
      code = (if b then 0 else 1) := by
  rw [processCommandline_dispatched h, Eff.bind_apply] at hret
  rcases hinvoke : cmd.action.invoke (begin_ tokens) (end_ tokens) env m with ⟨b | e | d, m₁⟩
  · rw [hinvoke] at hret
    obtain ⟨rfl, rfl⟩ : (if b then 0 else 1 : Int) = code ∧ m₁ = m' := by
      simpa [Eff.andThen] using hret
    exact ⟨b, rfl, rfl⟩
  · rw [hinvoke] at hret; exact absurd hret nofun
  · rw [hinvoke] at hret; exact absurd hret nofun

/-- A dispatched command line that returns. -/
theorem returned_of_ok (h : dispatched tokens = some cmd) {code : Int}
    (hret : processCommandline tokens env m = (.ok code, m')) :
    ∃ rest b, tokens = cmd.name :: rest ∧ code = (if b then 0 else 1) ∧
      Returned env m cmd.action tokens cmd.name b m' := by
  obtain ⟨-, ⟨rest, hname⟩, -, hmin, hmax⟩ := dispatched_some h
  by_cases hquit : cmd.action = .quit
  · obtain ⟨_, _, _, hstops, _⟩ := processCommandline_quit h hquit env m
    exact absurd (hret.symm.trans hstops) nofun
  · obtain ⟨a, rest', hcons, hpost⟩ := invoke_wp hquit hmin hmax env m
    obtain rfl : a = cmd.name := (List.cons.inj (hcons.symm.trans hname)).1
    obtain ⟨b, hinvoke, hcode⟩ := invoke_of_ok h hret
    exact ⟨rest, b, hname, hcode, Eff.wp_ok hpost hinvoke⟩

/-- A command line that lets an exception through is dispatched. -/
theorem thrown_of_throws {e : String}
    (hthrows : processCommandline tokens env m = (.throws e, m')) :
    ∃ cmd, dispatched tokens = some cmd ∧ Thrown env m cmd.action tokens cmd.name m' := by
  cases hd : dispatched tokens with
  | none =>
    by_cases hne : tokens = []
    · subst hne; exact absurd hthrows nofun
    · obtain ⟨_, _, _, hrejected⟩ := processCommandline_rejected hd hne env m
      exact absurd (hthrows.symm.trans hrejected) nofun
  | some cmd =>
    obtain ⟨-, ⟨rest, hname⟩, -, hmin, hmax⟩ := dispatched_some hd
    refine ⟨cmd, rfl, ?_⟩
    by_cases hquit : cmd.action = .quit
    · obtain ⟨_, _, _, hstops, _⟩ := processCommandline_quit hd hquit env m
      exact absurd (hthrows.symm.trans hstops) nofun
    · obtain ⟨a, rest', hcons, hpost⟩ := invoke_wp hquit hmin hmax env m
      obtain rfl : a = cmd.name := (List.cons.inj (hcons.symm.trans hname)).1
      rw [processCommandline_dispatched hd, Eff.bind_apply] at hthrows
      unfold Eff.wp at hpost
      rcases hinvoke : cmd.action.invoke (begin_ tokens) (end_ tokens) env m with ⟨b | e | d, m₁⟩
      · rw [hinvoke] at hthrows; exact absurd hthrows nofun
      · rw [hinvoke] at hthrows hpost
        obtain ⟨-, rfl⟩ : _ ∧ m₁ = m' := by simpa [Eff.andThen] using hthrows
        exact hpost
      · rw [hinvoke] at hthrows; exact absurd hthrows nofun

/-- A dispatched command line, other than `quit`, stops where its command crashes. -/
theorem processCommandline_stops (h : dispatched tokens = some cmd) (hquit : cmd.action ≠ .quit) :
    Eff.Stops (processCommandline tokens) env m ↔ Crashes env m cmd.action tokens := by
  obtain ⟨-, -, -, hmin, hmax⟩ := dispatched_some h
  rw [processCommandline_dispatched h, Eff.stops_bind_left fun _ _ => id]
  exact invoke_stops hquit hmin hmax env m

/-- A command line that exits is `quit`. -/
theorem quit_of_exits (hne : tokens ≠ []) {code : Int}
    (hexits : processCommandline tokens env m = (.stops (.exit code), m')) :
    ∃ cmd, dispatched tokens = some cmd ∧ cmd.action = .quit := by
  cases hd : dispatched tokens with
  | none =>
    obtain ⟨_, _, _, hrejected⟩ := processCommandline_rejected hd hne env m
    exact absurd (hexits.symm.trans hrejected) nofun
  | some cmd =>
    refine ⟨cmd, rfl, ?_⟩
    by_cases hquit : cmd.action = .quit
    · exact hquit
    · obtain ⟨-, -, -, hmin, hmax⟩ := dispatched_some hd
      obtain ⟨a, rest, -, hpost⟩ := invoke_wp hquit hmin hmax env m
      rw [processCommandline_dispatched hd, Eff.bind_apply] at hexits
      rcases hinvoke : cmd.action.invoke (begin_ tokens) (end_ tokens) env m with ⟨b | e | d, m₁⟩
      · rw [hinvoke] at hexits; exact absurd hexits nofun
      · rw [hinvoke] at hexits; exact absurd hexits nofun
      · rw [hinvoke] at hexits
        obtain rfl : d = .exit code := Outcome.stops.inj (Prod.mk.inj hexits).1
        have hstops : cmd.action.stops (.exit code) := Eff.wp_stops hpost hinvoke
        cases haction : cmd.action <;> rw [haction] at hstops <;> exact hstops.elim

end

/-! ## Iterators -/

/-- **The table covers what the handlers read**: on tokens that an entry accepts, no iterator of its
    handler is read at the end or stepped out of the tokens, and the count of the optional arguments
    is taken off without wrapping. -/
theorem table_in_bounds (cmd : ControlCommand) (hmem : cmd ∈ getControlCommands)
    (tokens : List String) (haccepts : cmd.accepts tokens.length = true) (env : Env W)
    (m m' : Machine W) :
    sizeSub (cmd.arguments.length + 1) cmd.last_optional_parameters +
        cmd.last_optional_parameters = cmd.arguments.length + 1 ∧
      cmd.action.invoke (begin_ tokens) (end_ tokens) env m ≠
        (.stops .iteratorOutOfRange, m') := by
  obtain ⟨hoptional, hsize, -⟩ := table_reads cmd hmem
  obtain ⟨hmin, hmax⟩ := accepts_reads hmem haccepts
  constructor
  · rw [sizeSub_of_le hsize (by omega)]
    omega
  · intro hstops
    by_cases hquit : cmd.action = .quit
    · rw [hquit] at hmin hmax hstops
      obtain ⟨a, rfl⟩ := eq_one (Nat.le_antisymm hmax hmin)
      exact absurd (hstops.symm.trans (quit_eq a (end_ [a]) env m)) nofun
    · obtain ⟨a, rest, -, hpost⟩ := invoke_wp hquit hmin hmax env m
      have hbenign : cmd.action.stops .iteratorOutOfRange := Eff.wp_stops hpost hstops
      cases haction : cmd.action <;> rw [haction] at hbenign <;> exact hbenign

/-- `help` with its optional argument. -/
theorem table_in_bounds_help :
    sizeSub 2 1 + 1 = 2 ∧ ActionFunction.help.invoke (begin_ ["help", "exit"])
        (end_ ["help", "exit"]) Env.offline (Machine.new false "" ()) ≠
      (.stops .iteratorOutOfRange, Machine.new false "" ()) :=
  table_in_bounds ⟨"help", "prints out the description of the commands", .help,
    [⟨"command name", .commandNameCompletion⟩], 1, false⟩ (by decide) ["help", "exit"]
    (by decide) Env.offline (Machine.new false "" ()) (Machine.new false "" ())

end FepControl
