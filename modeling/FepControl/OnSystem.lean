/-
  What a lookup can do, and the handlers around a lookup.

  A lookup that does not find its name and discovers the system has six places at which it can fail:
  the discovery, the name of what was found, the object that the registry makes for a new key, and
  the three kinds of calls of the listing.  None of them is in a `try` block.  What has become of
  the registry by then depends on how far it came.  So this is spelled out once, and every handler
  that looks a system up is judged by what it does with the one that is found.

  1. **Looked, Finds, LookupThrows** -- what a lookup of a name does to the registry, the system it
     finds, and when it lets an exception through, each as a relation between the state before it
     and the answers of the library.  The calls on the way are a list (`keying`), so that whether
     one of them throws is a question about that list (`keySystem_wp`, `discoverSystemByName_wp`,
     `lookup_wp`).

  2. **OnSystem** -- a handler that looks a system up and is guarded from there on.  Most of the
     handlers of the table are of this form, and `OnSystem.wp` says what they do.

  3. **Participants** -- the same for the handlers that look for a participant of the system, which
     the library may not have (`withParticipant_wp`).

  4. **Reaches** -- a participant that is always there, as the theorems about a single participant
     assume it.
-/
import FepControl.Contract

namespace FepControl

open Lib

variable {W : Type} {D : Stop → Prop}

/-! ## An object under its name -/

/-- `_connected_or_discovered_systems[system.getSystemName()] = std::move(system);` -/
def keySystem (system : System) : Control W Unit := do
  let key ← system.getSystemName
  assignSystem key system

/-- Under a key that is there the object is replaced. -/
theorem assignSystem_known {key : String} {system entry : System} {m : Machine W} (env : Env W)
    (hfind : m.registry.find? key = some entry) :
    assignSystem key system env m = storeSystem key system env m := by
  have hsession : session env m = (.ok m.session, m) := rfl
  rw [assignSystem, Eff.bind_of_ok hsession]
  simp only [hfind]

/-- For a new key `operator[]` makes an object first. -/
theorem assignSystem_new {key : String} {system : System} {m : Machine W} (env : Env W)
    (hfind : m.registry.find? key = none) :
    assignSystem key system env m =
      (fep3 .defaultSystem >>= fun _ => storeSystem key system : Control W Unit) env m := by
  have hsession : session env m = (.ok m.session, m) := rfl
  rw [assignSystem, Eff.bind_of_ok hsession]
  simp only [hfind]

/-- The library calls of `keySystem`: the name is asked for, and a name that is no key yet takes an
    object for `operator[]` to put there. -/
def keying (r : Registry) (system : System) : List Call :=
  .system system .getSystemName ::
    if (r.find? system.name).isSome then [] else [.defaultSystem]

/-- An object is stored under its name behind the calls that this takes. -/
theorem keySystem_eq (system : System) (env : Env W) (m : Machine W) :
    keySystem system env m = (do
      callAll (keying m.registry system)
      storeSystem system.name system : Control W Unit) env m := by
  rw [keySystem, System.getSystemName, keying, callAll, bind_assoc, bind_assoc]
  rcases hname : env.fep3 (.system system .getSystemName) m.world with ⟨e | reply, w⟩
  · rw [Eff.bind_of_throws (fep3_throws hname), Eff.bind_of_throws (fep3_throws hname)]
  rw [Eff.bind_of_ok (fep3_ok hname), Eff.bind_of_ok (fep3_ok hname), pure_bind]
  cases hfind : m.registry.find? system.name with
  | some entry => exact assignSystem_known env hfind
  | none =>
    show _ = (callAll [.defaultSystem] >>= fun _ => storeSystem system.name system : Control W Unit)
      env _
    rw [callAll, bind_assoc]
    exact assignSystem_new env hfind

/-- The object is under its name, or one of the calls has thrown and nothing is changed. -/
theorem keySystem_wp (system : System) (env : Env W) (m : Machine W) :
    (keySystem system).wp env ⟨fun _ m' => KeepsModes m m' ∧ m'.written = m.written ∧
        env.run m.world (keying m.registry system) = some m'.world ∧
        m'.registry = m.registry.assign system.name system,
      fun _ m' => Silent m m' ∧ env.AnyThrows m.world (keying m.registry system),
      fun _ _ => False⟩ m := by
  unfold Eff.wp
  rw [keySystem_eq]
  show (callAll (keying m.registry system) >>= _ : Control W Unit).wp env _ m
  rw [Eff.wp_bind]
  refine Eff.wp_mono (callAll_wp env _ m) (fun _ m' h => ?_) (fun _ _ h => h) (fun _ _ h => h)
  obtain ⟨hsilent, hrun⟩ := h
  refine ⟨⟨hsilent.json_mode, hsilent.monitor_json_mode, hsilent.auto_discovery, hsilent.logged⟩,
    hsilent.written, hrun, ?_⟩
  show m'.registry.assign _ _ = _
  rw [← hsilent.registry]

/-! ## The lookup -/

/-- The registry after a lookup of `name`: the same, or, with auto-discovery and if the name was no
    key, with the discovered system under the name IT reports. -/
inductive Looked (env : Env W) (name : String) (m : Machine W) : Registry → Prop where
  | same : Looked env name m m.registry
  | discovered {system : System} {w : W} (hauto : m.session.auto_discovery_of_systems = true)
      (hmissing : m.registry.find? name = none)
      (hreply : env.discoverSystem (discoveredName name) m.world = (.ok system, w)) :
      Looked env name m (m.registry.assign system.name system)

/-- The system that a command on `name` works on, and the world once the command has it: the
    entry of the name, or the discovered system, provided that it reports this very name. -/
inductive Finds (env : Env W) (m : Machine W) (name : String) : System → W → Prop where
  | registered {system : System} (h : m.registry.find? name = some system) :
      Finds env m name system m.world
  | discovered {system : System} {w w' : W} (hauto : m.session.auto_discovery_of_systems = true)
      (hmissing : m.registry.find? name = none)
      (hreply : env.discoverSystem (discoveredName name) m.world = (.ok system, w))
      (hrun : env.run w (keying m.registry system) = some w') (hname : system.name = name) :
      Finds env m name system w'

/-- A library call of the lookup of `name` throws: auto-discovery is on, the name is no key, and
    its discovery fails. -/
def LookupThrows (env : Env W) (m : Machine W) (name : String) : Prop :=
  m.session.auto_discovery_of_systems = true ∧ m.registry.find? name = none ∧
    match env.discoverSystem (discoveredName name) m.world with
    | (.ok system, w) => env.AnyThrows w (keying m.registry system)
    | (.error _, _) => True

/-- A lookup finds one system, in one world. -/
theorem Finds.unique {env : Env W} {m : Machine W} {name : String} {system system' : System}
    {w w' : W} (h : Finds env m name system w) (h' : Finds env m name system' w') :
    system' = system ∧ w' = w := by
  cases h with
  | registered h =>
    cases h' with
    | registered h' =>
      rw [h] at h'
      exact ⟨(Option.some.inj h').symm, rfl⟩
    | discovered _ hmissing => rw [h] at hmissing; exact absurd hmissing nofun
  | discovered _ hmissing hreply hrun =>
    cases h' with
    | registered h' => rw [hmissing] at h'; exact absurd h' nofun
    | discovered _ _ hreply' hrun' =>
      rw [hreply] at hreply'
      obtain ⟨hok, rfl⟩ := Prod.mk.inj hreply'
      obtain rfl := Except.ok.inj hok
      rw [hrun] at hrun'
      exact ⟨rfl, (Option.some.inj hrun').symm⟩

/-- What finds a system does not throw. -/
theorem Finds.not_throws {env : Env W} {m : Machine W} {name : String} {system : System} {w : W}
    (h : Finds env m name system w) : ¬ LookupThrows env m name := by
  rintro ⟨_, hmissing, hthrows⟩
  cases h with
  | registered h => exact absurd (h.symm.trans hmissing) nofun
  | discovered _ _ hreply hrun =>
    rw [hreply] at hthrows
    exact absurd (hrun.symm.trans hthrows) nofun

/-- The discovery of a lookup: it assigns the system to the name it reports. -/
theorem discoverSystemByName_wp (env : Env W) (m : Machine W) (name : String)
    (hauto : m.session.auto_discovery_of_systems = true)
    (hmissing : m.registry.find? name = none) :
    (discoverSystemByName name).wp env ⟨fun _ m' => KeepsModes m m' ∧ m'.written = m.written ∧
        ¬ LookupThrows env m name ∧ ∃ system w,
          env.discoverSystem (discoveredName name) m.world = (.ok system, w) ∧
          env.run w (keying m.registry system) = some m'.world ∧
          m'.registry = m.registry.assign system.name system,
      fun _ m' => Silent m m' ∧ LookupThrows env m name, fun _ _ => False⟩ m := by
  show ((fep3DiscoverSystem (discoveredName name) : Control W System) >>= keySystem).wp env _
    (m.found name)
  unfold Eff.wp LookupThrows
  rcases hreply : env.discoverSystem (discoveredName name) m.world with ⟨e | system, w⟩
  · have hthrows : env.discoverSystem (discoveredName name) (m.found name).world = _ := hreply
    rw [Eff.bind_of_throws (fep3DiscoverSystem_throws hthrows)]
    exact ⟨⟨⟨⟨rfl, rfl, rfl, rfl⟩, rfl⟩, rfl⟩, hauto, hmissing, trivial⟩
  · have hok : env.discoverSystem (discoveredName name) (m.found name).world = _ := hreply
    rw [Eff.bind_of_ok (fep3DiscoverSystem_ok hok)]
    refine Eff.wp_mono (keySystem_wp system env _) (fun _ m' h => ?_) (fun _ m' h => ?_)
      (fun _ _ h => h)
    · obtain ⟨hkeeps, hwritten, hrun, hreg⟩ := h
      have hrun : env.run w (keying m.registry system) = some m'.world := hrun
      refine ⟨⟨hkeeps.json_mode, hkeeps.monitor_json_mode, hkeeps.auto_discovery,
        hkeeps.logged⟩, hwritten, fun h => ?_, system, w, rfl, hrun, hreg⟩
      rw [show env.run w _ = none from h.2.2] at hrun
      exact absurd hrun nofun
    · obtain ⟨hsilent, hthrows⟩ := h
      exact ⟨⟨⟨⟨hsilent.json_mode, hsilent.monitor_json_mode, hsilent.auto_discovery,
        hsilent.logged⟩, hsilent.registry⟩, hsilent.written⟩, hauto, hmissing, hthrows⟩

/-- No system is found under the name. -/
def Unknown (env : Env W) (m : Machine W) (name : String) : Prop :=
  ∀ system w, ¬ Finds env m name system w

theorem Finds.not_unknown {env : Env W} {m : Machine W} {name : String} {system : System} {w : W}
    (h : Finds env m name system w) : ¬ Unknown env m name := fun h' => h' system w h

/-- The end of a lookup of `name`: it has not thrown. -/
structure LookedUp (env : Env W) (m : Machine W) (name : String) (m' : Machine W) : Prop where
  modes : KeepsModes m m'
  looked : Looked env name m m'.registry
  returns : ¬ LookupThrows env m name

/-- A lookup found no system, and has said so, in pieces. -/
structure MissedSystem (env : Env W) (m : Machine W) (name action : String) (m' : Machine W) :
    Prop extends LookedUp env m name m' where
  missing : m'.registry.find? name = none
  reports : Answers (fun j r => Plain action false j r ∧ r.Split) m m'
  unknown : Unknown env m name

/-- A lookup found the entry of the name, in silence. -/
structure FoundSystem (env : Env W) (m : Machine W) (name : String) (system : System)
    (m' : Machine W) : Prop extends LookedUp env m name m' where
  find : m'.registry.find? name = some system
  written : m'.written = m.written
  finds : Finds env m name system m'.world

theorem MissedSystem.answers {env : Env W} {m m' : Machine W} {name action : String}
    (h : MissedSystem env m name action m') : Answers (Plain action false) m m' :=
  h.reports.mono fun _ _ hr => hr.1

/-- What a lookup ends with: it finds the entry of the name, or reports that the name is no key, or
    throws and has done nothing. -/
def lookupPost (env : Env W) (m : Machine W) (name action : String) :
    Eff.Post (Machine W) String Stop (Option Entry) where
  ok it m' := match it with
    | none => MissedSystem env m name action m'
    | some it => it.1 = name ∧ FoundSystem env m name it.2 m'
  throws _ m' := Silent m m' ∧ LookupThrows env m name
  stops _ _ := False

/-- A name that is no key, and is not discovered, is reported. -/
theorem connected_missing_post {env : Env W} {m m' : Machine W} {name : String}
    (h : KeepsModes m m') (hlooked : Looked env name m m'.registry)
    (hwritten : m'.written = m.written) (hfind : m'.registry.find? name = none)
    (hthrows : ¬ LookupThrows env m name) (hunknown : Unknown env m name) (action : String) :
    (getConnectedOrDiscoveredSystem name false action).wp env (lookupPost env m name action)
      m' := by
  unfold Eff.wp
  rw [connected_missing hfind]
  refine ⟨⟨h.trans (KeepsModes.wrote _ _), hlooked, hthrows⟩, hfind,
    ⟨.error action (notConnected name) .generic_error "", ?_,
      Plain.error action _ (by decide) "" _, trivial⟩, hunknown⟩
  rw [← hwritten, ← h.json_mode]; rfl

/-- The second lookup, behind a discovery. -/
theorem connected_discovered_wp {env : Env W} {m m' : Machine W} {name : String}
    (hauto : m.session.auto_discovery_of_systems = true)
    (hmissing : m.registry.find? name = none) (hkeeps : KeepsModes m m')
    (hwritten : m'.written = m.written) (hthrows : ¬ LookupThrows env m name)
    {system : System} {w : W}
    (hreply : env.discoverSystem (discoveredName name) m.world = (.ok system, w))
    (hrun : env.run w (keying m.registry system) = some m'.world)
    (hreg : m'.registry = m.registry.assign system.name system) (action : String) :
    (getConnectedOrDiscoveredSystem name false action).wp env (lookupPost env m name action)
      m' := by
  have hlooked : Looked env name m m'.registry := by
    rw [hreg]; exact .discovered hauto hmissing hreply
  have hfind : m'.registry.find? name = if name = system.name then some system else none := by
    rw [hreg, SortedMap.find?_assign, hmissing]
  by_cases hname : system.name = name
  · rw [if_pos hname.symm] at hfind
    unfold Eff.wp
    rw [connected_found hfind]
    exact ⟨rfl, ⟨hkeeps.trans (KeepsModes.found _ _), hlooked, hthrows⟩, hfind, hwritten,
      .discovered hauto hmissing hreply hrun hname⟩
  · rw [if_neg fun h => hname h.symm] at hfind
    refine connected_missing_post hkeeps hlooked hwritten hfind hthrows (fun _ _ h => ?_) action
    cases h with
    | registered h => rw [hmissing] at h; exact absurd h nofun
    | discovered _ _ hreply' _ hname' =>
      rw [hreply] at hreply'
      obtain rfl := Except.ok.inj (Prod.mk.inj hreply').1
      exact hname hname'

/-- **What a lookup can do**. -/
theorem lookup_wp (env : Env W) (m : Machine W) (name action : String) :
    (lookup name action).wp env (lookupPost env m name action) m := by
  show (getConnectedOrDiscoveredSystem name m.session.auto_discovery_of_systems action).wp env _ m
  cases hfind : m.registry.find? name with
  | some system =>
    unfold Eff.wp
    rw [connected_found hfind]
    refine ⟨rfl, ⟨KeepsModes.found _ _, .same, fun h => ?_⟩, hfind, rfl, .registered hfind⟩
    exact absurd (hfind.symm.trans h.2.1) nofun
  | none =>
    cases hauto : m.session.auto_discovery_of_systems with
    | false =>
      refine connected_missing_post ⟨rfl, rfl, rfl, rfl⟩ .same rfl hfind (fun h => ?_)
        (fun _ _ h => ?_) action
      · exact absurd (hauto.symm.trans h.1) nofun
      · cases h with
        | registered h => rw [hfind] at h; exact absurd h nofun
        | discovered h => rw [hauto] at h; exact absurd h nofun
    | true =>
      unfold Eff.wp
      rw [connected_discover hfind]
      show Eff.wp _ env _ m
      rw [Eff.wp_bind]
      refine Eff.wp_mono (discoverSystemByName_wp env m name hauto hfind) (fun _ m' h => ?_)
        (fun _ _ h => h) (fun _ _ h => h)
      obtain ⟨hkeeps, hwritten, hthrows, system, w, hreply, hrun, hreg⟩ := h
      exact connected_discovered_wp hauto hfind hkeeps hwritten hthrows hreply hrun hreg action

/-- A lookup that returns has looked its name up, whether it was found or not. -/
theorem lookedUp_of_ok {env : Env W} {m m' : Machine W} {name action : String} {it : Option Entry}
    (h : lookup name action env m = (.ok it, m')) : LookedUp env m name m' := by
  have hpost := Eff.wp_ok (lookup_wp env m name action) h
  cases it with
  | none => exact MissedSystem.toLookedUp hpost
  | some it => exact FoundSystem.toLookedUp hpost.2

/-- A handler that starts with a lookup: it ends as the lookup does, or goes on with the entry. -/
theorem withSystem_wp {env : Env W} {m : Machine W} {s action : String}
    {rest : Entry → Control W Bool} {Q : Eff.Post (Machine W) String Stop Bool}
    (hmissing : ∀ m', MissedSystem env m s action m' → Q.ok false m')
    (hfound : ∀ system m', FoundSystem env m s system m' →
      (rest (s, system)).wp env Q m')
    (hthrows : ∀ e m', Silent m m' → LookupThrows env m s → Q.throws e m') :
    (withSystem s action rest).wp env Q m := by
  rw [withSystem, Eff.wp_bind]
  refine Eff.wp_mono (lookup_wp env m s action) (fun it m' h => ?_)
    (fun e m' h => hthrows e m' h.1 h.2) (fun _ _ h => h.elim)
  cases it with
  | none => exact hmissing m' h
  | some it =>
    obtain ⟨key, system⟩ := it
    obtain ⟨rfl, h⟩ := h
    exact hfound system m' h

/-- A handler that starts with a lookup stops where its rest does, for the system it found. -/
theorem withSystem_stops {env : Env W} {m : Machine W} {s : String} {rest : Entry → Control W Bool}
    {C : System → W → Prop}
    (h : ∀ system m', Eff.Stops (rest (s, system)) env m' ↔ C system m'.world) (action : String) :
    Eff.Stops (withSystem s action rest) env m ↔
      ∃ system w, Finds env m s system w ∧ C system w := by
  have hlookup := lookup_wp env m s action
  rw [withSystem, Eff.stops_bind]
  constructor
  · rintro (hstops | ⟨it, m', hit, hrest⟩)
    · exact absurd hstops (Eff.not_stops_of_wp hlookup fun _ _ h => h)
    · have hpost := Eff.wp_ok hlookup hit
      cases it with
      | none => exact hrest.elim
      | some it =>
        obtain ⟨key, system⟩ := it
        obtain ⟨rfl, hfound⟩ := hpost
        exact ⟨system, m'.world, hfound.finds, (h system m').mp hrest⟩
  · rintro ⟨system, w, hfinds, hC⟩
    rcases hit : lookup s action env m with ⟨(_ | it) | _ | _, m'⟩
    · exact absurd (MissedSystem.unknown (Eff.wp_ok hlookup hit)) hfinds.not_unknown
    · have hpost := Eff.wp_ok hlookup hit
      obtain ⟨key, system'⟩ := it
      obtain ⟨rfl, hfound⟩ := hpost
      obtain ⟨rfl, hw⟩ := hfinds.unique hfound.finds
      exact .inr ⟨_, m', rfl, (h system' m').mpr (hw ▸ hC)⟩
    · exact absurd (Eff.wp_throws hlookup hit).2 hfinds.not_throws
    · exact (Eff.wp_stops hlookup hit).elim

/-! ## A handler around a lookup -/

/-- The handler looks a system up, and is guarded from there on; `P` is what it does to the
    registry, and `K` approves of its response. -/
def OnSystem (D : Stop → Prop) (K : Bool → Bool → Response → Prop)
    (P : Entry → Bool → Registry → Registry → Prop) (s action : String) (c : Control W Bool) :
    Prop :=
  ∃ rest, c = withSystem s action rest ∧ ∀ it, Guarded D (P it) K (rest it)

variable {K : Bool → Bool → Response → Prop}

/-- The registry after a command on the system `s`: a lookup, and then what `P` says of the entry
    it found. -/
def OnEntry (env : Env W) (m : Machine W) (s : String)
    (P : Entry → Bool → Registry → Registry → Prop) (b : Bool) (r' : Registry) : Prop :=
  ∃ r, Looked env s m r ∧ match r.find? s with
    | none => b = false ∧ r' = r
    | some system => P (s, system) b r r'

/-- Nothing more happens to a registry in which the name is not found. -/
theorem OnEntry.missing {env : Env W} {m m' : Machine W} {s action : String}
    (h : MissedSystem env m s action m')
    (P : Entry → Bool → Registry → Registry → Prop) : OnEntry env m s P false m'.registry := by
  refine ⟨_, h.looked, ?_⟩
  rw [h.missing]; exact ⟨rfl, rfl⟩

theorem OnEntry.found {env : Env W} {m m' : Machine W} {s : String} {system : System}
    (h : FoundSystem env m s system m')
    {P : Entry → Bool → Registry → Registry → Prop} {b : Bool} {r' : Registry}
    (hP : P (s, system) b m'.registry r') : OnEntry env m s P b r' := by
  refine ⟨_, h.looked, ?_⟩
  rw [h.find]; exact hP

/-- What is answered behind a lookup that found its system is the answer of the handler. -/
theorem Answers.found {env : Env W} {m m' m'' : Machine W} {s : String} {system : System}
    (h : FoundSystem env m s system m') {K : Bool → Response → Prop}
    (h' : Answers K m' m'') : Answers K m m'' := by
  obtain ⟨r, hr, hK⟩ := h'
  rw [h.written, h.modes.json_mode] at hr
  rw [h.modes.json_mode] at hK
  exact ⟨r, hr, hK⟩

/-- **A handler around a lookup** answers once, whether or not the system is found, and throws only
    where the lookup does. -/
theorem OnSystem.wp {P : Entry → Bool → Registry → Registry → Prop} {s action : String}
    {c : Control W Bool} (h : OnSystem D K P s action c)
    (hK : ∀ j r, Plain action false j r → K false j r) (env : Env W) (m : Machine W) :
    c.wp env ⟨fun b m' => KeepsModes m m' ∧ OnEntry env m s P b m'.registry ∧
        Answers (K b) m m' ∧ ¬ LookupThrows env m s,
      fun _ m' => Silent m m' ∧ LookupThrows env m s, fun d _ => D d⟩ m := by
  obtain ⟨rest, rfl, hrest⟩ := h
  refine withSystem_wp (fun m' h => ?_) (fun system m' h => ?_) (fun _ _ h h' => ⟨h, h'⟩)
  · exact ⟨h.modes, .missing h P, h.answers.mono hK, h.returns⟩
  · refine Eff.wp_mono (hrest _ env m') (fun b m'' h' => ?_) (fun _ _ h' => h'.elim)
      (fun _ _ h' => h')
    exact ⟨h.modes.trans h'.1.toKeepsModes, .found h h'.1.registry, h'.2.found h, h.returns⟩

/-- A handler whose system is a key goes on with the entry. -/
theorem withSystem_found {m : Machine W} {s : String} {system : System}
    (h : m.registry.find? s = some system) (env : Env W) (action : String)
    (rest : Entry → Control W Bool) :
    withSystem s action rest env m = rest (s, system) env (m.found s) := by
  have hlookup : lookup s action env m = (.ok (some (s, system)), m.found s) := by
    rw [lookup_eq, connected_found h]
  exact Eff.bind_of_ok hlookup _

/-! ## Participants -/

/-- What `getParticipant` does with the system it found. -/
def participantOf (action system_name participant_name : String) (it : Entry) :
    Control W (Option ParticipantProxy) :=
  tryCatch
    (do
      let participant ← it.2.getParticipant participant_name
      pure (some participant))
    fun e => do
      writeException action ("participant '" ++ participant_name ++ "' is not in system '" ++
        system_name ++ "'. " ++ "Is it in another system? Try to run 'discoverSystem " ++
        system_name ++ "' or 'discoverAllSystems'.") .generic_error e
      pure none

/-- A handler that starts with `getParticipant` starts with a lookup of the system. -/
theorem withParticipant_eq (action s p : String) (rest : ParticipantProxy → Control W Bool) :
    withParticipant action s p rest = withSystem s action (fun it => do
      match ← participantOf action s p it with
      | none => pure false
      | some part => rest part) := by
  funext env m
  show Eff.andThen _ env (Eff.andThen _ env (lookup s action env m)) =
    Eff.andThen _ env (lookup s action env m)
  rcases lookup s action env m with ⟨(_ | it) | _ | _, m'⟩ <;> rfl

/-- A participant that is not there is answered for. -/
theorem Guarded.participantOf {action : String} (s p : String)
    {rest : ParticipantProxy → Control W Bool} (hK : Approves K action)
    (hrest : ∀ part, Guarded D Stays K (rest part)) (it : Entry) :
    Guarded D Stays K (do
      match ← participantOf action s p it with
      | none => pure false
      | some part => rest part : Control W Bool) := by
  intro env m
  rw [Eff.wp_bind, FepControl.participantOf, Eff.wp_tryCatch, Eff.wp_bind]
  refine Eff.wp_mono (Quiet.fep3 _ env m) (fun part m' h => ?_) (fun e m' h => ?_)
    (fun _ _ h => h)
  · exact Eff.wp_mono (hrest part env m') (fun _ _ h' => h.keeps_answers h') (fun _ _ h' => h')
      (fun _ _ h' => h')
  · exact h.keeps_answers ⟨⟨⟨rfl, rfl, rfl, rfl⟩, rfl⟩, _, rfl,
      hK.exception _ (by decide) e _⟩

/-- A handler around a participant is one around its system. -/
theorem OnSystem.withParticipant {s p action : String} {rest : ParticipantProxy → Control W Bool}
    (hK : Approves K action) (hrest : ∀ part, Guarded D Stays K (rest part)) :
    OnSystem D K (fun _ => Stays) s action (withParticipant action s p rest) :=
  ⟨_, withParticipant_eq action s p rest, Guarded.participantOf s p hK hrest⟩

/-- A handler that writes an exception for whatever its work on the participant throws. -/
theorem OnSystem.tryParticipant {s p action : String} {rest : ParticipantProxy → Control W Bool}
    {text : String} {status : CmdStatus} (hK : Approves K action) (hstatus : status ≠ .no_error)
    (hrest : ∀ part, Body D Stays K (rest part)) :
    OnSystem D K (fun _ => Stays) s action (FepControl.withParticipant action s p fun part =>
      tryCatch (rest part) fun e => do
        writeException action text status e
        pure false) :=
  OnSystem.withParticipant hK fun part =>
    Guarded.tryCatch (hrest part) fun e => Guarded.exception hK (fun _ => rfl) _ hstatus e

theorem getParticipant_ok {env : Env W} {sys : System} {p : String} {m : Machine W}
    {part : ParticipantProxy} {w : W} (h : env.getParticipant sys p m.world = (.ok part, w)) :
    sys.getParticipant p env m = (.ok part, m.called (.system sys (.getParticipant p)) false w) :=
  fep3_ok h

theorem getParticipant_throws {env : Env W} {sys : System} {p : String} {m : Machine W}
    {e : String} {w : W} (h : env.getParticipant sys p m.world = (.error e, w)) :
    sys.getParticipant p env m = (.throws e, m.called (.system sys (.getParticipant p)) true w) :=
  fep3_throws h

/-- The participant that a command on `p` in the system `s` works on, and the world then. -/
def FindsParticipant (env : Env W) (m : Machine W) (s p : String) (part : ParticipantProxy)
    (w : W) : Prop :=
  ∃ system w', Finds env m s system w' ∧ env.getParticipant system p w' = (.ok part, w)

/-- There is one participant that is found. -/
theorem FindsParticipant.unique {env : Env W} {m : Machine W} {s p : String}
    {part part' : ParticipantProxy} {w w' : W} (h : FindsParticipant env m s p part w)
    (h' : FindsParticipant env m s p part' w') : part' = part ∧ w' = w := by
  obtain ⟨system, w₁, hfinds, hreply⟩ := h
  obtain ⟨system', w₁', hfinds', hreply'⟩ := h'
  obtain ⟨rfl, rfl⟩ := hfinds.unique hfinds'
  obtain ⟨hok, hw⟩ := Prod.mk.inj (hreply'.symm.trans hreply)
  exact ⟨Except.ok.inj hok, hw⟩

/-- A lookup of the participant `p` in `s` found `part`, in silence. -/
structure FoundParticipant (env : Env W) (m : Machine W) (s p : String) (part : ParticipantProxy)
    (m' : Machine W) : Prop where
  modes : KeepsModes m m'
  written : m'.written = m.written
  returns : ¬ LookupThrows env m s
  registry : OnEntry env m s (fun _ => Stays) true m'.registry
  finds : FindsParticipant env m s p part m'.world

/-- A lookup of the participant `p` in `s` found nothing, and has said so, in pieces if it is the
    system that is missing. -/
structure MissedParticipant (env : Env W) (m : Machine W) (s p action : String)
    (m' : Machine W) : Prop where
  modes : KeepsModes m m'
  reports : Answers (fun j r => Plain action false j r ∧ (r.Split ↔ Unknown env m s)) m m'
  returns : ¬ LookupThrows env m s
  registry : OnEntry env m s (fun _ => Stays) false m'.registry
  missing : ∀ part w, ¬ FindsParticipant env m s p part w

theorem MissedParticipant.answers {env : Env W} {m m' : Machine W} {s p action : String}
    (h : MissedParticipant env m s p action m') : Answers (Plain action false) m m' :=
  h.reports.mono fun _ _ hr => hr.1

/-- The flag is of no account where the registry stays. -/
theorem OnEntry.stays {env : Env W} {m : Machine W} {s : String} {r r' : Registry}
    (h : OnEntry env m s (fun _ => Stays) true r) (hr : r = r') (b : Bool) :
    OnEntry env m s (fun _ => Stays) b r' := by
  obtain ⟨r₁, hlooked, hr₁⟩ := h
  refine ⟨r₁, hlooked, ?_⟩
  cases hfind : r₁.find? s with
  | none => rw [hfind] at hr₁; exact absurd hr₁.1 nofun
  | some system => rw [hfind] at hr₁; exact Eq.trans hr₁ hr

/-- What is answered behind the lookup is the answer of the handler. -/
theorem FoundParticipant.answers {env : Env W} {m m' m'' : Machine W} {s p : String}
    {part : ParticipantProxy} (h : FoundParticipant env m s p part m')
    {K : Bool → Response → Prop} (h' : Answers K m' m'') : Answers K m m'' := by
  obtain ⟨r, hr, hK⟩ := h'
  rw [h.written, h.modes.json_mode] at hr
  rw [h.modes.json_mode] at hK
  exact ⟨r, hr, hK⟩

/-- A handler that starts with a participant: it ends as its lookup does, or goes on with the
    participant. -/
theorem withParticipant_wp {env : Env W} {m : Machine W} {s p action : String}
    {rest : ParticipantProxy → Control W Bool} {Q : Eff.Post (Machine W) String Stop Bool}
    (hmissing : ∀ m', MissedParticipant env m s p action m' → Q.ok false m')
    (hfound : ∀ part m', FoundParticipant env m s p part m' → (rest part).wp env Q m')
    (hthrows : ∀ e m', Silent m m' → LookupThrows env m s → Q.throws e m') :
    (withParticipant action s p rest).wp env Q m := by
  rw [withParticipant_eq]
  refine withSystem_wp (fun m' h => hmissing m' ?_) (fun system m' h => ?_) hthrows
  · refine ⟨h.modes, h.reports.mono fun _ _ hr => ⟨hr.1, iff_of_true hr.2 h.unknown⟩, h.returns,
      .missing h _, ?_⟩
    rintro part w ⟨system, w', hfinds, _⟩
    exact h.unknown system w' hfinds
  · have hfinds := h.finds
    rw [participantOf]
    unfold Eff.wp
    rw [Eff.bind_apply, Eff.tryCatch_apply]
    rcases hreply : env.getParticipant system p m'.world with ⟨e | part, w⟩
    · rw [Eff.bind_of_throws (getParticipant_throws hreply)]
      refine hmissing _ ⟨h.modes.trans ⟨rfl, rfl, rfl, rfl⟩, .found h ⟨_, rfl,
        Plain.exception action _ (by decide) e _, iff_of_false id hfinds.not_unknown⟩, h.returns,
        .found h rfl, ?_⟩
      rintro part w' ⟨system', w₁, hfinds', hreply'⟩
      obtain ⟨rfl, rfl⟩ := hfinds.unique hfinds'
      exact absurd (hreply.symm.trans hreply') nofun
    · rw [Eff.bind_of_ok (getParticipant_ok hreply)]
      exact hfound part _ ⟨h.modes.trans ⟨rfl, rfl, rfl, rfl⟩, h.written, h.returns,
        .found h rfl, system, _, hfinds, hreply⟩

/-- A handler that starts with a participant stops where its rest does, for the one it found. -/
theorem withParticipant_stops {env : Env W} {m : Machine W} {s p : String}
    {rest : ParticipantProxy → Control W Bool} {C : ParticipantProxy → W → Prop}
    (h : ∀ part m', Eff.Stops (rest part) env m' ↔ C part m'.world) (action : String) :
    Eff.Stops (withParticipant action s p rest) env m ↔
      ∃ part w, FindsParticipant env m s p part w ∧ C part w := by
  rw [withParticipant_eq]
  have hrest : ∀ system m', Eff.Stops (do
      match ← participantOf action s p (s, system) with
      | none => pure false
      | some part => rest part : Control W Bool) env m' ↔
        ∃ part w, env.getParticipant system p m'.world = (.ok part, w) ∧ C part w := by
    intro system m'
    rw [participantOf]
    unfold Eff.Stops Eff.wp
    rw [Eff.bind_apply, Eff.tryCatch_apply]
    rcases hreply : env.getParticipant system p m'.world with ⟨e | part, w⟩
    · rw [Eff.bind_of_throws (getParticipant_throws hreply)]
      exact iff_of_false id nofun
    · rw [Eff.bind_of_ok (getParticipant_ok hreply)]
      refine (h part _).trans ⟨fun hC => ⟨part, w, rfl, hC⟩, fun ⟨part', w', heq, hC⟩ => ?_⟩
      cases heq; exact hC
  rw [@withSystem_stops W env m s _ (fun system w' => ∃ part w,
    env.getParticipant system p w' = (.ok part, w) ∧ C part w) hrest action]
  constructor
  · rintro ⟨system, w, hfinds, part, w', hreply, hC⟩
    exact ⟨part, w', ⟨system, w, hfinds, hreply⟩, hC⟩
  · rintro ⟨part, w', ⟨system, w, hfinds, hreply⟩, hC⟩
    exact ⟨system, w, hfinds, part, w', hreply, hC⟩

/-! ## A participant that is always there

  What the library answers depends on its world.  `view` is the part of the world that matters,
  and finding the participant leaves it alone. -/

section

variable {V : Type} {env : Env W} {view : W → V} {m : Machine W} {s p : String}
  {part : ParticipantProxy}

/-- A command on `p` in `s` finds `part`, now and, as long as the system is a key, later. -/
def Reaches (env : Env W) (view : W → V) (m : Machine W) (s p : String)
    (part : ParticipantProxy) : Prop :=
  ∃ system, (∃ w, Finds env m s system w ∧ view w = view m.world) ∧
    ∀ w, ∃ w', env.getParticipant system p w = (.ok part, w') ∧ view w' = view w

/-- The participant is found by the next command too. -/
theorem Reaches.of_registered {system : System} (hfind : m.registry.find? s = some system)
    (hpart : ∀ w, ∃ w', env.getParticipant system p w = (.ok part, w') ∧ view w' = view w) :
    Reaches env view m s p part := ⟨system, ⟨m.world, .registered hfind, rfl⟩, hpart⟩

/-- A handler that starts with such a participant goes on with it, in silence. -/
theorem Reaches.withParticipant (h : Reaches env view m s p part) (action : String)
    (rest : ParticipantProxy → Control W Bool) :
    ∃ m₁, withParticipant action s p rest env m = rest part env m₁ ∧
      view m₁.world = view m.world ∧ m₁.written = m.written ∧ KeepsModes m m₁ ∧
      ∀ m₂ : Machine W, m₂.registry = m₁.registry → Reaches env view m₂ s p part := by
  obtain ⟨system, ⟨w, hfinds, hw⟩, hpart⟩ := h
  have hlookup := lookup_wp env m s action
  unfold Eff.wp at hlookup
  rw [withParticipant_eq, withSystem, Eff.bind_apply]
  generalize lookup s action env m = x at hlookup ⊢
  rcases x with ⟨(_ | ⟨key, system'⟩) | e | d, m'⟩
  · exact absurd hfinds (MissedSystem.unknown hlookup system w)
  · obtain ⟨rfl, hfound⟩ : key = s ∧ FoundSystem env m s system' m' := hlookup
    obtain ⟨rfl, hw'⟩ := hfinds.unique hfound.finds
    obtain ⟨w', hreply, hview⟩ := hpart m'.world
    have hpart' := Eff.bind_of_ok (getParticipant_ok hreply)
      fun participant => (pure (some participant) : Control W (Option ParticipantProxy))
    refine ⟨m'.called (.system system' (.getParticipant p)) false w', ?_, ?_, hfound.written,
      hfound.modes.trans ⟨rfl, rfl, rfl, rfl⟩, fun m₂ hm₂ => ?_⟩
    · show Eff.andThen _ env (Eff.orElse _ env (_ : Outcome String Stop _ × Machine W)) = _
      rw [hpart']
      rfl
    · show view w' = _
      rw [hview, hw', hw]
    · refine .of_registered ?_ hpart
      rw [hm₂]
      exact hfound.find
  · exact absurd hlookup.2 hfinds.not_throws
  · exact hlookup.elim

end

end FepControl
