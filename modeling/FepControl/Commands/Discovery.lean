/-
  The commands that discover systems.

  They are the commands that fill the registry, and the only ones that work without a system that is
  known already.  They call the library outside of any `try`, and put what they are given into the
  registry in two ways: `discoverAllSystems` emplaces, under the displayed name, so that an object
  that is there stays; `discoverSystem` assigns, under the name the system reports, so that it is
  replaced.

  1. **The handlers** -- each answers before it stores anything.  So when storing fails, the client
     has been told of systems that the session does not know.

  2. **The registry** -- what a name finds after a discovery of all systems: the entry that was
     there, or else the first of the reply that is displayed so (`find?_emplaceAll_eq`).

  3. **As lists of calls** -- in both handlers the answers of the accessors are known, so that what
     is left is a list of calls, an answer and an update (`discoverAllSystems_eq`,
     `discoverSystem_eq`).  From that come the two specifications, which say what has become of the
     registry and of the answer in either case (`discoverAllSystems_wp`, `discoverSystem_wp`).
-/
import FepControl.Listing

namespace FepControl

open Lib

variable {W : Type}

/-! ## The handlers -/

/-- `_connected_or_discovered_systems.emplace(key, system)`. -/
def emplaceSystem (key : String) (system : System) : Control W Unit :=
  update fun s => { s with
    connected_or_discovered_systems := s.connected_or_discovered_systems.emplace key system }

/-- The loop of `discoverAllSystems`. -/
def emplaceSystems : List System → Control W Unit
  | [] => pure ()
  | system :: systems => do
      let system_name ← system.getSystemName
      emplaceSystem (displayedName system_name) system
      setLastSystemNameUsed (displayedName system_name)
      emplaceSystems systems

/-- `discoverAllSystems`. -/
def discoverAllSystems (first _last : TokenIterator) : Control W Bool := do
  let systems ← fep3DiscoverAllSystems
  let systems_attrs ← getSystems systems
  writeNotesVec (← first.deref) systems_attrs
  emplaceSystems systems
  pure true

/-- `discoverSystem`. -/
def discoverSystem (first _last : TokenIterator) : Control W Bool := do
  let action ← first.deref
  let first ← first.next
  let system_name ← first.deref
  setLastSystemNameUsed system_name
  let system ← fep3DiscoverSystem (discoveredName system_name)
  writeNotes action (← getSystemParticipants system)
  assignSystem (← system.getSystemName) system
  pure true

/-! ## What the handlers do to the registry -/

/-- The registry with a list of systems emplaced. -/
def emplaceAll (systems : List System) (r : Registry) : Registry :=
  systems.foldl (fun r system => r.emplace (displayedName system.name) system) r

/-- A list of systems emplaced: an entry stays, and else the first system of that name comes in. -/
theorem find?_emplaceAll_eq (k : String) (systems : List System) (r : Registry) :
    (emplaceAll systems r).find? k =
      (r.find? k).or (systems.find? fun system => displayedName system.name = k) := by
  induction systems generalizing r with
  | nil =>
    show r.find? k = (r.find? k).or none
    rw [Option.or_none]
  | cons system systems ih =>
    have hcons : emplaceAll (system :: systems) r =
        emplaceAll systems (r.emplace (displayedName system.name) system) := rfl
    rw [hcons, ih, SortedMap.find?_emplace, List.find?_cons]
    by_cases hk : displayedName system.name = k
    · subst hk
      cases r.find? (displayedName system.name) <;> simp
    · have hk' : k ≠ displayedName system.name := fun h => hk h.symm
      simp [hk, hk']

/-- A key that has an entry keeps it. -/
theorem find?_emplaceAll {k : String} {system : System} (systems : List System) {r : Registry}
    (h : r.find? k = some system) : (emplaceAll systems r).find? k = some system := by
  rw [find?_emplaceAll_eq, h, Option.some_or]

/-- The displayed name of every system that was emplaced is a key. -/
theorem find?_emplaceAll_of_mem {system : System} (systems : List System) (r : Registry)
    (hmem : system ∈ systems) :
    ∃ entry, (emplaceAll systems r).find? (displayedName system.name) = some entry := by
  rw [find?_emplaceAll_eq]
  cases r.find? (displayedName system.name) with
  | some entry => exact ⟨entry, rfl⟩
  | none =>
    rw [Option.none_or]
    cases hfind :
      systems.find? fun other => displayedName other.name = displayedName system.name with
    | some entry => exact ⟨entry, rfl⟩
    | none =>
      have hother := List.find?_eq_none.mp hfind system hmem
      exact absurd (decide_eq_true rfl) hother

/-- One round of the loop: a system is stored, and its name is the one used last. -/
theorem emplaceSystems_cons (system : System) (systems : List System) :
    emplaceSystems (system :: systems) = (do
      let _ ← fep3 (.system system .getSystemName)
      emplaceSystem (displayedName system.name) system
      setLastSystemNameUsed (displayedName system.name)
      emplaceSystems systems : Control W Unit) := by
  rw [emplaceSystems, System.getSystemName]
  simp only [bind_assoc, pure_bind]

/-- The loop emplaces the systems in order; where a call throws, those before it. -/
theorem emplaceSystems_wp (env : Env W) : ∀ (systems : List System) (m : Machine W),
    (emplaceSystems systems).wp env
      ⟨fun _ m' => KeepsModes m m' ∧ m'.written = m.written ∧
          m'.registry = emplaceAll systems m.registry ∧
          env.run m.world (systems.map fun system => .system system .getSystemName) =
            some m'.world,
        fun _ m' => KeepsModes m m' ∧ m'.written = m.written ∧
          (∃ pre, pre <+: systems ∧ m'.registry = emplaceAll pre m.registry) ∧
          env.AnyThrows m.world (systems.map fun system => .system system .getSystemName),
        fun _ _ => False⟩ m
  | [], m => ⟨⟨rfl, rfl, rfl, rfl⟩, rfl, rfl, rfl⟩
  | system :: systems, m => by
      rw [emplaceSystems_cons, List.map_cons]
      unfold Eff.wp Env.AnyThrows Env.run
      rcases hname : env.fep3 (.system system .getSystemName) m.world with ⟨e | u, w⟩
      · rw [Eff.bind_of_throws (fep3_throws hname)]
        exact ⟨⟨rfl, rfl, rfl, rfl⟩, rfl, ⟨[], List.nil_prefix, rfl⟩, rfl⟩
      · rw [Eff.bind_of_ok (fep3_ok hname)]
        show (emplaceSystems systems).wp env _ _
        refine Eff.wp_mono (emplaceSystems_wp env systems _) (fun _ m' h => ?_)
          (fun _ m' h => ?_) (fun _ _ h => h)
        · obtain ⟨hmodes, hwritten, hreg, hrun⟩ := h
          exact ⟨⟨hmodes.json_mode, hmodes.monitor_json_mode, hmodes.auto_discovery,
            hmodes.logged⟩, hwritten, hreg, hrun⟩
        · obtain ⟨hmodes, hwritten, ⟨pre, hpre, hreg⟩, hrun⟩ := h
          exact ⟨⟨hmodes.json_mode, hmodes.monitor_json_mode, hmodes.auto_discovery,
            hmodes.logged⟩, hwritten,
            ⟨system :: pre, List.cons_prefix_cons.mpr ⟨rfl, hpre⟩, hreg⟩, hrun⟩

/-- The calls that `discoverAllSystems` makes once it has the systems. -/
def registration (systems : List System) : List Call :=
  systems.flatMap listing ++ systems.map fun system => .system system .getSystemName

/-- A library call of `discoverAllSystems` throws. -/
def DiscoverAllThrows (env : Env W) (w : W) : Prop :=
  match env.discoverAllSystems w with
  | (.ok systems, w') => env.AnyThrows w' (registration systems)
  | (.error _, _) => True

/-- The registry after `discoverAllSystems`: systems of the reply are emplaced, in order; all of
    them, if the command returns. -/
def DiscoveredAll (env : Env W) (m : Machine W) (returned : Bool) (r : Registry) : Prop :=
  (returned = false ∧ r = m.registry) ∨
    ∃ (systems : List System) (w : W) (pre : List System),
      env.discoverAllSystems m.world = (.ok systems, w) ∧ pre <+: systems ∧
        (returned = true → pre = systems) ∧ r = emplaceAll pre m.registry

/-- If the command returns, all the systems of the reply are emplaced. -/
theorem DiscoveredAll.registry {env : Env W} {m : Machine W} {r : Registry}
    (h : DiscoveredAll env m true r) {systems : List System} {w : W}
    (hreply : env.discoverAllSystems m.world = (.ok systems, w)) :
    r = emplaceAll systems m.registry := by
  rcases h with ⟨hfalse, -⟩ | ⟨systems', w', pre, hreply', -, hall, hreg⟩
  · exact absurd hfalse nofun
  · obtain rfl := Except.ok.inj (Prod.mk.inj (hreply.symm.trans hreply')).1
    rw [hreg, hall rfl]

/-- The handler as calls, an answer and a loop. -/
theorem discoverAllSystems_eq (a : String) (last : TokenIterator) :
    (discoverAllSystems (begin_ [a]) last : Control W Bool) = (do
      let systems ← fep3DiscoverAllSystems
      callAll (systems.flatMap listing)
      writeNotesVec a (systems.map displayed)
      emplaceSystems systems
      pure true) := by
  rw [discoverAllSystems]
  refine bind_congr fun systems => ?_
  rw [getSystems_eq, bind_assoc]
  rfl

/-- **What `discoverAllSystems` does**: it succeeds, unless a call throws; then a part of the
    systems may have been stored. -/
theorem discoverAllSystems_wp (a : String) (last : TokenIterator) (env : Env W) (m : Machine W) :
    (discoverAllSystems (begin_ [a]) last).wp env
      ⟨fun b m' => b = true ∧ KeepsModes m m' ∧ Answers (Plain a true) m m' ∧
          DiscoveredAll env m true m'.registry ∧ ¬ DiscoverAllThrows env m.world,
        fun _ m' => KeepsModes m m' ∧ DiscoveredAll env m false m'.registry ∧
          DiscoverAllThrows env m.world ∧ MayAnswer (Spoken a) m m',
        fun _ _ => False⟩ m := by
  rw [discoverAllSystems_eq]
  unfold Eff.wp DiscoverAllThrows
  rcases hreply : env.discoverAllSystems m.world with ⟨e | systems, w⟩
  · rw [Eff.bind_of_throws (fep3DiscoverAllSystems_throws hreply)]
    exact ⟨⟨rfl, rfl, rfl, rfl⟩, Or.inl ⟨rfl, rfl⟩, trivial, .inl rfl⟩
  · rw [Eff.bind_of_ok (fep3DiscoverAllSystems_ok hreply)]
    show Eff.wp _ env _ (m.called .discoverAllSystems false w)
    rw [Eff.wp_bind]
    refine Eff.wp_mono (callAll_wp env _ _) (fun _ m₁ h => ?_) (fun _ m₁ h => ?_)
      (fun _ _ h => h)
    · obtain ⟨hcalls, hrun⟩ := h
      have hsilent := (Silent.called m .discoverAllSystems false w).trans hcalls
      have hthrows : env.AnyThrows w (registration systems) ↔
          env.AnyThrows m₁.world (systems.map fun system => .system system .getSystemName) :=
        Env.anyThrows_append_iff hrun _
      show Eff.wp (emplaceSystems systems >>= fun _ => pure true : Control W Bool) env _
        (m₁.wrote (.notesVec a (systems.map displayed)))
      rw [Eff.wp_bind]
      have hmodes₁ := hsilent.toKeepsModes.trans
        (KeepsModes.wrote m₁ (.notesVec a (systems.map displayed)))
      have hreg : m₁.registry = m.registry := hsilent.registry.symm
      refine Eff.wp_mono (emplaceSystems_wp env systems _) (fun _ m' h => ?_) (fun _ m' h => ?_)
        (fun _ _ h => h)
      · obtain ⟨hmodes, hwritten, hregistry, hnames⟩ := h
        refine ⟨rfl, hmodes₁.trans hmodes, hsilent.answers_wrote hwritten (Plain.notesVec a _),
          Or.inr ⟨systems, w, systems, hreply, List.prefix_refl _, fun _ => rfl, ?_⟩, ?_⟩
        · rw [hregistry, ← hreg]; rfl
        · exact fun h => Env.not_anyThrows hnames (hthrows.mp h)
      · obtain ⟨hmodes, hwritten, ⟨pre, hpre, hregistry⟩, hnames⟩ := h
        refine ⟨hmodes₁.trans hmodes, Or.inr ⟨systems, w, pre, hreply, hpre, nofun, ?_⟩,
          hthrows.mpr hnames,
          .inr (hsilent.answers_wrote hwritten fun j => ⟨Plain.notesVec a _ j, ?_⟩)⟩
        · rw [hregistry, ← hreg]; rfl
        · -- a call for a name has thrown, so there is a system
          rintro hnil
          have hsystems : systems = [] := by simpa [Response.texts] using hnil
          rw [hsystems] at hnames
          exact absurd hnames nofun
    · obtain ⟨hcalls, hthrow⟩ := h
      have hsilent := (Silent.called m .discoverAllSystems false w).trans hcalls
      exact ⟨hsilent.toKeepsModes, Or.inl ⟨rfl, hsilent.registry.symm⟩, hthrow.append _,
        .inl hsilent.written⟩

/-- A library call of `discoverSystem` throws. -/
def DiscoverThrows (env : Env W) (m : Machine W) (system_name : String) : Prop :=
  match env.discoverSystem (discoveredName system_name) m.world with
  | (.ok system, w) => env.AnyThrows w (listing system ++ keying m.registry system)
  | (.error _, _) => True

/-- The handler as calls, an answer and an assignment. -/
theorem discoverSystem_eq (a s : String) (last : TokenIterator) :
    (discoverSystem (begin_ [a, s]) last : Control W Bool) = (do
      setLastSystemNameUsed s
      let system ← fep3DiscoverSystem (discoveredName s)
      callAll (listing system)
      writeNotes a (displayed system)
      keySystem system
      pure true) := by
  show (do
    setLastSystemNameUsed s
    let system ← fep3DiscoverSystem (discoveredName s)
    writeNotes a (← getSystemParticipants system)
    assignSystem (← system.getSystemName) system
    pure true : Control W Bool) = _
  refine bind_congr fun _ => bind_congr fun system => ?_
  rw [getSystemParticipants_eq, keySystem]
  simp only [bind_assoc, pure_bind]

/-- **What `discoverSystem` does**: it stores the system of the reply, unless a call throws. -/
theorem discoverSystem_wp (a s : String) (last : TokenIterator) (env : Env W) (m : Machine W) :
    (discoverSystem (begin_ [a, s]) last).wp env
      ⟨fun b m' => b = true ∧ KeepsModes m m' ∧ Answers (Plain a true) m m' ∧
          (∃ system w, env.discoverSystem (discoveredName s) m.world = (.ok system, w) ∧
            m'.registry = m.registry.assign system.name system) ∧
          ¬ DiscoverThrows env m s,
        fun _ m' => KeepsModes m m' ∧ m'.registry = m.registry ∧ DiscoverThrows env m s ∧
          MayAnswer (Spoken a) m m',
        fun _ _ => False⟩ m := by
  rw [discoverSystem_eq]
  show ((fep3DiscoverSystem (discoveredName s) : Control W System) >>= _).wp env _ (m.found s)
  unfold Eff.wp DiscoverThrows
  rcases hreply : env.discoverSystem (discoveredName s) m.world with ⟨e | system, w⟩
  · rw [Eff.bind_of_throws (fep3DiscoverSystem_throws
      (show env.discoverSystem _ (m.found s).world = _ from hreply))]
    exact ⟨⟨rfl, rfl, rfl, rfl⟩, rfl, trivial, .inl rfl⟩
  · rw [Eff.bind_of_ok (fep3DiscoverSystem_ok (show env.discoverSystem _ (m.found s).world = _
      from hreply))]
    show Eff.wp _ env _ ((m.found s).called (.discoverSystem (discoveredName s)) false w)
    rw [Eff.wp_bind]
    have hcalled := (Silent.found m s).trans
      (Silent.called _ (.discoverSystem (discoveredName s)) false w)
    refine Eff.wp_mono (callAll_wp env _ _) (fun _ m₁ h => ?_) (fun _ m₁ h => ?_)
      (fun _ _ h => h)
    · obtain ⟨hcalls, hrun⟩ := h
      have hsilent := hcalled.trans hcalls
      have hreg : m₁.registry = m.registry := hsilent.registry.symm
      show Eff.wp (keySystem system >>= fun _ => pure true : Control W Bool) env _
        (m₁.wrote (.notes a (displayed system)))
      rw [Eff.wp_bind]
      have hmodes₁ := hsilent.toKeepsModes.trans
        (KeepsModes.wrote m₁ (.notes a (displayed system)))
      -- the calls that store the system come after the notes are written; they may throw too
      have hthrows : env.AnyThrows w (listing system ++ keying m.registry system) ↔
          env.AnyThrows m₁.world (keying m₁.registry system) := by
        rw [hreg]
        exact Env.anyThrows_append_iff hrun _
      refine Eff.wp_mono (keySystem_wp system env _) (fun _ m₂ h => ?_) (fun _ m₂ h => ?_)
        (fun _ _ h => h)
      · obtain ⟨hkeeps, hwritten, hrun₂, hassign⟩ := h
        refine ⟨rfl, hmodes₁.trans hkeeps, hsilent.answers_wrote hwritten (Plain.notes a _),
          ⟨system, w, rfl, ?_⟩, fun h => Env.not_anyThrows hrun₂ (hthrows.mp h)⟩
        rw [hassign, ← hreg]
        rfl
      · obtain ⟨hsilent₂, hthrow⟩ := h
        exact ⟨hmodes₁.trans hsilent₂.toKeepsModes,
          (hsilent.registry.trans hsilent₂.registry).symm, hthrows.mpr hthrow,
          .inr (hsilent.answers_wrote hsilent₂.written fun j =>
            ⟨Plain.notes a _ j, List.cons_ne_nil _ _⟩)⟩
    · obtain ⟨hcalls, hthrow⟩ := h
      have hsilent := hcalled.trans hcalls
      exact ⟨hsilent.toKeepsModes, hsilent.registry.symm, hthrow.append _, .inl hsilent.written⟩

end FepControl
