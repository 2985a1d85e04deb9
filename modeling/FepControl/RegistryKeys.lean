/-
  The keys of the registry.

  Every later command finds its system by a key, and the user types the key as the tool has
  displayed it.  Systems are displayed by their names, apart from the one system without a name,
  which is displayed as `-`.  So the registry is usable exactly as far as its keys are the displayed
  names.

  1. **KeyedByName** -- every system is stored under the name that the tool displays for it, which
     is `-` for the system without a name.  It holds of the empty registry, and events keep it
     (`KeyedByName.step`, `keyedByName_run`).

  2. **Named** -- `discoverAllSystems` translates the empty name back to `-` before it stores a
     system; `discoverSystem` and auto-discovery do not.  The keys are as they should be in every
     run that does not ask these two for the unnamed system.

  3. **FindsEntry** -- a lookup under the displayed name finds what has been discovered, with
     auto-discovery and without.  Each of the three ways to discover has its own lemma
     (`discoverAllSystems_found`, `discoverSystem_found`, `autoDiscovery_found`).  The first one
     keeps an object that is there already, so what is found is an entry of that name; the other two
     assign, and the object itself is found.

  4. **Confuses** -- the alias `-` may be the name of another system, too.  The two systems have one
     key, so the one that is discovered later is not stored.

  5. **registry_keyed** -- all of this together, for every state of a run whose events are `Named`;
     without the condition it fails at `discoverSystem -` (`not_registry_keyed`).
-/
import FepControl.Runs

namespace FepControl

open Lib

variable {W : Type}

/-! ## The invariant -/

/-- Every system is stored under the name that the tool displays for it. -/
def KeyedByName (r : Registry) : Prop := r.All fun k system => k = displayedName system.name

/-- The command line discovers the unnamed system by its name. -/
def FindsUnnamed (env : Env W) (m : Machine W) (tokens : List String) : Prop :=
  ∃ cmd system, dispatched tokens = some cmd ∧ Discovers env m cmd.action tokens system ∧
    system.name = ""

/-- The event does not discover the unnamed system by its name. -/
def Named (env : Env W) (m : Machine W) : Event W → Prop
  | .command lineTokens => ¬ FindsUnnamed env m lineTokens
  | _ => True

/-- The command line discovers two systems that are displayed under one name, the unnamed one and
    one that is named `-`; or one of the two while the other one is registered. -/
def Confuses (env : Env W) (m : Machine W) (tokens : List String) : Prop :=
  ∃ cmd systems w, dispatched tokens = some cmd ∧ cmd.action = .discoverAllSystems ∧
    env.discoverAllSystems m.world = (.ok systems, w) ∧ ∃ system ∈ systems, ∃ other,
      (other ∈ systems ∨ m.registry.find? (displayedName system.name) = some other) ∧
        displayedName other.name = displayedName system.name ∧ other.name ≠ system.name

/-- A name that is not empty is displayed as it is. -/
theorem displayedName_of_ne {name : String} (h : name ≠ "") : displayedName name = name :=
  if_neg h

/-- A name that is looked for, and not empty, is the one that was typed. -/
theorem discoveredName_of_ne {name : String} (h : discoveredName name ≠ "") :
    discoveredName name = name := by
  unfold discoveredName at *
  by_cases hname : name = empty_system_name
  · rw [if_pos hname] at h; exact absurd rfl h
  · exact if_neg hname

/-- One event keeps the keys. -/
theorem KeyedByName.step {env : Env W} (m : Machine W) (event : Event W) (m' : Machine W)
    (h : KeyedByName m.registry) (hstep : Along (Step env) (Named env) m event m') :
    KeyedByName m'.registry := by
  obtain ⟨hstep, hnamed⟩ := hstep
  rcases hstep.registry with heq | ⟨tokens, cmd, rfl, hd, hchanges⟩
  · exact heq ▸ h
  · refine hchanges.all h (fun system hsystem => ?_) (fun _ _ _ _ _ => rfl) ?_ ?_
    · have hname : system.name ≠ "" := fun hname => hnamed ⟨cmd, system, hd, hsystem, hname⟩
      exact (displayedName_of_ne hname).symm
    -- monitoring does not rename a system
    · rintro k system r system' r' hk (_ | _)
      · exact hk
      · exact hk
    · rintro k system r system' r' monitors w w' hk (_ | _) -
      · exact hk
      · exact hk

/-- **The keys are the displayed names**, in every run that does not ask for the unnamed system by
    its name. -/
theorem keyedByName_run {env : Env W} {json_mode : Bool} {working_directory : String} {w : W}
    {events : List (Event W)} {m : Machine W}
    (h : Run (Along (Step env) (Named env)) (Machine.new json_mode working_directory w) events m) :
    KeyedByName m.registry := by
  have hnew : KeyedByName (Machine.new json_mode working_directory w).registry :=
    SortedMap.All.empty
  exact Run.invariant (I := fun m => KeyedByName m.registry) KeyedByName.step h hnew

/-! ## Looking up what has been discovered -/

/-- A lookup of `name` finds this system, with auto-discovery and without. -/
def FindsEntry (env : Env W) (m : Machine W) (name : String) (system : System) : Prop :=
  ∀ auto_discovery action, getConnectedOrDiscoveredSystem name auto_discovery action env m =
    (.ok (some (name, system)), m.found name)

/-- What is stored under a key is found under it. -/
theorem findsEntry {m : Machine W} {name : String} {system : System}
    (h : m.registry.find? name = some system) (env : Env W) : FindsEntry env m name system :=
  fun auto_discovery action => connected_found h env auto_discovery action

/-- After a discovery that has succeeded, the system is found under its displayed name. -/
structure DiscoveriesFound (env : Env W) (m : Machine W) : Prop where
  discoverAllSystems : ∀ {tokens : List String} {cmd : ControlCommand} {m' : Machine W}
    {systems : List System} {w : W}, dispatched tokens = some cmd →
      cmd.action = .discoverAllSystems → processCommandline tokens env m = (.ok 0, m') →
      env.discoverAllSystems m.world = (.ok systems, w) → ¬ Confuses env m tokens →
        ∀ system ∈ systems, ∃ entry, FindsEntry env m' (displayedName system.name) entry ∧
          entry.name = system.name
  discoverSystem : ∀ {tokens : List String} {cmd : ControlCommand} {m' : Machine W} {n : String}
    {system : System} {w : W}, dispatched tokens = some cmd → cmd.action = .discoverSystem →
      tokens[1]? = some n → processCommandline tokens env m = (.ok 0, m') →
      env.discoverSystem (discoveredName n) m.world = (.ok system, w) → system.name ≠ "" →
        FindsEntry env m' n system ∧ displayedName system.name = n
  autoDiscovery : ∀ {n action : String} {m' : Machine W} {it : Option Entry} {system : System}
    {w : W}, m.session.auto_discovery_of_systems = true → m.registry.find? n = none →
      lookup n action env m = (.ok it, m') →
      env.discoverSystem (discoveredName n) m.world = (.ok system, w) → system.name ≠ "" →
        it = some (n, system) ∧ FindsEntry env m' n system ∧ displayedName system.name = n

section

variable {env : Env W} {m : Machine W}

/-- The entry that a discovered system is found under is one of this very name: the one that was
    there already, or the first one of the reply. -/
theorem discoverAllSystems_found (h : KeyedByName m.registry) {tokens : List String}
    {cmd : ControlCommand} {m' : Machine W} {systems : List System} {w : W}
    (hd : dispatched tokens = some cmd) (haction : cmd.action = .discoverAllSystems)
    (hret : processCommandline tokens env m = (.ok 0, m'))
    (hreply : env.discoverAllSystems m.world = (.ok systems, w))
    (hconfuses : ¬ Confuses env m tokens) {system : System} (hmem : system ∈ systems) :
    ∃ entry, FindsEntry env m' (displayedName system.name) entry ∧ entry.name = system.name := by
  obtain ⟨-, -, -, hmin, hmax⟩ := dispatched_some hd
  obtain ⟨b, hinvoke, -⟩ := invoke_of_ok hd hret
  have hname : ∀ other, (other ∈ systems ∨
      m.registry.find? (displayedName system.name) = some other) →
      displayedName other.name = displayedName system.name → other.name = system.name := by
    intro other hother hdisplayed
    refine Decidable.byContradiction fun hne => hconfuses ?_
    exact ⟨cmd, systems, w, hd, haction, hreply, system, hmem, other, hother, hdisplayed, hne⟩
  rw [haction] at hmin hmax hinvoke
  obtain ⟨a, rfl⟩ := eq_one (Nat.le_antisymm hmax hmin)
  obtain ⟨-, -, -, hdiscovered, -⟩ := Eff.wp_ok (discoverAllSystems_wp a (end_ [a]) env m) hinvoke
  have hreg := hdiscovered.registry hreply
  obtain ⟨entry, hfind⟩ := find?_emplaceAll_of_mem systems m.registry hmem
  have hentry : FindsEntry env m' (displayedName system.name) entry :=
    findsEntry (hreg ▸ hfind) env
  refine ⟨entry, hentry, ?_⟩
  rw [find?_emplaceAll_eq, Option.or_eq_some_iff] at hfind
  rcases hfind with hold | ⟨-, hnew⟩
  · exact hname entry (.inr hold) (h _ _ hold).symm
  · exact hname entry (.inl (List.mem_of_find?_eq_some hnew)) (by simpa using List.find?_some hnew)

/-- Of two systems that are displayed as `-` the one that comes second is not stored. -/
example :
    let env := Env.discoversAll [⟨0, "", [], 0⟩, ⟨1, "-", [], 0⟩]
    (processCommandline ["discoverAllSystems"] env (Machine.new false "" ())).2.registry.entries =
      [("-", ⟨0, "", [], 0⟩)] := by decide

/-- A named system that is discovered by its name has this very name. -/
theorem name_of_reply (hnaming : ∀ x w system w', env.discoverSystem x w = (.ok system, w') →
      system.name = x) {n : String} {system : System} {w w' : W}
    (hreply : env.discoverSystem (discoveredName n) w = (.ok system, w'))
    (hname : system.name ≠ "") : system.name = n ∧ displayedName system.name = n := by
  have hdiscovered : system.name = discoveredName n := hnaming _ _ _ _ hreply
  have hn : system.name = n :=
    hdiscovered.trans (discoveredName_of_ne fun h => hname (hdiscovered.trans h))
  exact ⟨hn, (displayedName_of_ne hname).trans hn⟩

/-- `discoverSystem n` has stored the system of the reply as `n`. -/
theorem discoverSystem_found (hnaming : ∀ x w system w',
      env.discoverSystem x w = (.ok system, w') → system.name = x) {tokens : List String}
    {cmd : ControlCommand} {m' : Machine W} {n : String} {system : System} {w : W}
    (hd : dispatched tokens = some cmd) (haction : cmd.action = .discoverSystem)
    (hn : tokens[1]? = some n) (hret : processCommandline tokens env m = (.ok 0, m'))
    (hreply : env.discoverSystem (discoveredName n) m.world = (.ok system, w))
    (hname : system.name ≠ "") : FindsEntry env m' n system ∧ displayedName system.name = n := by
  obtain ⟨-, -, -, hmin, hmax⟩ := dispatched_some hd
  obtain ⟨b, hinvoke, -⟩ := invoke_of_ok hd hret
  rw [haction] at hmin hmax hinvoke
  obtain ⟨a, s, rfl⟩ := eq_two (Nat.le_antisymm hmax hmin)
  obtain rfl : s = n := Option.some.inj hn
  obtain ⟨-, -, -, ⟨system', w', hreply', hreg⟩, -⟩ :=
    Eff.wp_ok (discoverSystem_wp a s (end_ [a, s]) env m) hinvoke
  obtain rfl := Except.ok.inj (Prod.mk.inj (hreply.symm.trans hreply')).1
  obtain ⟨hs, hdisplayed⟩ := name_of_reply hnaming hreply hname
  refine ⟨findsEntry ?_ env, hdisplayed⟩
  rw [hreg, hs, SortedMap.find?_assign, if_pos rfl]

/-- So has a lookup of a name that is no key, with auto-discovery, and it returns the system. -/
theorem autoDiscovery_found (hnaming : ∀ x w system w',
      env.discoverSystem x w = (.ok system, w') → system.name = x) {n action : String}
    {m' : Machine W} {it : Option Entry} {system : System} {w : W}
    (hauto : m.session.auto_discovery_of_systems = true) (hmissing : m.registry.find? n = none)
    (hlookup : lookup n action env m = (.ok it, m'))
    (hreply : env.discoverSystem (discoveredName n) m.world = (.ok system, w))
    (hname : system.name ≠ "") :
    it = some (n, system) ∧ FindsEntry env m' n system ∧ displayedName system.name = n := by
  obtain ⟨hs, hdisplayed⟩ := name_of_reply hnaming hreply hname
  have hpost := Eff.wp_ok (lookup_wp env m n action) hlookup
  have hfinds : ∃ w', Finds env m n system w' := by
    cases hrun : env.run w (keying m.registry system) with
    | none =>
      refine absurd ⟨hauto, hmissing, ?_⟩ (lookedUp_of_ok hlookup).returns
      rw [hreply]; exact hrun
    | some w' => exact ⟨w', .discovered hauto hmissing hreply hrun hs⟩
  obtain ⟨w', hfinds⟩ := hfinds
  cases it with
  | none => exact absurd (MissedSystem.unknown hpost) hfinds.not_unknown
  | some it =>
    obtain ⟨key, system'⟩ := it
    obtain ⟨rfl, hfound⟩ := hpost
    obtain ⟨rfl, -⟩ := hfinds.unique hfound.finds
    exact ⟨rfl, findsEntry hfound.find env, hdisplayed⟩

end

/-- **The keys of the registry**: in every run that does not discover the unnamed system by its
    name, every system is stored under the name that is displayed for it, no system under two
    names, and what has been discovered is found, unless the alias confuses it with another
    system. -/
theorem registry_keyed {env : Env W} (hnaming : ∀ x w system w',
      env.discoverSystem x w = (.ok system, w') → system.name = x)
    {json_mode : Bool} {working_directory : String} {w : W} {events : List (Event W)}
    {m : Machine W}
    (hrun : Run (Along (Step env) (Named env)) (Machine.new json_mode working_directory w)
      events m) :
    (∀ k system, (k, system) ∈ m.registry.entries → k = displayedName system.name) ∧
      (∀ k k' system system', (k, system) ∈ m.registry.entries →
        (k', system') ∈ m.registry.entries → system.name = system'.name → k = k') ∧
      DiscoveriesFound env m := by
  have hkeyed : KeyedByName m.registry := keyedByName_run hrun
  have hentries : ∀ k system, (k, system) ∈ m.registry.entries →
      k = displayedName system.name := fun k system hmem =>
    hkeyed k system (SortedMap.mem_entries.mp hmem)
  refine ⟨hentries, fun k k' system system' hmem hmem' hname => ?_, ?_, ?_, ?_⟩
  · rw [hentries k system hmem, hentries k' system' hmem', hname]
  · exact fun hd haction hret hreply hconfuses _ hmem =>
      discoverAllSystems_found hkeyed hd haction hret hreply hconfuses hmem
  · exact discoverSystem_found hnaming
  · exact autoDiscovery_found hnaming

/-- The library of the examples answers with the system it is asked for. -/
theorem answering_naming (x : String) (w : Unit) (system : System) (w' : Unit)
    (h : Env.answering.discoverSystem x w = (.ok system, w')) : system.name = x := by
  obtain rfl := Except.ok.inj (Prod.mk.inj h).1
  rfl

/-- A session that discovers one system by its name. -/
theorem registry_keyed_answering :
    let m := (processCommandline ["discoverSystem", "s"] Env.answering (Machine.new false "" ())).2
    (∀ k system, (k, system) ∈ m.registry.entries → k = displayedName system.name) ∧
      (∀ k k' system system', (k, system) ∈ m.registry.entries →
        (k', system') ∈ m.registry.entries → system.name = system'.name → k = k') ∧
      DiscoveriesFound Env.answering m := by
  have hnamed : ¬ FindsUnnamed Env.answering (Machine.new false "" ())
      ["discoverSystem", "s"] := by
    rintro ⟨cmd, system, hd, (⟨-, hs, hreply⟩ | ⟨hf, -⟩), hname⟩
    · obtain rfl := Option.some.inj hs
      rw [answering_naming _ _ _ _ hreply] at hname
      exact absurd hname (by decide)
    · obtain rfl := Option.some.inj hd
      exact absurd hf (by decide)
  exact registry_keyed answering_naming
    (Run.one ⟨@Step.of_ok _ _ _ _ _ 0 (by decide) rfl, hnamed⟩)

/-- `discoverSystem -` stores the unnamed system under the empty name. -/
theorem not_registry_keyed : ¬ ∀ (W : Type) (env : Env W), (∀ x w system w',
      env.discoverSystem x w = (.ok system, w') → system.name = x) →
    ∀ (json_mode : Bool) (working_directory : String) (w : W) (events : List (Event W))
      (m : Machine W), Run (Step env) (Machine.new json_mode working_directory w) events m →
    ∀ k system, (k, system) ∈ m.registry.entries → k = displayedName system.name := by
  intro h
  let m := (processCommandline ["discoverSystem", "-"] Env.answering (Machine.new false "" ())).2
  have hrun : Run (Step Env.answering) (Machine.new false "" ())
      [.command ["discoverSystem", "-"]] m := Run.one (@Step.of_ok _ _ _ _ _ 0 (by decide) rfl)
  have hkey := h Unit Env.answering answering_naming false "" () _ m hrun "" ⟨0, "", [], 0⟩
    (by decide)
  exact absurd hkey (by decide)

end FepControl
