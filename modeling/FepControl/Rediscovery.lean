/-
  A second discovery.

  A user who discovers the systems again wants the registry to be up to date: participants have come
  and gone, and the objects in the registry still have the old ones.  The two discoveries look
  alike, and differ in one word of the source: the one uses `operator[]` and an assignment, the
  other `emplace`.

  1. **Refreshed** -- what a discovery should do: every system it returns is the entry of its name,
     and the other entries are left alone.

  2. **discoverSystem** assigns, so it refreshes the entry of a system that has a name
     (`refreshed_assign`).

  3. **discoverAllSystems** emplaces, so an entry that is there stays, although the new data has
     just been displayed (`discoverAllSystems_written`).  It refreshes the registry exactly when no
     returned system has another entry yet, and no two of them are displayed under one name
     (`Unstored`, `refreshed_iff`).

  4. **Again** -- a discovery of systems some of which are stored is the case that matters: where
     the reply has the stored object, nothing is lost (`refreshed_again`), and where it has another
     one, the old object stays in place (`not_refreshed`).
-/
import FepControl.Runs
import Mathlib.Data.List.Nodup

namespace FepControl

open Lib

variable {W : Type}

/-! ## What discovery is for -/

/-- The systems are the entries of their names, and the other entries are left alone. -/
structure Refreshed (systems : List System) (r r' : Registry) : Prop where
  entries : ∀ system ∈ systems, r'.find? (displayedName system.name) = some system
  others : ∀ k, (∀ system ∈ systems, k ≠ displayedName system.name) → r'.find? k = r.find? k

/-- No system has another entry yet, and no two of them have one displayed name. -/
structure Unstored (systems : List System) (r : Registry) : Prop where
  entries : ∀ system ∈ systems, ∀ entry, r.find? (displayedName system.name) = some entry →
    entry = system
  names : ∀ system ∈ systems, ∀ system' ∈ systems,
    displayedName system.name = displayedName system'.name → system.name = system'.name

/-! ## Assigning -/

/-- **Assigning refreshes** the entry of a system with a name. -/
theorem refreshed_assign (r : Registry) {system : System} (hname : system.name ≠ "") :
    Refreshed [system] r (r.assign system.name system) := by
  have hkey : displayedName system.name = system.name := if_neg hname
  constructor
  · intro system' hmem
    obtain rfl := List.mem_singleton.mp hmem
    rw [hkey, SortedMap.find?_assign, if_pos rfl]
  · intro k hk
    have hne : k ≠ system.name := hkey ▸ hk system (List.mem_singleton.mpr rfl)
    rw [SortedMap.find?_assign, if_neg hne]

/-! ## Emplacing -/

/-- A system of its name is the first of that name, if the displayed names tell the names apart. -/
theorem find?_of_unstored {systems : List System} (hnames : (systems.map System.name).Nodup)
    {r : Registry} (h : Unstored systems r) {system : System} (hmem : system ∈ systems) :
    systems.find? (fun system' => displayedName system'.name = displayedName system.name) =
      some system := by
  cases hfind : systems.find? fun system' => displayedName system'.name = displayedName system.name
  with
  | none =>
    have hnone := List.find?_eq_none.mp hfind system hmem
    exact absurd (decide_eq_true rfl) hnone
  | some first =>
    have hdisplayed : displayedName first.name = displayedName system.name := by
      simpa using List.find?_some hfind
    have hfirst : first ∈ systems := List.mem_of_find?_eq_some hfind
    have hname : first.name = system.name := h.names first hfirst system hmem hdisplayed
    rw [List.inj_on_of_nodup_map hnames hfirst hmem hname]

/-- **Emplacing refreshes** exactly what is not stored yet. -/
theorem refreshed_emplaceAll {systems : List System} (hnames : (systems.map System.name).Nodup)
    (r : Registry) : Refreshed systems r (emplaceAll systems r) ↔ Unstored systems r := by
  constructor
  · intro h
    constructor
    · intro system hmem entry hentry
      -- the entry stays, so it is the one that should have come in
      have hstays := find?_emplaceAll systems hentry
      exact Option.some.inj (hstays.symm.trans (h.entries system hmem))
    · intro system hmem system' hmem' hdisplayed
      have hsame := h.entries system hmem
      rw [hdisplayed, h.entries system' hmem'] at hsame
      rw [Option.some.inj hsame]
  · intro h
    constructor
    · intro system hmem
      rw [find?_emplaceAll_eq, find?_of_unstored hnames h hmem]
      cases hentry : r.find? (displayedName system.name) with
      | none => rfl
      | some entry => rw [h.entries system hmem entry hentry]; rfl
    · intro k hk
      have hnone : systems.find? (fun system => displayedName system.name = k) = none := by
        apply List.find?_eq_none.mpr
        intro system hmem hdisplayed
        exact hk system hmem (of_decide_eq_true hdisplayed).symm
      rw [find?_emplaceAll_eq, hnone, Option.or_none]

/-! ## The commands -/

section

variable {env : Env W} {m m' : Machine W} {systems : List System} {w : W}

/-- What `discoverAllSystems` displays, if it returns: the systems of the reply. -/
theorem discoverAllSystems_written (hreply : env.discoverAllSystems m.world = (.ok systems, w))
    {a : String} (last : TokenIterator) {b : Bool}
    (h : discoverAllSystems (begin_ [a]) last env m = (.ok b, m')) :
    m'.written = m.written ++ [⟨m.session.json_mode, .notesVec a (systems.map displayed)⟩] := by
  rw [discoverAllSystems_eq, Eff.bind_of_ok (fep3DiscoverAllSystems_ok hreply)] at h
  refine Eff.wp_ok (Q := ⟨fun _ m' => m'.written = _, fun _ _ => True, fun _ _ => True⟩) ?_ h
  rw [Eff.wp_bind]
  refine Eff.wp_mono (callAll_wp env _ _) (fun _ m₁ h₁ => ?_) (fun _ _ _ => trivial)
    (fun _ _ h₁ => h₁.elim)
  obtain ⟨hsilent, -⟩ := h₁
  show Eff.wp (emplaceSystems systems >>= fun _ => pure true : Control W Bool) env _
    (m₁.wrote (.notesVec a (systems.map displayed)))
  rw [Eff.wp_bind]
  refine Eff.wp_mono (emplaceSystems_wp env systems _) (fun _ m₂ h₂ => ?_) (fun _ _ _ => trivial)
    (fun _ _ h₂ => h₂.elim)
  obtain ⟨-, hwritten, -⟩ := h₂
  show m₂.written = _
  rw [hwritten, Machine.wrote, hsilent.written, hsilent.json_mode]
  rfl

/-- **Discovery refreshes the registry**: a `discoverSystem` that returns has refreshed the entry of
    a system with a name; a `discoverAllSystems` that returns has displayed the systems of the
    reply, and refreshed their entries if and only if none of them was stored yet. -/
theorem refreshed_iff {tokens : List String} {cmd : ControlCommand} {code : Int}
    (hd : dispatched tokens = some cmd) (hret : processCommandline tokens env m = (.ok code, m')) :
    (cmd.action = .discoverSystem → ∀ n system w, tokens[1]? = some n →
      env.discoverSystem (discoveredName n) m.world = (.ok system, w) → system.name ≠ "" →
        Refreshed [system] m.registry m'.registry) ∧
    (cmd.action = .discoverAllSystems → ∀ systems w,
      env.discoverAllSystems m.world = (.ok systems, w) → (systems.map System.name).Nodup →
        m'.written = m.written ++
            [⟨m.session.json_mode, .notesVec cmd.name (systems.map displayed)⟩] ∧
          (Refreshed systems m.registry m'.registry ↔ Unstored systems m.registry)) := by
  obtain ⟨-, ⟨tail, htokens⟩, -, hmin, hmax⟩ := dispatched_some hd
  obtain ⟨b, hinvoke, -⟩ := invoke_of_ok hd hret
  constructor
  · intro haction n system w hn hreply hname
    rw [haction] at hmin hmax hinvoke
    obtain ⟨a, s, rfl⟩ := eq_two (Nat.le_antisymm hmax hmin)
    obtain rfl : s = n := Option.some.inj hn
    obtain ⟨-, -, -, ⟨system', w', hreply', hreg⟩, -⟩ :=
      Eff.wp_ok (discoverSystem_wp a s (end_ [a, s]) env m) hinvoke
    obtain rfl := Except.ok.inj (Prod.mk.inj (hreply.symm.trans hreply')).1
    -- `operator[]` and an assignment: the old object is replaced
    rw [hreg]
    exact refreshed_assign m.registry hname
  · intro haction systems w hreply hnames
    rw [haction] at hmin hmax hinvoke
    obtain ⟨a, rfl⟩ := eq_one (Nat.le_antisymm hmax hmin)
    obtain rfl : a = cmd.name := (List.cons.inj htokens).1
    obtain ⟨-, -, -, hdiscovered, -⟩ :=
      Eff.wp_ok (discoverAllSystems_wp cmd.name (end_ [cmd.name]) env m) hinvoke
    -- it returned, hence every system of the reply was emplaced
    have hreg := hdiscovered.registry hreply
    refine ⟨discoverAllSystems_written hreply (end_ [cmd.name]) hinvoke, ?_⟩
    rw [hreg]
    exact refreshed_emplaceAll hnames m.registry

end

/-- Two systems, one of which is discovered by its name before. -/
def discoveredSystems : List System := [⟨0, "s", [], 0⟩, ⟨1, "t", ["p"], 0⟩]

/-- A second discovery that finds the system that is registered as it was, and another one: both
    are the entries of their names afterwards. -/
theorem refreshed_again :
    let env := Env.discoversAll discoveredSystems
    let m := (processCommandline ["discoverSystem", "s"] env (Machine.new false "" ())).2
    let m' := (processCommandline ["discoverAllSystems"] env m).2
    m'.written = m.written ++
        [⟨false, .notesVec "discoverAllSystems" (discoveredSystems.map displayed)⟩] ∧
      m.registry.find? "s" = some ⟨0, "s", [], 0⟩ ∧
      Refreshed discoveredSystems m.registry m'.registry := by
  intro env m m'
  obtain ⟨cmd, hd⟩ : ∃ cmd, dispatched ["discoverAllSystems"] = some cmd := ⟨_, rfl⟩
  have hcmd := Option.some.inj hd
  have hret : processCommandline ["discoverAllSystems"] env m = (.ok 0, m') := rfl
  have h := (refreshed_iff hd hret).2 (hcmd ▸ rfl) discoveredSystems () rfl (by decide)
  subst hcmd
  refine ⟨h.1, rfl, h.2.mpr ⟨?_, by decide⟩⟩
  -- `s` is stored already, as the object that is returned; `t` is not
  have hentries : ∀ system ∈ discoveredSystems, (m.registry.find? (displayedName system.name)).all
      (· = system) = true := by decide
  intro system hmem entry hentry
  have hsame := hentries system hmem
  rw [hentry] at hsame
  exact of_decide_eq_true hsame

/-- A system is discovered by its name, a participant joins it, and all systems are discovered: the
    entry stays the first object. -/
theorem not_refreshed : ¬ ∀ (W : Type) (env : Env W) (json_mode : Bool)
    (working_directory : String) (w : W) (events : List (Event W)) (m : Machine W),
    Run (Step env) (Machine.new json_mode working_directory w) events m →
    ∀ (systems : List System) (w' : W), env.discoverAllSystems m.world = (.ok systems, w') →
    (systems.map System.name).Nodup → ∀ (code : Int) (m' : Machine W),
    processCommandline ["discoverAllSystems"] env m = (.ok code, m') →
    Refreshed systems m.registry m'.registry := by
  intro h
  let system : System := ⟨1, "s", ["p"], 0⟩
  let env := Env.discoversAll [system]
  let m := (processCommandline ["discoverSystem", "s"] env (Machine.new false "" ())).2
  have hrun : Run (Step env) (Machine.new false "" ()) [.command ["discoverSystem", "s"]] m :=
    Run.one (@Step.of_ok _ _ _ _ _ 0 (by decide) rfl)
  -- `emplace` leaves the stored object, which knows no participant
  have hrefreshed := h Unit env false "" () _ m hrun [system] () rfl (by decide) 0 _ rfl
  have hentry := hrefreshed.entries system (List.mem_singleton.mpr rfl)
  exact absurd hentry (by decide)

end FepControl
