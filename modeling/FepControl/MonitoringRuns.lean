/-
  The registrations of the session's monitor, over whole runs.

  `startMonitoringSystem s` registers the one monitor of the session with the system object that is
  stored under `s`.  The registration belongs to that object: it counts for as long as the object is
  the one in the registry, and an object that is made anew has none.  So the question is which
  events put another object under `s`.

  1. **MonitorLaws** -- what the library says about registrations: they belong to the system object,
     and a discovered object has none; registering adds one, unregistering takes one off, and is
     refused where there is none.

  2. **AtMostOnce** -- no command registers the monitor twice with one object, in any run.  The
     invariant speaks of the whole registry (`AtMostOnce.step`, `atMostOnce_run`):
     `startMonitoringSystem` takes a registration off before it adds one.

  3. **Monitored** -- the registration made by `startMonitoringSystem s` is there as long as the
     object under `s` is.  `discoverAllSystems` keeps that object, for it emplaces; `discoverSystem
     s` and auto-discovery replace it by a new one (`Leaves` rules them out).

  4. **monitored_once** -- from a successful `startMonitoringSystem s` on, through every event that
     leaves the entry alone, the monitor is registered exactly once with the object under `s`.  A
     discovery by name is all it takes to lose it (`not_monitored_once`).
-/
import FepControl.Runs

namespace FepControl

open Lib

variable {W : Type}

/-! ## What the library guarantees -/

/-- Registering adds a registration to the object, unregistering takes one off or throws when there
    is none, and an object that is discovered has none. -/
structure MonitorLaws (env : Env W) : Prop where
  discovered : ∀ x w system w', env.discoverSystem x w = (.ok system, w') → system.monitors = 0
  discoveredAll : ∀ w systems w', env.discoverAllSystems w = (.ok systems, w') →
    ∀ system ∈ systems, system.monitors = 0
  registers : ∀ system w, ∃ w', env.registerMonitoring system w = (.ok (system.monitors + 1), w')
  unregisters : ∀ system w, system.monitors ≠ 0 →
    ∃ w', env.unregisterMonitoring system w = (.ok (system.monitors - 1), w')
  refuses : ∀ system w, system.monitors = 0 →
    ∃ what w', env.unregisterMonitoring system w = (.error what, w')

section

variable {env : Env W} (laws : MonitorLaws env) {k : String} {system system' : System}
  {r r' : Registry}

include laws

/-- What unregistering leaves: one registration less, and none if there was none. -/
theorem Unregistered.monitors (h : Unregistered env (k, system) r system' r') :
    system'.monitors = system.monitors - 1 := by
  cases h with
  | @removed monitors w w' hreply =>
    have hreply : env.unregisterMonitoring system w = (.ok monitors, w') := hreply
    by_cases hzero : system.monitors = 0
    · obtain ⟨what, w'', hrefused⟩ := laws.refuses system w hzero
      exact absurd (Prod.mk.inj (hreply.symm.trans hrefused)).1 nofun
    · obtain ⟨w'', hremoved⟩ := laws.unregisters system w hzero
      exact Except.ok.inj (Prod.mk.inj (hreply.symm.trans hremoved)).1
  | @refused what w w' hreply =>
    have hreply : env.unregisterMonitoring system w = (.error what, w') := hreply
    by_cases hzero : system.monitors = 0
    · show system.monitors = _
      omega
    · obtain ⟨w'', hremoved⟩ := laws.unregisters system w hzero
      exact absurd (Prod.mk.inj (hreply.symm.trans hremoved)).1 nofun

/-- Registering has added one. -/
theorem registered_monitors {monitors : Nat} {w w' : W}
    (h : env.registerMonitoring system w = (.ok monitors, w')) :
    monitors = system.monitors + 1 := by
  obtain ⟨w'', hadded⟩ := laws.registers system w
  exact Except.ok.inj (Prod.mk.inj (h.symm.trans hadded)).1

/-- The object that `startMonitoringSystem` leaves behind. -/
theorem Registered.monitors (h : Registered env (k, system) r r') :
    ∃ system', r'.find? k = some system' ∧ system'.monitors = system.monitors - 1 + 1 := by
  cases h with
  | @added system' r₁ monitors w w' h hreply =>
    refine ⟨{ system' with monitors := monitors }, ?_, ?_⟩
    · rw [SortedMap.find?_assign, if_pos rfl]
    · show monitors = _
      rw [registered_monitors laws hreply, h.monitors laws]

end

/-- Other entries are not touched. -/
theorem Unregistered.find?_ne {env : Env W} {k k' : String} {system system' : System}
    {r r' : Registry} (h : Unregistered env (k, system) r system' r') (hne : k' ≠ k) :
    r'.find? k' = r.find? k' := by
  cases h with
  | removed => rw [SortedMap.find?_assign, if_neg hne]
  | refused => rfl

/-- Monitoring a system changes no other entry. -/
theorem Registered.find?_ne {env : Env W} {k k' : String} {system : System} {r r' : Registry}
    (h : Registered env (k, system) r r') (hne : k' ≠ k) : r'.find? k' = r.find? k' := by
  cases h with
  | added h hreply => rw [SortedMap.find?_assign, if_neg hne, h.find?_ne hne]

/-! ## No system is monitored twice -/

/-- The monitor is registered at most once with every object of the registry. -/
def AtMostOnce (r : Registry) : Prop := r.All fun _ system => system.monitors ≤ 1

/-- **No event registers the monitor a second time**: new objects come without a registration, and
    the monitor is taken off an object before it is put on. -/
theorem AtMostOnce.step {env : Env W} (laws : MonitorLaws env) (m : Machine W) (event : Event W)
    (m' : Machine W) (h : AtMostOnce m.registry) (hstep : Step env m event m') :
    AtMostOnce m'.registry := by
  rcases hstep.registry with heq | ⟨tokens, cmd, rfl, hd, hchanges⟩
  · exact heq ▸ h
  · refine hchanges.all h (fun system hsystem => ?_) (fun systems w hreply system hmem => ?_)
      ?_ ?_
    · have hzero : system.monitors = 0 := by
        cases hsystem with
        | asked _ _ hreply => exact laws.discovered _ _ _ _ hreply
        | unknown _ _ _ _ hreply => exact laws.discovered _ _ _ _ hreply
      omega
    · have hzero := laws.discoveredAll _ _ _ hreply system hmem
      omega
    · intro k system r system' r' hsystem h
      have hmonitors := h.monitors laws
      omega
    · intro k system r system' r' monitors w w' hsystem h hreply
      have hmonitors := h.monitors laws
      have hregistered := registered_monitors laws hreply
      show monitors ≤ 1
      omega

/-- In every run, the monitor is registered at most once with each object. -/
theorem atMostOnce_run {env : Env W} (laws : MonitorLaws env) {json_mode : Bool}
    {working_directory : String} {w : W} {events : List (Event W)} {m : Machine W}
    (h : Run (Step env) (Machine.new json_mode working_directory w) events m) :
    AtMostOnce m.registry := by
  have hnew : AtMostOnce (Machine.new json_mode working_directory w).registry :=
    SortedMap.All.empty
  exact Run.invariant (I := fun m => AtMostOnce m.registry) (AtMostOnce.step laws) h hnew

/-! ## A monitored system stays monitored -/

/-- The monitor is registered exactly once with the object stored under `s`. -/
def Monitored (s : String) (r : Registry) : Prop :=
  ∃ system, r.find? s = some system ∧ system.monitors = 1

/-- The command shuts the system `t` down. -/
def ShutsDown (f : ActionFunction) (tokens : List String) (t : String) : Prop :=
  tokens[1]? = some t ∧ (f = .shutdownSystem ∨ f = .setSystemState ∧
    ∃ state_string, tokens[2]? = some state_string ∧
      getStateFromString state_string = .unreachable)

/-- The command neither stops the monitoring of `s` nor shuts `s` down. -/
structure SparesEntry (s : String) (f : ActionFunction) (tokens : List String) : Prop where
  monitoring : ¬ (f = .stopMonitoringSystem ∧ tokens[1]? = some s)
  shutdown : ¬ ShutsDown f tokens s

/-- The command leaves the object under `s` and its monitor to themselves: it spares `s`, and does
    not take the object away from under this name. -/
structure LeavesEntry (env : Env W) (m : Machine W) (s : String) (f : ActionFunction)
    (tokens : List String) : Prop extends SparesEntry s f tokens where
  /-- it does not discover, by name, a system that is stored as `s` -/
  discovery : ∀ system, Discovers env m f tokens system → system.name ≠ s
  /-- it does not shut down an object that calls itself `s` and is stored under another name -/
  alias_ : ∀ t system, ShutsDown f tokens t → m.registry.find? t = some system → system.name ≠ s

/-- The event neither stops the monitoring of `s` nor shuts `s` down. -/
def Spares (s : String) (_ : Machine W) : Event W → Prop
  | .command lineTokens => ∀ cmd, dispatched lineTokens = some cmd →
      SparesEntry s cmd.action lineTokens
  | _ => True

/-- The event leaves the object under `s` and its monitor to themselves. -/
def Leaves (env : Env W) (s : String) (m : Machine W) : Event W → Prop
  | .command lineTokens => ∀ cmd, dispatched lineTokens = some cmd →
      LeavesEntry env m s cmd.action lineTokens
  | _ => True

section

variable {env : Env W} {m : Machine W} {s : String} {f : ActionFunction} {tokens : List String}

/-- A lookup does not touch the entry of `s`. -/
theorem LeavesEntry.looked (h : LeavesEntry env m s f tokens) {t : String} {r : Registry}
    (hlooked : Looked env t m r) (ht : tokens[1]? = some t) (hf : f.looksUp = true) :
    r.find? s = m.registry.find? s := by
  rcases hlooked.discovers ht hf with rfl | ⟨system, hsystem, -, rfl⟩
  · rfl
  · rw [SortedMap.find?_assign, if_neg (h.discovery system hsystem).symm]

/-- A system that the lookup finds, and that is then shut down, does not call itself `s`. -/
theorem LeavesEntry.not_alias (h : LeavesEntry env m s f tokens) {t : String} {r : Registry}
    {system : System} (hlooked : Looked env t m r) (hfind : r.find? t = some system)
    (hdown : ShutsDown f tokens t) : system.name ≠ s := by
  have hf : f.looksUp = true := by
    rcases hdown.2 with rfl | ⟨rfl, -⟩ <;> rfl
  rcases hlooked.discovers hdown.1 hf with rfl | ⟨system', hsystem, hmissing, rfl⟩
  · exact h.alias_ t system hdown hfind
  · rw [SortedMap.find?_assign] at hfind
    split at hfind
    · obtain rfl := Option.some.inj hfind
      exact h.discovery _ hsystem
    · cases hmissing.symm.trans hfind

/-- **What a command does to a monitored system** that it leaves alone. -/
theorem Monitored.changes (laws : MonitorLaws env) (h : LeavesEntry env m s f tokens)
    {r : Registry} (hchanges : Changes env m f tokens r) (hmonitored : Monitored s m.registry) :
    Monitored s r := by
  obtain ⟨system, hsystem, hone⟩ := hmonitored
  cases hchanges with
  | looked hs hf hlooked =>
    exact ⟨system, (h.looked hlooked hs hf).trans hsystem, hone⟩
  | same => exact ⟨system, hsystem, hone⟩
  | emplaced hf hreply hpre => exact ⟨system, find?_emplaceAll _ hsystem, hone⟩
  | @assigned hf t system' w hs hreply =>
    refine ⟨system, ?_, hone⟩
    rw [SortedMap.find?_assign, if_neg (h.discovery system' (.asked hf hs hreply)).symm]
    exact hsystem
  | @erased hf t system' r hs hlooked hfind =>
    have hlooks : f.looksUp = true := by
      rcases hf with rfl | ⟨rfl, -⟩ <;> rfl
    have hname := h.not_alias hlooked hfind ⟨hs, hf⟩
    refine ⟨system, ?_, hone⟩
    rw [SortedMap.find?_erase, if_neg hname.symm]
    exact (h.looked hlooked hs hlooks).trans hsystem
  | @unregistered hf t system' system'' r r' hs hlooked hfind hunregistered =>
    have hlooks : f.looksUp = true := by
      rcases hf with rfl | ⟨rfl, -⟩ <;> rfl
    have hne : s ≠ t := by
      rintro rfl
      rcases hf with hf | ⟨hf, hthrows⟩
      · exact h.monitoring ⟨hf, hs⟩
      · -- nothing throws: `s` is a key, and the registration is accepted
        subst hf
        obtain ⟨a, rest, rfl⟩ : ∃ a rest, tokens = a :: s :: rest := by
          match tokens, hs with
          | a :: _ :: rest, hs => exact ⟨a, rest, by rw [Option.some.inj hs]⟩
        rcases hthrows with ⟨-, hmissing, -⟩ | ⟨system₀, w, -, what, hwhat⟩
        · exact absurd (hsystem.symm.trans hmissing) nofun
        · obtain ⟨w', hadded⟩ := laws.registers (env.unregistered system₀ w).1
            (env.unregistered system₀ w).2
          rw [hadded] at hwhat
          exact absurd hwhat nofun
    refine ⟨system, ?_, hone⟩
    rw [hunregistered.find?_ne hne]
    exact (h.looked hlooked hs hlooks).trans hsystem
  | @registered hf t system' r r' hs hlooked hfind hregistered =>
    have hkeeps := (h.looked hlooked hs (by rw [hf]; rfl)).trans hsystem
    by_cases hst : s = t
    · subst hst
      obtain rfl : system' = system := Option.some.inj (hfind.symm.trans hkeeps)
      obtain ⟨system'', hfind', hmonitors⟩ := hregistered.monitors laws
      exact ⟨system'', hfind', by rw [hmonitors, hone]⟩
    · exact ⟨system, (hregistered.find?_ne hst).trans hkeeps, hone⟩

/-- **An event that leaves the entry alone keeps the registration.** -/
theorem Monitored.step (laws : MonitorLaws env) (m : Machine W) (event : Event W) (m' : Machine W)
    (h : Monitored s m.registry) (hstep : Along (Step env) (Leaves env s) m event m') :
    Monitored s m'.registry := by
  obtain ⟨hstep, hleaves⟩ := hstep
  rcases hstep.registry with heq | ⟨tokens, cmd, rfl, hd, hchanges⟩
  · exact heq ▸ h
  · exact h.changes laws (hleaves cmd hd) hchanges

/-- `startMonitoringSystem` registers the monitor once, if it was registered at most once. -/
theorem monitored_of_start (laws : MonitorLaws env) (honce : AtMostOnce m.registry)
    {cmd : ControlCommand} {m' : Machine W} (hd : dispatched tokens = some cmd)
    (haction : cmd.action = .startMonitoringSystem) (hs : tokens[1]? = some s)
    (hret : processCommandline tokens env m = (.ok 0, m')) : Monitored s m'.registry := by
  obtain ⟨-, -, -, hmin, hmax⟩ := dispatched_some hd
  obtain ⟨b, hinvoke, hb⟩ := invoke_of_ok hd hret
  rw [haction] at hmin hmax hinvoke
  obtain ⟨a, t, rfl⟩ := eq_two (Nat.le_antisymm hmax hmin)
  obtain rfl : t = s := Option.some.inj hs
  obtain ⟨-, -, -, r, hlooked, hentry⟩ :=
    Eff.wp_ok (startMonitoringSystem_wp a t (end_ [a, t]) env m) hinvoke
  have honce' : AtMostOnce r := by
    cases hlooked with
    | same => exact honce
    | discovered _ _ hreply =>
      have hzero := laws.discovered _ _ _ _ hreply
      exact honce.assign (by omega)
  cases hfind : r.find? t with
  | none =>
    rw [hfind] at hentry
    obtain ⟨rfl, -⟩ := hentry
    exact absurd hb (by decide)
  | some system =>
    rw [hfind] at hentry
    obtain ⟨-, hregistered⟩ := hentry
    obtain ⟨system', hfind', hmonitors⟩ := hregistered.monitors laws
    have hle : system.monitors ≤ 1 := honce' _ _ hfind
    exact ⟨system', hfind', by omega⟩

end

/-- **A registration is neither lost nor doubled**: after `startMonitoringSystem s` has succeeded,
    the monitor is registered exactly once with the object under `s`, as long as no event stops
    the monitoring, shuts `s` down or puts another object in its place. -/
theorem monitored_once {env : Env W} (laws : MonitorLaws env) {json_mode : Bool}
    {working_directory : String} {w : W} {events events' : List (Event W)} {m m' m'' : Machine W}
    {tokens : List String} {cmd : ControlCommand} {s : String}
    (hbefore : Run (Step env) (Machine.new json_mode working_directory w) events m)
    (hd : dispatched tokens = some cmd) (haction : cmd.action = .startMonitoringSystem)
    (hs : tokens[1]? = some s) (hret : processCommandline tokens env m = (.ok 0, m'))
    (hafter : Run (Along (Step env) (Leaves env s)) m' events' m'') :
    ∃ system, m''.registry.find? s = some system ∧ system.monitors = 1 := by
  have honce : AtMostOnce m.registry := atMostOnce_run laws hbefore
  have hstarted : Monitored s m'.registry := monitored_of_start laws honce hd haction hs hret
  exact Run.invariant (I := fun m => Monitored s m.registry) (Monitored.step laws) hafter hstarted

/-- The library of the examples counts registrations. -/
theorem answering_monitorLaws : MonitorLaws Env.answering where
  discovered x w system w' h := by
    obtain rfl := Except.ok.inj (Prod.mk.inj h).1
    rfl
  discoveredAll w systems w' h system hmem := by
    obtain rfl := Except.ok.inj (Prod.mk.inj h).1
    exact absurd hmem List.not_mem_nil
  registers system w := ⟨w, rfl⟩
  unregisters system w hsystem := ⟨w, congrArg (·, w) (if_neg hsystem)⟩
  refuses system w hsystem := ⟨_, w, congrArg (·, w) (if_pos hsystem)⟩

/-- The machine after these command lines, with a library that answers. -/
def answered (lines : List (List String)) : Machine Unit :=
  lines.foldl (fun m tokens => (processCommandline tokens Env.answering m).2)
    (Machine.new false "" ())

/-- Monitoring survives `discoverAllSystems`. -/
theorem monitored_once_discoverAllSystems : ∃ system,
    (answered [["discoverSystem", "s"], ["startMonitoringSystem", "s"],
      ["discoverAllSystems"]]).registry.find? "s" = some system ∧ system.monitors = 1 := by
  have hbefore : Run (Step Env.answering) (Machine.new false "" ())
      [.command ["discoverSystem", "s"]] (answered [["discoverSystem", "s"]]) :=
    Run.one (@Step.of_ok _ _ _ _ _ 0 (by decide) rfl)
  have hleaves : Leaves Env.answering "s"
      (answered [["discoverSystem", "s"], ["startMonitoringSystem", "s"]])
      (.command ["discoverAllSystems"]) := by
    intro cmd hd
    obtain rfl := Option.some.inj hd
    refine ⟨⟨?_, ?_⟩, ?_, ?_⟩
    · exact fun h => absurd h.1 (by decide)
    · exact fun h => absurd h.1 (by decide)
    · rintro system (⟨hf, -⟩ | ⟨hf, -⟩)
      · exact absurd hf (by decide)
      · exact absurd hf (by decide)
    · exact fun t system h => absurd h.1 nofun
  have hafter : Run (Along (Step Env.answering) (Leaves Env.answering "s"))
      (answered [["discoverSystem", "s"], ["startMonitoringSystem", "s"]])
      [.command ["discoverAllSystems"]] (answered [["discoverSystem", "s"],
        ["startMonitoringSystem", "s"], ["discoverAllSystems"]]) :=
    Run.one ⟨@Step.of_ok _ _ _ _ _ 0 (by decide) rfl, hleaves⟩
  exact monitored_once answering_monitorLaws hbefore
    (show dispatched ["startMonitoringSystem", "s"] = some _ from rfl) rfl rfl rfl hafter

/-- `discoverSystem s` replaces the monitored object by one without a monitor. -/
theorem not_monitored_once : ¬ ∀ (W : Type) (env : Env W), MonitorLaws env →
    ∀ (json_mode : Bool) (working_directory : String) (w : W) (events events' : List (Event W))
      (m m' m'' : Machine W) (tokens : List String) (cmd : ControlCommand) (s : String),
    Run (Step env) (Machine.new json_mode working_directory w) events m →
    dispatched tokens = some cmd → cmd.action = .startMonitoringSystem → tokens[1]? = some s →
    processCommandline tokens env m = (.ok 0, m') →
    Run (Along (Step env) (Spares s)) m' events' m'' →
    ∃ system, m''.registry.find? s = some system ∧ system.monitors = 1 := by
  intro h
  have hbefore : Run (Step Env.answering) (Machine.new false "" ())
      [.command ["discoverSystem", "s"]] (answered [["discoverSystem", "s"]]) :=
    Run.one (@Step.of_ok _ _ _ _ _ 0 (by decide) rfl)
  have hspares : Spares "s"
      (answered [["discoverSystem", "s"], ["startMonitoringSystem", "s"]])
      (.command ["discoverSystem", "s"]) := by
    intro cmd hd
    obtain rfl := Option.some.inj hd
    refine ⟨fun h => absurd h.1 (by decide), fun h => ?_⟩
    rcases h.2 with hf | ⟨hf, -⟩
    · exact absurd hf (by decide)
    · exact absurd hf (by decide)
  have hafter : Run (Along (Step Env.answering) (Spares "s"))
      (answered [["discoverSystem", "s"], ["startMonitoringSystem", "s"]])
      [.command ["discoverSystem", "s"]] (answered [["discoverSystem", "s"],
        ["startMonitoringSystem", "s"], ["discoverSystem", "s"]]) :=
    Run.one ⟨@Step.of_ok _ _ _ _ _ 0 (by decide) rfl, hspares⟩
  obtain ⟨system, hfind, hone⟩ := h Unit Env.answering answering_monitorLaws false "" () _ _ _ _ _
    ["startMonitoringSystem", "s"] _ "s" hbefore rfl rfl rfl rfl hafter
  obtain rfl : (⟨0, "s", [], 0⟩ : System) = system := Option.some.inj hfind
  exact absurd hone (by decide)

end FepControl
