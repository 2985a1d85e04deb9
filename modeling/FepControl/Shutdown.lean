/-
  Forgetting a system that has been shut down.

  A system that has been shut down is not there any more, and the tool should behave as if it had
  never been discovered.  The handlers see to it by erasing an entry of the registry behind the call
  of the library.

  1. **The commands** -- `shutdownSystem k`, and `setSystemState k shutdowned`, which goes on with
     it.  Both find the entry of `k` and erase the entry of the name that its object reports.

  2. **ShutDown** -- what they do to the registry: if none of their calls throws, the entry of the
     reported name is gone, and otherwise the registry is as before (`processCommandline_shutDown`).

  3. **Missing** -- only a discovery brings a key back.  So a name that is no key remains unknown in
     every run without one, as long as auto-discovery is off, and every command on it reports that
     the system is not connected (`Missing.step`, `Missing.reported`).

  4. **Forgotten** -- `k` is no key any more, the other entries are as before, and until there is a
     discovery every command on `k` is answered in this way.

  5. **Aliases** -- the system without a name is the entry of `-`, and reports the empty name.  Its
     entry survives its shutdown.  That is the only way for the commands to fail: a successful one
     forgets the system exactly if the object reports the name that it is stored under
     (`forgets_iff`).
-/
import FepControl.Addressing
import FepControl.Intact

namespace FepControl

open Lib

variable {W : Type}

/-! ## What the commands do -/

/-- The command line shuts the system `k` down. -/
inductive ShutdownOf (f : ActionFunction) : List String → String → Prop where
  | shutdownSystem (hf : f = .shutdownSystem) (a k : String) : ShutdownOf f [a, k] k
  | setSystemState (hf : f = .setSystemState) (a k : String) :
      ShutdownOf f [a, k, "shutdowned"] k

/-- The library calls of a shutdown. -/
def shutdownCalls (system : System) : List Call :=
  [.system system .getSystemName, .system system (.change .shutdown)]

/-- The library calls of the command. -/
def ActionFunction.shutdownCalls (f : ActionFunction) (system : System) : List Call :=
  if f = .setSystemState then
    .system system (.setSystemState .unloaded) :: FepControl.shutdownCalls system
  else FepControl.shutdownCalls system

/-- A shutdown succeeds, and erases the name the object reports, or a call of it throws. -/
inductive ShutDown (env : Env W) (m : Machine W) (calls : List Call) (system : System) :
    Bool → Machine W → Prop where
  | succeeded {m' : Machine W} (hcalls : ¬ env.AnyThrows m.world calls)
      (hregistry : m'.registry = m.registry.erase system.name) :
      ShutDown env m calls system true m'
  | failed {m' : Machine W} (hcalls : env.AnyThrows m.world calls)
      (hregistry : m'.registry = m.registry) : ShutDown env m calls system false m'

section

variable {env : Env W} {m : Machine W} {a k : String} {system : System}

/-- The calls of the library, and the erasing behind them. -/
theorem shutdownCall_eq (system : System) :
    (shutdownCall system : Control W Unit) = (do
      callAll (shutdownCalls system)
      eraseSystem system.name) := by
  rw [shutdownCall, System.getSystemName, System.call, shutdownCalls, callAll, callAll, callAll]
  simp only [bind_assoc, pure_bind]

/-- The rest of both handlers behind the lookup. -/
theorem shutdownRest_wp (a k : String) (system : System) (env : Env W) (m : Machine W) :
    (changeStateRest k shutdownCall a "shutdowned" "shutdown" (k, system)).wp env
      ⟨ShutDown env m (shutdownCalls system) system, fun _ _ => False, fun _ _ => False⟩ m := by
  rw [changeStateRest, Eff.wp_tryElse, shutdownCall_eq, bind_assoc, Eff.wp_bind]
  refine Eff.wp_mono (callAll_wp env _ m) (fun _ m₁ h => ?_) (fun e m₁ h => ?_)
    (fun _ _ h => h.elim)
  · obtain ⟨hsilent, hrun⟩ := h
    refine .succeeded (Env.not_anyThrows hrun) ?_
    show m₁.registry.erase system.name = m.registry.erase system.name
    rw [hsilent.registry]
  · obtain ⟨hsilent, hthrows⟩ := h
    exact .failed hthrows hsilent.registry.symm

/-- `shutdownSystem` on a key. -/
theorem shutdownSystem_shutDown (hfind : m.registry.find? k = some system) (tokens : List String)
    (last : TokenIterator) : (shutdownSystem (begin_ (a :: k :: tokens)) last).wp env
      ⟨ShutDown env m (shutdownCalls system) system, fun _ _ => False, fun _ _ => False⟩ m := by
  rw [shutdownSystem_eq]
  unfold Eff.wp
  rw [withSystem_found hfind]
  refine Eff.wp_mono (shutdownRest_wp a k system env (m.found k)) (fun b m' h => ?_)
    (fun _ _ h => h) (fun _ _ h => h)
  cases h with
  | succeeded hcalls hregistry => exact .succeeded hcalls hregistry
  | failed hcalls hregistry => exact .failed hcalls hregistry

/-- `setSystemState` to `shutdowned` on a key: the state is set, and then the system shut down. -/
theorem setSystemState_shutDown (hfind : m.registry.find? k = some system)
    (last : TokenIterator) : (setSystemState (begin_ [a, k, "shutdowned"]) last).wp env
      ⟨ShutDown env m (.system system (.setSystemState .unloaded) :: shutdownCalls system) system,
        fun _ _ => False, fun _ _ => False⟩ m := by
  rw [setSystemState_eq]
  unfold Eff.wp
  rw [withSystem_found hfind]
  show (setStateRest a k "shutdowned" last (k, system)).wp env _ (m.found k)
  have hstate : getStateFromString "shutdowned" = .unreachable := rfl
  rw [setStateRest, if_pos hstate, Eff.wp_tryCatch, System.call_eq, Eff.wp_bind]
  -- what the two parts of the list of calls do, the whole list does
  have hcalls : ∀ cs, env.AnyThrows m.world (.system system (.setSystemState .unloaded) :: cs) ↔
      ∀ w, env.run m.world [.system system (.setSystemState .unloaded)] = some w →
        env.AnyThrows w cs := by
    intro cs
    unfold Env.AnyThrows
    rw [← List.singleton_append, Env.run_append]
    cases env.run m.world [.system system (.setSystemState .unloaded)] with
    | none => exact iff_of_true rfl fun w h => absurd h (Option.some_ne_none w).symm
    | some w => exact ⟨fun h _ hw => Option.some.inj hw ▸ h, fun h => h w rfl⟩
  refine Eff.wp_mono (callAll_wp env _ (m.found k)) (fun _ m₁ h => ?_) (fun e m₁ h => ?_)
    (fun _ _ h => h.elim)
  · obtain ⟨hsilent, hrun⟩ := h
    have hregistry₁ : m₁.registry = m.registry := hsilent.registry.symm
    have hrun₁ : env.run m.world [.system system (.setSystemState .unloaded)] = some m₁.world :=
      hrun
    refine Eff.wp_mono (shutdownSystem_shutDown (hregistry₁ ▸ hfind) ["shutdowned"] last)
      (fun b m' h => ?_) (fun _ _ h => h.elim) (fun _ _ h => h)
    cases h with
    | succeeded hnone hregistry =>
      refine .succeeded (fun hthrows => hnone ?_) (hregistry₁ ▸ hregistry)
      exact (hcalls _).mp hthrows _ hrun₁
    | failed hthrows hregistry =>
      refine .failed ((hcalls _).mpr fun w hw => ?_) (hregistry.trans hregistry₁)
      obtain rfl := Option.some.inj (hrun₁.symm.trans hw)
      exact hthrows
  · obtain ⟨hsilent, hthrows⟩ := h
    refine .failed ((hcalls _).mpr fun w hw => ?_) hsilent.registry.symm
    exact absurd (hw.symm.trans hthrows) (Option.some_ne_none w)

/-- **What a shutdown does**: it returns 0 and erases the reported name, or 1 and nothing. -/
theorem processCommandline_shutDown (env : Env W) {tokens : List String} {cmd : ControlCommand}
    (hd : dispatched tokens = some cmd) (hshuts : ShutdownOf cmd.action tokens k)
    (hfind : m.registry.find? k = some system) :
    ∃ b m', processCommandline tokens env m = (.ok (if b then 0 else 1), m') ∧
      ShutDown env m (cmd.action.shutdownCalls system) system b m' := by
  have hinvoke : (cmd.action.invoke (begin_ tokens) (end_ tokens)).wp env
      ⟨ShutDown env m (cmd.action.shutdownCalls system) system, fun _ _ => False,
        fun _ _ => False⟩ m := by
    cases hshuts with
    | shutdownSystem hf a => rw [hf]; exact shutdownSystem_shutDown hfind [] (end_ [a, k])
    | setSystemState hf a => rw [hf]; exact setSystemState_shutDown hfind _
  unfold Eff.wp at hinvoke
  rcases hend : cmd.action.invoke (begin_ tokens) (end_ tokens) env m with ⟨b | _ | _, m'⟩
  · rw [hend] at hinvoke
    rw [processCommandline_dispatched hd, Eff.bind_of_ok hend]
    exact ⟨b, m', rfl, hinvoke⟩
  · rw [hend] at hinvoke
    exact hinvoke.elim
  · rw [hend] at hinvoke
    exact hinvoke.elim

end

/-! ## Staying unknown -/

/-- The name is no key, and is not going to be discovered. -/
structure Missing (k : String) (m : Machine W) : Prop where
  key : m.registry.find? k = none
  auto_discovery : m.session.auto_discovery_of_systems = false

/-- The event is no discovery and does not switch auto-discovery on. -/
def Undiscovering (_ : Machine W) : Event W → Prop
  | .command lineTokens => ∀ cmd, dispatched lineTokens = some cmd →
      cmd.action ≠ .discoverAllSystems ∧ cmd.action ≠ .discoverSystem ∧
        cmd.action ≠ .enableAutoDiscovery
  | _ => True

/-- Only the two discoveries bring in keys. -/
theorem RegistryAfter.missing {f : ActionFunction} {tokens : List String} {r r' : Registry}
    (h : RegistryAfter f tokens r r') (hall : f ≠ .discoverAllSystems) (hone : f ≠ .discoverSystem)
    {k : String} (hmissing : r.find? k = none) : r'.find? k = none := by
  have herases : ErasesOne r r' → r'.find? k = none := by
    rintro ⟨key, hkey, hothers⟩
    by_cases hk : k = key
    · subst hk
      rcases hkey with hkey | hkey
      · exact hkey
      · rw [hkey, hmissing]
    · rw [hothers k hk, hmissing]
  have hobjects : SameObjects r r' → r'.find? k = none := by
    intro hsame
    have hk := hsame k
    rw [hmissing] at hk
    exact Option.map_eq_none_iff.mp hk
  have hsame : r' = r → r'.find? k = none := fun hr => hr ▸ hmissing
  cases f
  case discoverAllSystems => exact absurd rfl hall
  case discoverSystem => exact absurd rfl hone
  case shutdownSystem => exact herases h
  case setSystemState =>
    have h : if tokens[2]? = some "shutdowned" then ErasesOne r r' else r' = r := h
    split at h
    · exact herases h
    · exact hsame h
  case startMonitoringSystem => exact hobjects h
  case stopMonitoringSystem => exact hobjects h
  all_goals exact hsame h

/-- Auto-discovery stays off, unless it is switched on. -/
theorem Switched.undiscovering {env : Env W} {m m' : Machine W} {f : ActionFunction}
    (h : Switched env m m' f) (hf : f ≠ .enableAutoDiscovery)
    (hauto : m.session.auto_discovery_of_systems = false) :
    m'.session.auto_discovery_of_systems = false := by
  cases f
  case enableAutoDiscovery => exact absurd rfl hf
  case disableAutoDiscovery => exact KeepsModes.auto_discovery (m := m.autoDiscovery false) h
  case enableJsonMode =>
    exact (KeepsModes.auto_discovery (m := m.jsonMode env true) h).trans hauto
  case disableJsonMode =>
    exact (KeepsModes.auto_discovery (m := m.jsonMode env false) h).trans hauto
  all_goals exact (KeepsModes.auto_discovery (m := m) h).trans hauto

/-- One event keeps the name unknown. -/
theorem Missing.step {env : Env W} {k : String} (m : Machine W) (event : Event W)
    (m' : Machine W) (h : Missing k m) (hstep : Along (Step env) Undiscovering m event m') :
    Missing k m' := by
  obtain ⟨hstep, hundiscovering⟩ := hstep
  cases hstep with
  | record => exact ⟨h.key, h.auto_discovery⟩
  | elsewhere => exact ⟨h.key, h.auto_discovery⟩
  | @command _ tokens hne hround =>
    have hchanges : ∀ {cmd r'}, dispatched tokens = some cmd →
        Changes env m cmd.action tokens r' → r'.find? k = none := by
      intro cmd r' hd hchanges
      obtain ⟨hall, hone, -⟩ := hundiscovering cmd hd
      exact (hchanges.registryAfter h.auto_discovery).missing hall hone h.key
    cases processed hne hround with
    | rejected hd text => exact ⟨h.key, h.auto_discovery⟩
    | returned hd hreturned =>
      exact ⟨hchanges hd hreturned.registry,
        hreturned.modes.undiscovering (hundiscovering _ hd).2.2 h.auto_discovery⟩
    | caught hd hthrown e =>
      exact ⟨hchanges hd hthrown.registry, hthrown.modes.auto_discovery.trans h.auto_discovery⟩

/-- A command on an unknown name reports that its system is not connected. -/
theorem Missing.reported {k : String} {m : Machine W} (h : Missing k m) {tokens : List String}
    {cmd : ControlCommand} (hd : dispatched tokens = some cmd)
    (hsystem : cmd.Declares 0 "system name") (hdiscover : cmd.action ≠ .discoverSystem)
    (hk : tokens[1]? = some k) (env : Env W) :
    processCommandline tokens env m = (.ok 1, m.missed k cmd.name) := by
  obtain ⟨s, arguments, rest, rfl, hform, -⟩ :=
    processCommandline_looksUp (fun _ => True) hd hsystem hdiscover (W := W)
  obtain rfl : s = k := Option.some.inj hk
  rw [hform, Eff.bind_of_ok (withSystem_missing h.auto_discovery h.key env cmd.name rest)]
  rfl

/-! ## Forgetting -/

/-- The system `k` is forgotten: it is no key, the other entries are as before, and with
    auto-discovery off every command on it, before a discovery, reports that it is not
    connected. -/
structure Forgotten (env : Env W) (k : String) (m m' : Machine W) : Prop where
  key : m'.registry.find? k = none
  others : ∀ k', k' ≠ k → m'.registry.find? k' = m.registry.find? k'
  later : m'.session.auto_discovery_of_systems = false → ∀ events m'',
    Run (Along (Step env) Undiscovering) m' events m'' → ∀ tokens cmd,
      dispatched tokens = some cmd → cmd.Declares 0 "system name" →
        cmd.action ≠ .discoverSystem → tokens[1]? = some k →
          processCommandline tokens env m'' = (.ok 1, m''.missed k cmd.name)

/-- The command returns; if it succeeds the system is forgotten, and if it fails the registry is as
    before. -/
def Forgets (env : Env W) (k : String) (m : Machine W) (tokens : List String) : Prop :=
  ∃ code m', processCommandline tokens env m = (.ok code, m') ∧
    (code = 0 → Forgotten env k m m') ∧ (code ≠ 0 → m'.registry = m.registry)

/-- **Erasing the key forgets the system**: no later event but a discovery brings it back. -/
theorem Forgotten.of_erase {env : Env W} {k : String} {m m' : Machine W}
    (hregistry : m'.registry = m.registry.erase k) : Forgotten env k m m' := by
  have hkey : m'.registry.find? k = none := by
    rw [hregistry, SortedMap.find?_erase, if_pos rfl]
  refine ⟨hkey, fun k' hk' => ?_,
    fun hauto events m'' hrun tokens cmd hd hsystem hdiscover hk => ?_⟩
  · rw [hregistry, SortedMap.find?_erase, if_neg hk']
  · have hmissing : Missing k m'' := Run.invariant Missing.step hrun ⟨hkey, hauto⟩
    exact hmissing.reported hd hsystem hdiscover hk env

/-- **A system that is shut down is forgotten** if and only if its object reports the name that is
    its key, or the shutdown fails. -/
theorem forgets_iff {env : Env W} {m : Machine W} {tokens : List String} {cmd : ControlCommand}
    (hd : dispatched tokens = some cmd) {k : String} (hshuts : ShutdownOf cmd.action tokens k)
    {system : System} (hfind : m.registry.find? k = some system) :
    Forgets env k m tokens ↔
      system.name = k ∨ env.AnyThrows m.world (cmd.action.shutdownCalls system) := by
  obtain ⟨b, m', hret, hshut⟩ := processCommandline_shutDown env hd hshuts hfind
  constructor
  · rintro ⟨code, m'', hret', hsuccess, -⟩
    obtain ⟨hcode, rfl⟩ := Prod.mk.inj (hret.symm.trans hret')
    obtain rfl := Outcome.ok.inj hcode
    cases hshut with
    | failed hcalls hregistry => exact .inr hcalls
    | succeeded hcalls hregistry =>
      -- the key is gone, so it is the erased name
      have hkey := (hsuccess rfl).key
      rw [hregistry, SortedMap.find?_erase] at hkey
      by_cases hname : k = system.name
      · exact .inl hname.symm
      · rw [if_neg hname, hfind] at hkey
        exact absurd hkey (Option.some_ne_none _)
  · intro h
    refine ⟨_, m', hret, fun hcode => ?_, fun hcode => ?_⟩
    · cases hshut with
      | failed hcalls hregistry => exact absurd hcode (by decide)
      | succeeded hcalls hregistry =>
        rcases h with rfl | hthrows
        · exact .of_erase hregistry
        · exact absurd hthrows hcalls
    · cases hshut with
      | failed hcalls hregistry => exact hregistry
      | succeeded hcalls hregistry => exact absurd rfl hcode

/-- The shutdown of a system with a name. -/
theorem forgets_named :
    let m := (processCommandline ["discoverSystem", "s"] Env.answering (Machine.new false "" ())).2
    Forgets Env.answering "s" m ["setSystemState", "s", "shutdowned"] := by
  intro m
  obtain ⟨cmd, hd⟩ : ∃ cmd, dispatched ["setSystemState", "s", "shutdowned"] = some cmd := ⟨_, rfl⟩
  have hcmd := Option.some.inj hd
  have hshuts : ShutdownOf cmd.action ["setSystemState", "s", "shutdowned"] "s" :=
    hcmd ▸ .setSystemState rfl "setSystemState" "s"
  have hfind : m.registry.find? "s" = some ⟨0, "s", [], 0⟩ := rfl
  exact (forgets_iff hd hshuts hfind).mpr (.inl rfl)

/-- The unnamed system is stored under `-`, and is shut down. -/
theorem not_forgets : ¬ ∀ (W : Type) (env : Env W) (json_mode : Bool)
    (working_directory : String) (w : W) (events : List (Event W)) (m : Machine W),
    Run (Step env) (Machine.new json_mode working_directory w) events m →
    ∀ (tokens : List String) (cmd : ControlCommand) (k : String) (system : System),
    dispatched tokens = some cmd → ShutdownOf cmd.action tokens k →
    m.registry.find? k = some system → Forgets env k m tokens := by
  intro h
  let unnamed : System := ⟨0, "", [], 0⟩
  let env := Env.discoversAll [unnamed]
  let m := (processCommandline ["discoverAllSystems"] env (Machine.new false "" ())).2
  have hrun : Run (Step env) (Machine.new false "" ()) [.command ["discoverAllSystems"]] m :=
    Run.one (@Step.of_ok _ _ _ _ _ 0 (by decide) rfl)
  obtain ⟨cmd, hd⟩ : ∃ cmd, dispatched ["shutdownSystem", "-"] = some cmd := ⟨_, rfl⟩
  have hcmd := Option.some.inj hd
  obtain ⟨code, m', hret, hsuccess, -⟩ := h Unit env false "" () _ m hrun _ cmd "-" unnamed hd
    (hcmd ▸ .shutdownSystem rfl "shutdownSystem" "-") rfl
  have hcode : (Outcome.ok 0 : Outcome String Stop Int) = .ok code := (Prod.mk.inj hret).1
  obtain rfl := Outcome.ok.inj hcode
  have hkey := (hsuccess rfl).key
  rw [← (Prod.mk.inj hret).2] at hkey
  exact absurd hkey (by decide)

end FepControl
