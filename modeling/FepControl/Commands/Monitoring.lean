/-
  The commands that register the session's monitor with a system.

  A monitor that is registered twice with an object gets every log record twice.  So
  `startMonitoringSystem` unregisters the monitor first and swallows what that throws, since it was
  not registered as a rule; the registration itself is outside of any `try`.  `stopMonitoringSystem`
  unregisters in the same way, and its answer does not say whether there was anything to unregister.

  1. **The handlers** -- how many monitors an object has is a part of the object, and the reply of
     the library says it.  A call on the object in the registry changes that entry.

  2. **Unregistered, Registered** -- what the two calls do to the registry: they replace the object
     under its key by one with another number, or fail and leave it.

  3. **What the handlers do** -- the world between the two calls is the one that the first has left,
     whether it threw or not (`startMonitoringSystem_wp`, `stopMonitoringSystem_wp`).
-/
import FepControl.OnSystem

namespace FepControl

open Lib

variable {W : Type}

/-! ## The handlers -/

/-- `it->second.unregisterMonitoring(monitor)`: the object in the registry changes. -/
def unregisterMonitoring (it : Entry) : Control W Entry := do
  let monitors ← it.2.unregisterMonitoring
  let system := { it.2 with monitors := monitors }
  storeSystem it.1 system
  pure (it.1, system)

/-- `it->second.registerMonitoring(monitor)`. -/
def registerMonitoring (it : Entry) : Control W Entry := do
  let monitors ← it.2.registerMonitoring
  let system := { it.2 with monitors := monitors }
  storeSystem it.1 system
  pure (it.1, system)

/-- `try { it->second.unregisterMonitoring(monitor); } catch (const std::exception&) {}`. -/
def tryUnregisterMonitoring (it : Entry) : Control W Entry :=
  tryCatch (unregisterMonitoring it) fun _ => pure it

/-- `startMonitoringSystem`. -/
def startMonitoringSystem (first _last : TokenIterator) : Control W Bool := do
  let action ← first.deref
  let first ← first.next
  withSystem (← first.deref) action fun it => do
    let it ← tryUnregisterMonitoring it
    let _ ← registerMonitoring it
    writeNote action "monitoring: enabled"
    pure true

/-- `stopMonitoringSystem`. -/
def stopMonitoringSystem (first _last : TokenIterator) : Control W Bool := do
  let action ← first.deref
  let first ← first.next
  withSystem (← first.deref) action fun it => do
    let _ ← tryUnregisterMonitoring it
    writeNote action "monitoring: disabled"
    pure true

/-! ## What the handlers do -/

/-- The system of an entry after a swallowed `unregisterMonitoring`, and the world. -/
def Env.unregistered (env : Env W) (system : System) (w : W) : System × W :=
  match env.unregisterMonitoring system w with
  | (.ok monitors, w') => ({ system with monitors := monitors }, w')
  | (.error _, w') => (system, w')

/-- The registry after a swallowed `unregisterMonitoring` of the entry `it`, and what is left of
    its system. -/
inductive Unregistered (env : Env W) (it : Entry) (r : Registry) : System → Registry → Prop where
  | removed {monitors : Nat} {w w' : W}
      (h : env.unregisterMonitoring it.2 w = (.ok monitors, w')) :
      Unregistered env it r { it.2 with monitors := monitors }
        (r.assign it.1 { it.2 with monitors := monitors })
  | refused {what : String} {w w' : W}
      (h : env.unregisterMonitoring it.2 w = (.error what, w')) : Unregistered env it r it.2 r

/-- The registry after the registration of the monitor with what is left of the entry `it`. -/
inductive Registered (env : Env W) (it : Entry) (r : Registry) : Registry → Prop where
  | added {system : System} {r₁ : Registry} {monitors : Nat} {w w' : W}
      (h : Unregistered env it r system r₁)
      (hreply : env.registerMonitoring system w = (.ok monitors, w')) :
      Registered env it r (r₁.assign it.1 { system with monitors := monitors })

/-- A library call of `startMonitoringSystem` throws. -/
def StartThrows (env : Env W) (m : Machine W) (s : String) : Prop :=
  LookupThrows env m s ∨ ∃ system w, Finds env m s system w ∧
    ∃ what, (env.registerMonitoring (env.unregistered system w).1
      (env.unregistered system w).2).1 = .error what

/-- Unregistering goes on in either case, and has answered nothing. -/
theorem tryUnregisterMonitoring_wp (it : Entry) (env : Env W) (m : Machine W) :
    (tryUnregisterMonitoring it).wp env ⟨fun it' m' => KeepsModes m m' ∧ m'.written = m.written ∧
        it' = (it.1, (env.unregistered it.2 m.world).1) ∧
        m'.world = (env.unregistered it.2 m.world).2 ∧
        Unregistered env it m.registry it'.2 m'.registry,
      fun _ _ => False, fun _ _ => False⟩ m := by
  rw [tryUnregisterMonitoring, Eff.wp_tryCatch, unregisterMonitoring]
  unfold Eff.wp Env.unregistered
  rcases h : env.unregisterMonitoring it.2 m.world with ⟨what | monitors, w⟩
  · rw [Eff.bind_of_throws (show it.2.unregisterMonitoring env m = _ from fep3_throws h)]
    exact ⟨⟨rfl, rfl, rfl, rfl⟩, rfl, rfl, rfl, .refused h⟩
  · rw [Eff.bind_of_ok (show it.2.unregisterMonitoring env m = _ from fep3_ok h)]
    exact ⟨⟨rfl, rfl, rfl, rfl⟩, rfl, rfl, rfl, .removed h⟩

/-- Registering stores the object with its new number. -/
theorem registerMonitoring_ok {env : Env W} {it : Entry} {m : Machine W} {monitors : Nat} {w : W}
    (h : env.registerMonitoring it.2 m.world = (.ok monitors, w)) :
    ∃ m', registerMonitoring it env m = (.ok (it.1, { it.2 with monitors := monitors }), m') ∧
      KeepsModes m m' ∧ m'.written = m.written ∧
      m'.registry = m.registry.assign it.1 { it.2 with monitors := monitors } := by
  have hcall : it.2.registerMonitoring env m = _ := fep3_ok h
  refine ⟨_, (Eff.bind_of_ok hcall _).trans rfl, ⟨rfl, rfl, rfl, rfl⟩, rfl, rfl⟩

/-- A registration that fails stores nothing. -/
theorem registerMonitoring_throws {env : Env W} {it : Entry} {m : Machine W} {what : String}
    {w : W} (h : env.registerMonitoring it.2 m.world = (.error what, w)) :
    registerMonitoring it env m =
      (.throws what, m.called (.system it.2 .registerMonitoring) true w) := by
  have hcall : it.2.registerMonitoring env m = _ := fep3_throws h
  exact Eff.bind_of_throws hcall _

/-- A lookup that found a system throws no more. -/
theorem startThrows_iff {env : Env W} {m : Machine W} {s : String} {system : System} {w : W}
    (hthrows : ¬ LookupThrows env m s) (hfinds : Finds env m s system w) :
    StartThrows env m s ↔ ∃ what, (env.registerMonitoring (env.unregistered system w).1
      (env.unregistered system w).2).1 = .error what := by
  constructor
  · rintro (h | ⟨system', w', hfinds', h⟩)
    · exact absurd h hthrows
    · obtain ⟨rfl, rfl⟩ := hfinds.unique hfinds'
      exact h
  · exact fun h => .inr ⟨system, w, hfinds, h⟩

/-- **What `startMonitoringSystem` does**: it registers behind the unregistering, or lets the
    exception of the registration through. -/
theorem startMonitoringSystem_wp (a s : String) (last : TokenIterator) (env : Env W)
    (m : Machine W) : (startMonitoringSystem (begin_ [a, s]) last).wp env
      ⟨fun b m' => KeepsModes m m' ∧ Answers (Plain a b) m m' ∧ ¬ StartThrows env m s ∧
          OnEntry env m s (fun it b r r' => b = true ∧ Registered env it r r') b m'.registry,
        fun _ m' => KeepsModes m m' ∧ StartThrows env m s ∧ m'.written = m.written ∧
          ∃ r, Looked env s m r ∧
          (m'.registry = r ∨ ∃ system system', r.find? s = some system ∧
            Unregistered env (s, system) r system' m'.registry),
        fun _ _ => False⟩ m := by
  show (withSystem s a fun it => do
    let it ← tryUnregisterMonitoring it
    let _ ← registerMonitoring it
    writeNote a "monitoring: enabled"
    pure true : Control W Bool).wp env _ m
  refine withSystem_wp (fun m' h => ?_) (fun system m' h => ?_) (fun _ m' h h' => ?_)
  · refine ⟨h.modes, h.answers, ?_, .missing h _⟩
    rintro (hthrows | ⟨system, w, hfinds, _⟩)
    · exact h.returns hthrows
    · exact h.unknown system w hfinds
  · have hiff := startThrows_iff h.returns h.finds
    rw [Eff.wp_bind]
    refine Eff.wp_mono (tryUnregisterMonitoring_wp _ env m') (fun it m₁ h₁ => ?_)
      (fun _ _ h => h.elim) (fun _ _ h => h)
    obtain ⟨hmodes, hwritten, rfl, hworld, hunregistered⟩ := h₁
    have hkeeps := h.modes.trans hmodes
    show (registerMonitoring (s, (env.unregistered system m'.world).1) >>= _ :
      Control W Bool).wp env _ m₁
    unfold Eff.wp
    let it : Entry := (s, (env.unregistered system m'.world).1)
    rcases hreply : env.registerMonitoring it.2 m₁.world with ⟨what | monitors, w⟩
    · rw [Eff.bind_of_throws (registerMonitoring_throws hreply)]
      refine ⟨hkeeps.trans (KeepsModes.called _ _ _ _), hiff.mpr ⟨what, ?_⟩,
        hwritten.trans h.written, _, h.looked, .inr ⟨system, _, h.find, hunregistered⟩⟩
      rw [← hworld, hreply]
    · obtain ⟨m₂, hcall, hmodes₂, hwritten₂, hreg⟩ := registerMonitoring_ok hreply
      rw [Eff.bind_of_ok hcall]
      have hkeeps₂ := hkeeps.trans hmodes₂
      refine ⟨hkeeps₂.trans (KeepsModes.wrote m₂ _),
        ⟨_, ?_, Plain.note a "monitoring: enabled" _⟩, fun hstart => ?_,
        .found h ⟨rfl, ?_⟩⟩
      · show m₂.written ++ [⟨m₂.session.json_mode, _⟩] = _
        rw [hwritten₂, hwritten, h.written, hkeeps₂.json_mode]
      · obtain ⟨what, hwhat⟩ := hiff.mp hstart
        rw [← hworld, hreply] at hwhat
        exact absurd hwhat nofun
      · show Registered env (s, system) m'.registry m₂.registry
        rw [hreg]
        exact .added hunregistered hreply
  · exact ⟨h.toKeepsModes, .inl h', h.written, _, .same, .inl h.registry.symm⟩

/-- **What `stopMonitoringSystem` does**: it succeeds whenever the system is found. -/
theorem stopMonitoringSystem_wp (a s : String) (last : TokenIterator) (env : Env W)
    (m : Machine W) : (stopMonitoringSystem (begin_ [a, s]) last).wp env
      ⟨fun b m' => KeepsModes m m' ∧ Answers (Plain a b) m m' ∧ ¬ LookupThrows env m s ∧
          OnEntry env m s (fun it b r r' => b = true ∧ ∃ system, Unregistered env it r system r')
            b m'.registry,
        fun _ m' => Silent m m' ∧ LookupThrows env m s, fun _ _ => False⟩ m := by
  show (withSystem s a fun it => do
    let _ ← tryUnregisterMonitoring it
    writeNote a "monitoring: disabled"
    pure true : Control W Bool).wp env _ m
  refine withSystem_wp (fun m' h => ?_) (fun system m' h => ?_) (fun _ m' h h' => ⟨h, h'⟩)
  · exact ⟨h.modes, h.answers, h.returns, .missing h _⟩
  · rw [Eff.wp_bind]
    refine Eff.wp_mono (tryUnregisterMonitoring_wp _ env m') (fun it m₁ h₁ => ?_)
      (fun _ _ h => h.elim) (fun _ _ h => h)
    obtain ⟨hmodes, hwritten, -, -, hunregistered⟩ := h₁
    have hkeeps := h.modes.trans hmodes
    refine ⟨hkeeps.trans (KeepsModes.wrote m₁ _),
      ⟨_, ?_, Plain.note a "monitoring: disabled" _⟩, h.returns,
      .found h ⟨rfl, _, hunregistered⟩⟩
    show m₁.written ++ [⟨m₁.session.json_mode, _⟩] = _
    rw [hwritten, h.written, hkeeps.json_mode]

end FepControl
