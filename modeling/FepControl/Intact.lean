/-
  What a command leaves of the session.

  A command that has failed should not have done half of its work.  The tool has no means to undo
  anything: what it has assigned is assigned.  So all depends on the order in which a handler does
  things, and the handlers do what can fail first.  The one exception is the discovery that a lookup
  makes on the way, which is why it is excluded here.

  1. **Failures** -- without auto-discovery, a command line that returns a code other than 0 has
     changed neither the registry nor a mode nor the used properties.  A handler does its work in
     steps, any of which may throw; what it changes of the session, it changes behind the last of
     them (`Careful`).

  2. **Careful** -- it is closed under the constructs of the code where nothing that may fail stands
     behind a change (`Succeeds`), and a handler that changes nothing but the name used last is
     careful anyway (`of_confined`).

  3. **Successes** -- a success changes the registry only in a discovery and in a shutdown, and a
     shutdown erases one entry at most.  Monitoring leaves every key with its object; what changes
     is how many monitors the object knows (`RegistryAfter`).

  4. **failed_intact** -- both together, for every command line and every library.
-/
import FepControl.Footprint
import FepControl.Runs

namespace FepControl

open Lib

variable {W α : Type}

/-! ## Careful handlers -/

/-- The session is as it was, but for the system that the completion remembers. -/
structure Intact (m m' : Machine W) : Prop where
  registry : m'.registry = m.registry
  json_mode : m'.session.json_mode = m.session.json_mode
  monitor_json_mode : m'.session.monitor_json_mode = m.session.monitor_json_mode
  auto_discovery : m'.session.auto_discovery_of_systems = m.session.auto_discovery_of_systems
  used_properties : m'.session.used_properties = m.session.used_properties

theorem Intact.refl (m : Machine W) : Intact m m := ⟨rfl, rfl, rfl, rfl, rfl⟩

theorem Intact.trans {m₁ m₂ m₃ : Machine W} (h : Intact m₁ m₂) (h' : Intact m₂ m₃) :
    Intact m₁ m₃ where
  registry := h'.registry.trans h.registry
  json_mode := h'.json_mode.trans h.json_mode
  monitor_json_mode := h'.monitor_json_mode.trans h.monitor_json_mode
  auto_discovery := h'.auto_discovery.trans h.auto_discovery
  used_properties := h'.used_properties.trans h.used_properties

/-- A part that only tells the completion which system was used leaves the session intact. -/
theorem Confined.intact {C : Call → Prop} {c : Control W α}
    (h : Confined (fun _ => True) C Usual c) (env : Env W) (m : Machine W) :
    c.wp env (Eff.framePost Intact m) m := by
  refine Eff.Made.frame Intact.refl Intact.trans (fun α c hc env m _ => ?_) h trivial m
  cases hc with
  | @call c _ =>
    unfold Eff.wp FepControl.fep3
    rcases env.fep3 c m.world with ⟨_ | _, w⟩
    · exact ⟨rfl, rfl, rfl, rfl, rfl⟩
    · exact ⟨rfl, rfl, rfl, rfl, rfl⟩
  | write => exact ⟨rfl, rfl, rfl, rfl, rfl⟩
  | update hf =>
    obtain ⟨name, rfl⟩ := hf
    exact ⟨rfl, rfl, rfl, rfl, rfl⟩
  | session => exact .refl m
  | read => exact .refl m

/-- The part leaves the session intact if it throws, and if it returns `false`. -/
def Careful (c : Control W Bool) : Prop :=
  ∀ env m, c.wp env ⟨fun b m' => b = false → Intact m m', fun _ m' => Intact m m',
    fun _ _ => True⟩ m

/-- The part returns `true`, whatever else it does. -/
def Succeeds (c : Control W Bool) : Prop := ∀ env m, ∃ m', c env m = (.ok true, m')

namespace Careful

theorem of_confined {C : Call → Prop} {c : Control W Bool}
    (h : Confined (fun _ => True) C Usual c) : Careful c := fun env m =>
  Eff.wp_mono (h.intact env m) (fun _ _ h' _ => h') (fun _ _ h' => h') (fun _ _ _ => trivial)

/-- What cannot fail is careful. -/
theorem of_succeeds {c : Control W Bool} (h : Succeeds c) : Careful c := by
  intro env m
  obtain ⟨m', hm'⟩ := h env m
  unfold Eff.wp
  rw [hm']
  exact fun hb => absurd hb (by decide)

/-- A step that leaves the session intact may throw. -/
theorem bind {C : Call → Prop} {c : Control W α} {f : α → Control W Bool}
    (hc : Confined (fun _ => True) C Usual c) (hf : ∀ a, Careful (f a)) : Careful (c >>= f) := by
  intro env m
  rw [Eff.wp_bind]
  refine Eff.wp_mono (hc.intact env m) (fun a m' h => ?_) (fun _ _ h => h) (fun _ _ _ => trivial)
  exact Eff.wp_mono (hf a env m') (fun _ _ h' hb => h.trans (h' hb)) (fun _ _ h' => h.trans h')
    (fun _ _ h' => h')

/-- A `try` is careful if its handler is, for whatever was done in it. -/
theorem tryCatch {c : Control W Bool} {h : String → Control W Bool} (hc : Careful c)
    (hh : ∀ e, Careful (h e)) : Careful (tryCatch c h) := by
  intro env m
  rw [Eff.wp_tryCatch]
  refine Eff.wp_mono (hc env m) (fun _ _ h => h) (fun e m' h => ?_) (fun _ _ h => h)
  exact Eff.wp_mono (hh e env m') (fun _ _ h' hb => h.trans (h' hb)) (fun _ _ h' => h.trans h')
    (fun _ _ h' => h')

/-- A handler that reports a failure and returns. -/
theorem answer (r : Response) (b : Bool) : Careful (do write r; pure b : Control W Bool) :=
  of_confined (C := fun _ => True) (.answer r b)

/-- Behind `getParticipant`. -/
theorem participantOf {a s p : String} {rest : ParticipantProxy → Control W Bool}
    (hrest : ∀ part, Careful (rest part)) (it : Entry) : Careful (do
      match ← participantOf a s p it with
      | none => pure false
      | some part => rest part : Control W Bool) := by
  have hlookup : Confined (fun _ => True) (fun _ => True) Usual
      (FepControl.participantOf a s p it : Control W (Option ParticipantProxy)) :=
    .tryCatch (.andThen (.fep3 trivial) fun _ => .pure _) fun _ => .answer _ _
  refine bind hlookup fun part => ?_
  cases part with
  | none => exact of_confined (C := fun _ => True) (.pure false)
  | some part => exact hrest part

end Careful

/-! ## The handlers that change the session -/

/-- A shutdown erases behind its last call. -/
theorem shutdownRest_careful (a s : String) (it : Entry) :
    Careful (changeStateRest s shutdownCall a "shutdowned" "shutdown" it : Control W Bool) := by
  intro env m
  have hcalls : Confined (fun _ => True) (fun _ => True) Usual
      (callAll [.system it.2 .getSystemName, .system it.2 (.change .shutdown)] : Control W Unit) :=
    .callAll fun _ _ => trivial
  have hform : (do shutdownCall it.2; pure none : Control W (Option Bool)) = (do
      callAll [.system it.2 .getSystemName, .system it.2 (.change .shutdown)]
      eraseSystem it.2.name
      pure none) := by
    rw [shutdownCall, System.getSystemName, System.call]
    simp only [callAll, bind_assoc, pure_bind]
  rw [changeStateRest, hform, Eff.wp_tryElse, Eff.wp_bind]
  refine Eff.wp_mono (hcalls.intact env m) (fun _ m' h => ?_) (fun e m' h => ?_)
    (fun _ _ _ => trivial)
  · exact fun hb => absurd hb (by decide)
  · exact fun _ => h.trans ⟨rfl, rfl, rfl, rfl, rfl⟩

/-- The entry is erased behind the last call. -/
theorem setStateInlined_careful (a s state_string : String) (it : Entry) :
    Careful (setStateInlined a s state_string it : Control W Bool) := by
  have hused : Confined (fun _ => True) (fun _ => True) Usual
      (setLastSystemNameUsed s : Control W Unit) := .setLastSystemNameUsed (fun _ h => h) s
  have hcall : ∀ state, Confined (fun _ => True) (fun _ => True) Usual
      (it.2.call (.setSystemState state) : Control W Unit) := fun state => .call trivial
  refine Careful.tryCatch ?_ fun _ => .answer _ _
  split
  · exact Careful.bind (hcall _) fun _ => Careful.bind hused fun _ => shutdownRest_careful a s it
  · refine Careful.bind (hcall _) fun _ => Careful.bind hused fun _ => ?_
    exact .of_confined ((systemStateRest_confined a s it).andThen fun _ => .pure true)

/-- A property is remembered as used behind the answer. -/
theorem useProperty_succeeds (p path : String) (r : Response) :
    Succeeds (do write r; update (useProperty p path); pure true : Control W Bool) :=
  fun _ _ => ⟨_, rfl⟩

theorem writeProperty_careful (a p path : String) (part : ParticipantProxy) :
    Careful (writeProperty a p path part : Control W Bool) := by
  refine Careful.bind (C := fun _ => True) .session fun session => ?_
  split
  · exact Careful.bind (C := fun _ => True) (.formatPropertyJson (fun _ => trivial) _ _) fun _ =>
      .of_succeeds (useProperty_succeeds p path _)
  · exact Careful.bind (C := fun _ => True) (.formatProperty (fun _ => trivial) _ _) fun _ =>
      .of_succeeds (useProperty_succeeds p path _)

/-- The property is used once it has been read. -/
theorem getParticipantProperty_careful (a s p path : String) (last : TokenIterator) :
    ∃ rest, (getParticipantProperty (begin_ [a, s, p, path]) last : Control W Bool) =
      withSystem s a rest ∧ ∀ it, Careful (rest it) := by
  refine ⟨_, withParticipant_eq a s p _, Careful.participantOf fun part =>
    Careful.tryCatch ?_ fun _ => .answer _ _⟩
  refine Careful.bind (C := fun _ => True) (.fep3 trivial) fun conf => ?_
  cases conf with
  | some _ => exact writeProperty_careful a p path part
  | none => exact .answer _ _

/-- The property is used once it has been set. -/
theorem setParticipantProperty_careful (a s p path v : String) (last : TokenIterator) :
    ∃ rest, (setParticipantProperty (begin_ [a, s, p, path, v]) last : Control W Bool) =
      withSystem s a rest ∧ ∀ it, Careful (rest it) := by
  refine ⟨_, withParticipant_eq a s p _, Careful.participantOf fun part =>
    Careful.tryCatch ?_ fun _ => .answer _ _⟩
  refine Careful.bind (C := fun _ => True) (.fep3 trivial) fun conf => ?_
  cases conf with
  | none => exact .answer _ _
  | some _ =>
    refine Careful.bind (C := fun _ => True) (.fep3 trivial) fun prop => ?_
    cases prop with
    | none => exact .answer _ _
    | some _ =>
      refine Careful.bind (C := fun _ => True) (.fep3 trivial) fun type => ?_
      refine Careful.bind (C := fun _ => True) (.participantCall trivial) fun _ => ?_
      exact .of_succeeds fun _ _ => ⟨_, rfl⟩

/-! ## Every handler -/

/-- The handler leaves the session intact when it returns `false`. -/
def FailsIntact (c : Control W Bool) (m : Machine W) : Prop :=
  ∀ env m', c env m = (.ok false, m') → Intact m m'

theorem Careful.failsIntact {c : Control W Bool} (h : Careful c) (m : Machine W) :
    FailsIntact c m := fun env _ hret => Eff.wp_ok (h env m) hret rfl

/-- A handler that returns nothing but `true`. -/
theorem failsIntact_of_true {c : Control W Bool} {m : Machine W}
    (h : ∀ env b m', c env m = (.ok b, m') → b = true) : FailsIntact c m :=
  fun env m' hret => absurd (h env false m' hret) (by decide)

/-- Without auto-discovery a lookup only tells the completion which system was used. -/
theorem withSystem_failsIntact {m : Machine W}
    (hauto : m.session.auto_discovery_of_systems = false) (s action : String)
    {rest : Entry → Control W Bool} (hrest : ∀ it m', FailsIntact (rest it) m') :
    FailsIntact (withSystem s action rest) m := by
  intro env m' hret
  rw [withSystem, Eff.bind_apply, lookup_eq, hauto] at hret
  cases hfind : m.registry.find? s with
  | none =>
    rw [connected_missing hfind] at hret
    obtain rfl : m.missed s action = m' := (Prod.mk.inj hret).2
    exact ⟨rfl, rfl, rfl, rfl, rfl⟩
  | some system =>
    rw [connected_found hfind] at hret
    have hfound : Intact m (m.found s) := ⟨rfl, rfl, rfl, rfl, rfl⟩
    exact hfound.trans (hrest (s, system) (m.found s) env m' hret)

/-- Monitoring returns nothing but `true`, once its system is found. -/
theorem monitoring_failsIntact {m : Machine W} {α : Type} {c : Control W α}
    {r : Response} : FailsIntact (do let _ ← c; write r; pure true : Control W Bool) m := by
  refine failsIntact_of_true fun env b m' hret => ?_
  rw [Eff.bind_apply] at hret
  rcases hc : c env m with ⟨a | e | d, m₁⟩
  · rw [hc] at hret
    exact (Outcome.ok.inj (Prod.mk.inj hret).1).symm
  · rw [hc] at hret
    cases (Prod.mk.inj hret).1
  · rw [hc] at hret
    cases (Prod.mk.inj hret).1

/-- Most commands on a system only tell the completion which system was used. -/
def ActionFunction.usual : ActionFunction → Bool
  | .getParticipantProperty | .setParticipantProperty | .shutdownSystem | .setSystemState
  | .startMonitoringSystem | .stopMonitoringSystem => false
  | _ => true

theorem Updates.usual {f : ActionFunction} (hf : f.usual = true) {u : Session → Session}
    (h : Updates f u) : Usual u := by
  rcases h with h | h
  · exact h
  · cases f <;> first | exact absurd hf (by decide) | exact h.elim

/-- The handlers around a lookup, without auto-discovery. -/
theorem looksUp_failsIntact {m : Machine W}
    (hauto : m.session.auto_discovery_of_systems = false) {f : ActionFunction}
    (hf : f.looksUp = true) {tokens : List String} (hmin : f.reads.1 ≤ tokens.length)
    (hmax : tokens.length ≤ f.reads.2) :
    FailsIntact (f.invoke (begin_ tokens) (end_ tokens)) m := by
  cases husual : f.usual with
  | true =>
    obtain ⟨a, s, arguments, rfl, rest, hform, hrest⟩ := looksUp_invoke (fun _ => True) hf hmin hmax
    rw [hform]
    refine withSystem_failsIntact hauto s a fun it m' => Careful.failsIntact ?_ m'
    exact .of_confined ((hrest it).mono (fun _ h => h) fun _ => Updates.usual husual)
  | false =>
    cases f
    case shutdownSystem =>
      obtain ⟨a, s, rfl⟩ := eq_two (Nat.le_antisymm hmax hmin)
      exact withSystem_failsIntact hauto s a fun it => (shutdownRest_careful a s it).failsIntact
    case setSystemState =>
      obtain ⟨a, s, state_string, rfl⟩ := eq_three (Nat.le_antisymm hmax hmin)
      show FailsIntact (setSystemState _ _) m
      rw [setSystemState_inlined]
      exact withSystem_failsIntact hauto s a fun it =>
        (setStateInlined_careful a s state_string it).failsIntact
    case startMonitoringSystem =>
      obtain ⟨a, s, rfl⟩ := eq_two (Nat.le_antisymm hmax hmin)
      refine withSystem_failsIntact hauto s a fun it m' => ?_
      -- grouped as `monitoring_failsIntact` has it: one step, and the answer
      have hform : (do
          let it ← tryUnregisterMonitoring it
          let _ ← registerMonitoring it
          writeNote a "monitoring: enabled"
          pure true : Control W Bool) = (do
            let _ ← tryUnregisterMonitoring it >>= registerMonitoring
            writeNote a "monitoring: enabled"
            pure true) := by rw [bind_assoc]
      show FailsIntact (do
        let it ← tryUnregisterMonitoring it
        let _ ← registerMonitoring it
        writeNote a "monitoring: enabled"
        pure true : Control W Bool) m'
      rw [hform]
      exact monitoring_failsIntact
    case stopMonitoringSystem =>
      obtain ⟨a, s, rfl⟩ := eq_two (Nat.le_antisymm hmax hmin)
      exact withSystem_failsIntact hauto s a fun it m' => monitoring_failsIntact
    case getParticipantProperty =>
      obtain ⟨a, s, p, path, rfl⟩ := eq_four (Nat.le_antisymm hmax hmin)
      obtain ⟨rest, hform, hrest⟩ :=
        getParticipantProperty_careful (W := W) a s p path (end_ [a, s, p, path])
      show FailsIntact (getParticipantProperty _ (end_ [a, s, p, path])) m
      rw [hform]
      exact withSystem_failsIntact hauto s a fun it => (hrest it).failsIntact
    case setParticipantProperty =>
      obtain ⟨a, s, p, path, v, rfl⟩ := eq_five (Nat.le_antisymm hmax hmin)
      obtain ⟨rest, hform, hrest⟩ :=
        setParticipantProperty_careful (W := W) a s p path v (end_ [a, s, p, path, v])
      show FailsIntact (setParticipantProperty _ (end_ [a, s, p, path, v])) m
      rw [hform]
      exact withSystem_failsIntact hauto s a fun it => (hrest it).failsIntact
    all_goals exact absurd husual (by decide)

theorem failsIntact_of_eq {c : Control W Bool} {m : Machine W}
    (h : ∀ env, ∃ m', c env m = (.ok true, m')) : FailsIntact c m := by
  refine failsIntact_of_true fun env b m' hret => ?_
  obtain ⟨m₁, hm₁⟩ := h env
  exact (Outcome.ok.inj (Prod.mk.inj (hm₁.symm.trans hret)).1).symm

/-- A failure to change the working directory changes nothing of the session. -/
theorem setCurrentWorkingDirectory_failsIntact (a d : String) (last : TokenIterator)
    (m : Machine W) : FailsIntact (setCurrentWorkingDirectory (begin_ [a, d]) last) m := by
  intro env m' hret
  have hset : setCurrentWorkingDirectory (begin_ [a, d]) last env m =
      (if (env.setWorkingDirectory m.working_directory (env.makeCanonical d)).1 = .OK then do
        writeAttribute a ("working_directory", env.makeCanonical d)
        pure true
      else do
        writeError a ("cannot set working directory to '" ++ env.makeCanonical d ++ "'")
          .filesystem_error (resolveFilesystemErrorCode
            (env.setWorkingDirectory m.working_directory (env.makeCanonical d)).1)
        pure false : Control W Bool) env { m with working_directory :=
          (env.setWorkingDirectory m.working_directory (env.makeCanonical d)).2 } := rfl
  rw [hset] at hret
  split at hret
  · cases Outcome.ok.inj (Prod.mk.inj hret).1
  · obtain rfl := (Prod.mk.inj hret).2
    exact ⟨rfl, rfl, rfl, rfl, rfl⟩

/-- **Every handler** leaves the session intact when it returns `false`. -/
theorem invoke_failsIntact {m : Machine W} (hauto : m.session.auto_discovery_of_systems = false)
    {f : ActionFunction} (hquit : f ≠ .quit) {tokens : List String}
    (hmin : f.reads.1 ≤ tokens.length) (hmax : tokens.length ≤ f.reads.2) :
    FailsIntact (f.invoke (begin_ tokens) (end_ tokens)) m := by
  cases hf : f.looksUp with
  | true => exact looksUp_failsIntact hauto hf hmin hmax
  | false =>
    cases f
    case discoverAllSystems =>
      obtain ⟨a, rfl⟩ := eq_one (Nat.le_antisymm hmax hmin)
      -- discovery never returns `false`: it throws instead
      exact failsIntact_of_true fun env b m' hret =>
        (Eff.wp_ok (discoverAllSystems_wp a (end_ [a]) env m) hret).1
    case discoverSystem =>
      obtain ⟨a, s, rfl⟩ := eq_two (Nat.le_antisymm hmax hmin)
      exact failsIntact_of_true fun env b m' hret =>
        (Eff.wp_ok (discoverSystem_wp a s (end_ [a, s]) env m) hret).1
    case setCurrentWorkingDirectory =>
      obtain ⟨a, d, rfl⟩ := eq_two (Nat.le_antisymm hmax hmin)
      exact setCurrentWorkingDirectory_failsIntact a d (end_ [a, d]) m
    case getCurrentWorkingDirectory =>
      obtain ⟨a, rfl⟩ := eq_one (Nat.le_antisymm hmax hmin)
      exact failsIntact_of_eq fun env => ⟨_, rfl⟩
    case help =>
      rcases Nat.lt_or_ge tokens.length 2 with hlt | hge
      · obtain ⟨a, rfl⟩ := eq_one (Nat.le_antisymm (Nat.le_of_lt_succ hlt) hmin)
        exact failsIntact_of_eq fun env => ⟨_, help_all a env m⟩
      · obtain ⟨a, token, rfl⟩ := eq_two (Nat.le_antisymm hmax hge)
        intro env m' hret
        have hret : help (begin_ [a, token]) (end_ [a, token]) env m = (.ok false, m') := hret
        rw [help_command] at hret
        cases hfind : findCommand token with
        | none =>
          rw [hfind] at hret
          obtain rfl := (Prod.mk.inj hret).2
          exact .refl m
        | some cmd =>
          rw [hfind] at hret
          cases Outcome.ok.inj (Prod.mk.inj hret).1
    case enableAutoDiscovery =>
      obtain ⟨a, rfl⟩ := eq_one (Nat.le_antisymm hmax hmin)
      exact failsIntact_of_eq fun env => ⟨_, enableAutoDiscovery_eq a (end_ [a]) env m⟩
    case disableAutoDiscovery =>
      obtain ⟨a, rfl⟩ := eq_one (Nat.le_antisymm hmax hmin)
      exact failsIntact_of_eq fun env => ⟨_, disableAutoDiscovery_eq a (end_ [a]) env m⟩
    case enableJsonMode =>
      obtain ⟨a, rfl⟩ := eq_one (Nat.le_antisymm hmax hmin)
      exact failsIntact_of_eq fun env => ⟨_, enableJsonMode_eq a (end_ [a]) env m⟩
    case disableJsonMode =>
      obtain ⟨a, rfl⟩ := eq_one (Nat.le_antisymm hmax hmin)
      exact failsIntact_of_eq fun env => ⟨_, disableJsonMode_eq a (end_ [a]) env m⟩
    case quit => exact absurd rfl hquit
    all_goals exact absurd hf (by decide)

/-! ## Successes -/

/-- The object of an entry, without the monitors that are registered with it. -/
def System.object (system : System) : System := { system with monitors := 0 }

/-- The same keys, with the same objects. -/
def SameObjects (r r' : Registry) : Prop :=
  ∀ k, (r'.find? k).map System.object = (r.find? k).map System.object

/-- One entry at most is gone, and the others are as they were. -/
def ErasesOne (r r' : Registry) : Prop :=
  ∃ key, (r'.find? key = none ∨ r'.find? key = r.find? key) ∧
    ∀ k, k ≠ key → r'.find? k = r.find? k

/-- The registry after a command that has succeeded. -/
def RegistryAfter (f : ActionFunction) (tokens : List String) (r r' : Registry) : Prop :=
  match f with
  | .discoverAllSystems | .discoverSystem => True
  | .shutdownSystem => ErasesOne r r'
  | .setSystemState => if tokens[2]? = some "shutdowned" then ErasesOne r r' else r' = r
  | .startMonitoringSystem | .stopMonitoringSystem => SameObjects r r'
  | _ => r' = r

theorem getStateFromString_eq_unreachable {state_string : String} :
    getStateFromString state_string = .unreachable ↔ state_string = "shutdowned" := by
  unfold getStateFromString
  constructor
  · intro h
    by_cases hs : state_string = "shutdowned"
    · exact hs
    · rw [if_neg hs] at h
      repeat' split at h
      all_goals exact absurd h nofun
  · exact fun h => if_pos h

theorem SameObjects.refl (r : Registry) : SameObjects r r := fun _ => rfl

theorem SameObjects.trans {r₁ r₂ r₃ : Registry} (h : SameObjects r₁ r₂)
    (h' : SameObjects r₂ r₃) : SameObjects r₁ r₃ := fun k => (h' k).trans (h k)

theorem SameObjects.assign {r : Registry} {k : String} {system system' : System}
    (h : r.find? k = some system) (hobject : system'.object = system.object) :
    SameObjects r (r.assign k system') := by
  intro k'
  rw [SortedMap.find?_assign]
  split
  · rename_i hk
    rw [hk, h]
    exact congrArg some hobject
  · rfl

/-- Unregistering leaves every key with its object. -/
theorem Unregistered.sameObjects {env : Env W} {k : String} {system system' : System}
    {r r' : Registry} (hfind : r.find? k = some system)
    (h : Unregistered env (k, system) r system' r') :
    SameObjects r r' ∧ r'.find? k = some system' ∧ system'.object = system.object := by
  cases h with
  | removed =>
    refine ⟨.assign hfind rfl, ?_, rfl⟩
    rw [SortedMap.find?_assign, if_pos rfl]
  | refused => exact ⟨.refl r, hfind, rfl⟩

theorem ErasesOne.refl (r : Registry) : ErasesOne r r := ⟨"", .inr rfl, fun _ _ => rfl⟩

theorem ErasesOne.erase (r : Registry) (key : String) : ErasesOne r (r.erase key) := by
  refine ⟨key, .inl ?_, fun k hk => ?_⟩
  · rw [SortedMap.find?_erase, if_pos rfl]
  · rw [SortedMap.find?_erase, if_neg hk]

/-- A registry that has stayed is all right after any command. -/
theorem RegistryAfter.refl (f : ActionFunction) (tokens : List String) (r : Registry) :
    RegistryAfter f tokens r r := by
  cases f
  case discoverAllSystems => exact trivial
  case discoverSystem => exact trivial
  case shutdownSystem => exact ErasesOne.refl r
  case setSystemState =>
    show if tokens[2]? = some "shutdowned" then ErasesOne r r else r = r
    split
    · exact ErasesOne.refl r
    · rfl
  case startMonitoringSystem => exact SameObjects.refl r
  case stopMonitoringSystem => exact SameObjects.refl r
  all_goals exact rfl

/-- **Which commands change the registry**, and how. -/
theorem Changes.registryAfter {env : Env W} {m : Machine W}
    (hauto : m.session.auto_discovery_of_systems = false) {f : ActionFunction}
    {tokens : List String} {r' : Registry} (h : Changes env m f tokens r') :
    RegistryAfter f tokens m.registry r' := by
  have hsame : ∀ {s r}, Looked env s m r → r = m.registry := by
    intro s r hlooked
    cases hlooked with
    | same => rfl
    | discovered hon => exact absurd (hauto.symm.trans hon) (by decide)
  cases h with
  | looked hs hf hlooked => exact hsame hlooked ▸ .refl f tokens r'
  | same => exact .refl f tokens _
  | emplaced hf => subst hf; exact trivial
  | assigned hf => subst hf; exact trivial
  | @erased hf s system r hs hlooked hfind =>
    obtain rfl := hsame hlooked
    rcases hf with rfl | ⟨rfl, state_string, htoken, hstate⟩
    · exact .erase m.registry system.name
    · show if tokens[2]? = some "shutdowned" then _ else _
      rw [htoken, getStateFromString_eq_unreachable.mp hstate, if_pos rfl]
      exact .erase m.registry system.name
  | unregistered hf hs hlooked hfind h =>
    obtain rfl := hsame hlooked
    have hobjects := (h.sameObjects hfind).1
    rcases hf with rfl | ⟨rfl, -⟩
    · exact hobjects
    · exact hobjects
  | registered hf hs hlooked hfind h =>
    subst hf
    obtain rfl := hsame hlooked
    cases h with
    | added h hreply =>
      obtain ⟨hobjects, hfind', hobject⟩ := h.sameObjects hfind
      exact hobjects.trans (.assign hfind' rfl)

/-- **Failed commands leave the session as it was**: without auto-discovery, a command line that
    returns a code other than 0 leaves the registry, the modes and the used properties as they are;
    one that returns 0 changes the registry only by a discovery, or by a shutdown, which erases one
    entry at most. -/
theorem failed_intact {m : Machine W} (hauto : m.session.auto_discovery_of_systems = false)
    {tokens : List String} (hne : tokens ≠ []) {env : Env W} {code : Int} {m' : Machine W}
    (hret : processCommandline tokens env m = (.ok code, m')) :
    (code ≠ 0 → m'.registry = m.registry ∧ m'.session.json_mode = m.session.json_mode ∧
      m'.session.monitor_json_mode = m.session.monitor_json_mode ∧
      m'.session.auto_discovery_of_systems = m.session.auto_discovery_of_systems ∧
      m'.session.used_properties = m.session.used_properties) ∧
    (code = 0 → ∃ cmd, dispatched tokens = some cmd ∧
      RegistryAfter cmd.action tokens m.registry m'.registry) := by
  cases hd : dispatched tokens with
  | none =>
    obtain ⟨code', text, hcode', hrejected⟩ := processCommandline_rejected hd hne env m
    obtain ⟨hcode, rfl⟩ := Prod.mk.inj (hret.symm.trans hrejected)
    obtain rfl := Outcome.ok.inj hcode
    refine ⟨fun _ => ⟨rfl, rfl, rfl, rfl, rfl⟩, fun h => ?_⟩
    omega
  | some cmd =>
    obtain ⟨b, hinvoke, hcode⟩ := invoke_of_ok hd hret
    obtain ⟨-, b', -, -, hreturned⟩ := returned_of_ok hd hret
    refine ⟨fun h => ?_, fun _ => ⟨cmd, rfl, hreturned.registry.registryAfter hauto⟩⟩
    have hquit : cmd.action ≠ .quit := by
      intro hquit
      obtain ⟨_, _, _, hstops, _⟩ := processCommandline_quit hd hquit env m
      exact absurd (hret.symm.trans hstops) nofun
    obtain ⟨-, -, -, hmin, hmax⟩ := dispatched_some hd
    have hb : b = false := by
      cases b with
      | true => exact absurd hcode h
      | false => rfl
    obtain ⟨hregistry, hjson, hmonitor, hdiscovery, hused⟩ :=
      invoke_failsIntact hauto hquit hmin hmax env m' (hb ▸ hinvoke)
    exact ⟨hregistry, hjson, hmonitor, hdiscovery, hused⟩

/-- A shutdown that the library refuses. -/
theorem failed_intact_offline :
    let m : Machine Unit := { Machine.new false "" () with session := { Session.new false with
      connected_or_discovered_systems := SortedMap.empty.assign "s" ⟨0, "s", [], 0⟩ } }
    let m' := (processCommandline ["shutdownSystem", "s"] Env.offline m).2
    m'.registry = m.registry ∧ m'.session.used_properties = m.session.used_properties := by
  intro m m'
  have hret : processCommandline ["shutdownSystem", "s"] Env.offline m = (.ok 1, m') := rfl
  have h := (failed_intact rfl (by decide) hret).1 (by decide)
  exact ⟨h.1, h.2.2.2.2⟩

end FepControl
