/-
  Runs of a session.

  A session lives as long as its connection, and what it has stored is used by commands much later.
  In the meantime the systems go on without it: participants shut down, other tools set states, the
  monitor writes.  A statement about all of this is one about sequences of events, with the library
  answering differently each time.

  1. **Event** -- a session processes command lines; between two of them its monitor writes log
     records, and the world behind the library goes on: other sessions and the participants
     themselves act on it.

  2. **Step** -- one event.  A command line is processed as the loop of the websocket does, which
     goes on after an exception; the command line loop has the same runs but ends with the first
     exception.  A command that ends the process is no step.

  3. **processed** -- what processing a command line leads to, in terms of `Returned` and `Thrown`.

  4. **Emits** -- the helper calls that processing a command line makes: one, none on the silent
     paths, or the error of the loop.

  5. **Changes.all** -- the rule for a property of the entries of the registry: it is kept by a
     command if the systems that the command brings in have it, and a monitored system keeps it.
-/
import FepControl.Failures
import FepControl.Lib.Run

namespace FepControl

open Lib

variable {W : Type}

/-! ## Steps -/

/-- What happens to a session. -/
inductive Event (W : Type) where
  /-- a line with these tokens is processed -/
  | command (lineTokens : List String)
  /-- `Monitor::onLog` -/
  | record (log : LogRecord)
  /-- the world goes on -/
  | elsewhere (w : W)

/-- The machine after a call of `Monitor::onLog`. -/
def Machine.logs (m : Machine W) (log : LogRecord) : Machine W :=
  { m with
    logged := m.logged ++ [⟨m.session.monitor_json_mode, m.session.json_mode, log⟩] }

/-- The session goes from one machine to another. -/
inductive Step (env : Env W) : Machine W → Event W → Machine W → Prop where
  | command {m m' : Machine W} {lineTokens : List String} (hne : lineTokens ≠ [])
      (h : websocketRound lineTokens env m = (.ok (), m')) :
      Step env m (.command lineTokens) m'
  | record (m : Machine W) (log : LogRecord) : Step env m (.record log) (m.logs log)
  | elsewhere (m : Machine W) (w : W) : Step env m (.elsewhere w) { m with world := w }

/-! ## What a command line leads to -/

/-- The machine after a command line: it is no command, it has returned, or its exception has been
    caught by the loop. -/
inductive Processed (env : Env W) (m : Machine W) (tokens : List String) : Machine W → Prop where
  | rejected (hd : dispatched tokens = none) (text : String) :
      Processed env m tokens (m.wrote (.error "processCommandline" text .input_error ""))
  | returned {cmd : ControlCommand} {b : Bool} {m' : Machine W} (hd : dispatched tokens = some cmd)
      (h : Returned env m cmd.action tokens cmd.name b m') : Processed env m tokens m'
  | caught {cmd : ControlCommand} {m' : Machine W} (hd : dispatched tokens = some cmd)
      (h : Thrown env m cmd.action tokens cmd.name m') (e : String) :
      Processed env m tokens (m'.wrote (.error (tokens.headD "") e .generic_error ""))

section

variable {env : Env W} {m m' : Machine W} {tokens : List String}

theorem processed_of_ok {code : Int} (hne : tokens ≠ [])
    (hret : processCommandline tokens env m = (.ok code, m')) : Processed env m tokens m' := by
  cases hd : dispatched tokens with
  | none =>
    obtain ⟨code', text, -, hrejected⟩ := processCommandline_rejected hd hne env m
    obtain ⟨-, rfl⟩ := Prod.mk.inj (hret.symm.trans hrejected)
    exact .rejected hd text
  | some cmd =>
    obtain ⟨_, b, _, _, hreturned⟩ := returned_of_ok hd hret
    exact .returned hd hreturned

/-- **What a command line leads to**, in the loop that catches. -/
theorem processed (hne : tokens ≠ []) (h : websocketRound tokens env m = (.ok (), m')) :
    Processed env m tokens m' := by
  rw [websocketRound, Eff.tryCatch_apply, commandLineRound, Eff.bind_apply] at h
  rcases hret : processCommandline tokens env m with ⟨code | e | d, m₁⟩
  · rw [hret] at h
    obtain rfl : m₁ = m' := (Prod.mk.inj h).2
    exact processed_of_ok hne hret
  · rw [hret] at h
    obtain ⟨cmd, hd, hthrown⟩ := thrown_of_throws hret
    obtain rfl : m₁.wrote _ = m' := (Prod.mk.inj h).2
    exact .caught hd hthrown e
  · rw [hret] at h
    cases (Prod.mk.inj h).1

/-- A command that returns is a step. -/
theorem Step.of_ok {code : Int} (hne : tokens ≠ [])
    (hret : processCommandline tokens env m = (.ok code, m')) :
    Step env m (.command tokens) m' := .command hne (rounds_agree hret).2

/-- The registry after a command line. -/
theorem Processed.registry (h : Processed env m tokens m') :
    m'.registry = m.registry ∨ ∃ cmd, dispatched tokens = some cmd ∧
      Changes env m cmd.action tokens m'.registry := by
  cases h with
  | rejected => exact .inl rfl
  | returned hd h => exact .inr ⟨_, hd, h.registry⟩
  | caught hd h e => exact .inr ⟨_, hd, h.registry⟩

/-- The registry after a step: the same, or changed by a command. -/
theorem Step.registry {event : Event W} (h : Step env m event m') :
    m'.registry = m.registry ∨ ∃ tokens cmd, event = .command tokens ∧
      dispatched tokens = some cmd ∧ Changes env m cmd.action tokens m'.registry := by
  cases h with
  | command hne h =>
    rcases (processed hne h).registry with heq | ⟨cmd, hd, hchanges⟩
    · exact .inl heq
    · exact .inr ⟨_, cmd, rfl, hd, hchanges⟩
  | record => exact .inl rfl
  | elsewhere => exact .inl rfl

end

/-! ## What a command line writes -/

section

variable {env : Env W} {m m' : Machine W} {tokens : List String}

/-- A helper call that a command line makes: it writes in the mode that the session is then in, in
    JSON mode one value, and streams it only if a service has answered with JSON. -/
structure Emits (env : Env W) (m : Machine W) (tokens : List String) (m' : Machine W)
    (w : Written) : Prop where
  mode : w.json_mode = m'.session.json_mode
  document : w.json_mode = true → ∃ v, w.response.document = some v
  streamed : w.response.Streamed → ∃ cmd, dispatched tokens = some cmd ∧
    Streams env m cmd.action tokens

/-- An answer is a helper call of the command. -/
theorem Emits.of_answer {w : Written} {action : String} {b : Bool}
    (hmode : w.json_mode = m'.session.json_mode)
    (hanswer : Answer action b w.json_mode w.response)
    (hstreamed : w.response.Streamed → ∃ cmd, dispatched tokens = some cmd ∧
      Streams env m cmd.action tokens) : Emits env m tokens m' w :=
  ⟨hmode, fun hjson => (hanswer.document hjson).imp fun _ h => h.1, hstreamed⟩

theorem Emits.of_plain {w : Written} {action : String} {b : Bool}
    (hmode : w.json_mode = m'.session.json_mode)
    (hplain : Plain action b w.json_mode w.response) : Emits env m tokens m' w :=
  .of_answer hmode hplain.toAnswer fun h => absurd h hplain.unstreamed

/-- The helper calls of one command line: one at most, or a second one for the exception that the
    loop has caught. -/
inductive Calls (tokens : List String) : List Written → Prop where
  | none : Calls tokens []
  | one (w : Written) : Calls tokens [w]
  | caught (w : Written) (htexts : w.response.texts ≠ []) (e : String) :
      Calls tokens [w, ⟨w.json_mode, .error (tokens.headD "") e .generic_error ""⟩]

/-- A command that is silent makes no helper call, and one that says too much makes one. -/
theorem Lapses.written {action : String} {b : Bool} (h : Lapses action b m m') :
    ∃ new, m'.written = m.written ++ new ∧ Calls tokens new ∧
      ∀ w ∈ new, Emits env m tokens m' w := by
  rcases h with ⟨hwritten, -⟩ | ⟨-, r, hwritten, hanswer, hstreamed⟩
  · exact ⟨[], by rw [hwritten, List.append_nil], .none, fun _ h => absurd h List.not_mem_nil⟩
  · refine ⟨[_], hwritten, .one _, fun w hw => ?_⟩
    obtain rfl := List.mem_singleton.mp hw
    exact .of_answer rfl hanswer fun h => (hstreamed h).elim

/-- **What a command line writes**: at most one response, and one for an exception. -/
theorem Processed.written (h : Processed env m tokens m') :
    ∃ new, m'.written = m.written ++ new ∧ Calls tokens new ∧
      ∀ w ∈ new, Emits env m tokens m' w := by
  cases h with
  | rejected hd text =>
    refine ⟨[_], rfl, .one _, fun w hw => ?_⟩
    obtain rfl := List.mem_singleton.mp hw
    exact .of_plain rfl (Plain.error "processCommandline" text (by decide) "" _)
  | @returned cmd b m' hd h =>
    rcases h.answer with ⟨-, r, hwritten, hanswer, hstreamed⟩ | ⟨-, hlapses⟩
    · refine ⟨[_], hwritten, .one _, fun w hw => ?_⟩
      obtain rfl := List.mem_singleton.mp hw
      exact .of_answer rfl hanswer fun h => ⟨cmd, hd, hstreamed h⟩
    · exact hlapses.written
  | @caught cmd m₁ hd h e =>
    have hmode : m₁.session.json_mode = m.session.json_mode := h.modes.json_mode
    have hcaught : Emits env m tokens (m₁.wrote (.error (tokens.headD "") e .generic_error ""))
        ⟨m.session.json_mode, .error (tokens.headD "") e .generic_error ""⟩ :=
      .of_plain hmode.symm (Plain.error _ e (by decide) "" _)
    rcases h.answer with hwritten | ⟨r, hwritten, hplain, htexts⟩
    · refine ⟨[⟨m.session.json_mode, .error (tokens.headD "") e .generic_error ""⟩], ?_, .one _,
        fun w hw => ?_⟩
      · rw [Machine.wrote, hwritten, hmode]
      · obtain rfl := List.mem_singleton.mp hw
        exact hcaught
    · refine ⟨_, ?_, .caught ⟨m.session.json_mode, r⟩ htexts e, fun w hw => ?_⟩
      · rw [Machine.wrote, hwritten, hmode, List.append_assoc]; rfl
      · rcases List.mem_cons.mp hw with rfl | hw
        · exact .of_plain hmode.symm hplain
        · obtain rfl := List.mem_singleton.mp hw
          exact hcaught

/-- The modes and the log after a command: both are kept, or the modes are switched and the log
    has the records that have come between the two switches. -/
theorem Switched.modes {f : ActionFunction} (h : Switched env m m' f) :
    m'.session.json_mode = m.session.json_mode ∧
        m'.session.monitor_json_mode = m.session.monitor_json_mode ∧ m'.logged = m.logged ∨
      ∃ enabled, (enabled = true → f = .enableJsonMode) ∧
        KeepsModes (m.jsonMode env enabled) m' := by
  cases f
  case enableJsonMode => exact .inr ⟨true, fun _ => rfl, h⟩
  case disableJsonMode => exact .inr ⟨false, nofun, h⟩
  case enableAutoDiscovery =>
    have h : KeepsModes (m.autoDiscovery true) m' := h
    exact .inl ⟨h.json_mode, h.monitor_json_mode, h.logged⟩
  case disableAutoDiscovery =>
    have h : KeepsModes (m.autoDiscovery false) m' := h
    exact .inl ⟨h.json_mode, h.monitor_json_mode, h.logged⟩
  all_goals exact .inl ⟨KeepsModes.json_mode h, KeepsModes.monitor_json_mode h,
    KeepsModes.logged h⟩

/-- The same for a command line. -/
theorem Processed.modes (h : Processed env m tokens m') :
    m'.session.json_mode = m.session.json_mode ∧
        m'.session.monitor_json_mode = m.session.monitor_json_mode ∧ m'.logged = m.logged ∨
      ∃ enabled, (enabled = true → ∃ cmd, dispatched tokens = some cmd ∧
          cmd.action = .enableJsonMode) ∧ KeepsModes (m.jsonMode env enabled) m' := by
  cases h with
  | rejected => exact .inl ⟨rfl, rfl, rfl⟩
  | returned hd h =>
    rcases h.modes.modes with hkeeps | ⟨enabled, haction, hmodes⟩
    · exact .inl hkeeps
    · exact .inr ⟨enabled, fun henabled => ⟨_, hd, haction henabled⟩, hmodes⟩
  | caught hd h e =>
    exact .inl ⟨h.modes.json_mode, h.modes.monitor_json_mode, h.modes.logged⟩

end

/-! ## The entries of the registry -/

section

variable {env : Env W} {m : Machine W} {f : ActionFunction} {tokens : List String}

/-- A system that the command discovers by its name: the one it is told to discover, or, with
    auto-discovery, the one that its lookup does not know. -/
inductive Discovers (env : Env W) (m : Machine W) (f : ActionFunction) (tokens : List String)
    (system : System) : Prop where
  | asked {s : String} {w : W} (hf : f = .discoverSystem) (hs : tokens[1]? = some s)
      (hreply : env.discoverSystem (discoveredName s) m.world = (.ok system, w)) :
      Discovers env m f tokens system
  | unknown {s : String} {w : W} (hf : f.looksUp = true) (hs : tokens[1]? = some s)
      (hauto : m.session.auto_discovery_of_systems = true) (hmissing : m.registry.find? s = none)
      (hreply : env.discoverSystem (discoveredName s) m.world = (.ok system, w)) :
      Discovers env m f tokens system

/-- A lookup leaves the registry alone, or stores a system that it discovers. -/
theorem Looked.discovers {s : String} {r : Registry} (h : Looked env s m r)
    (hs : tokens[1]? = some s) (hf : f.looksUp = true) :
    r = m.registry ∨ ∃ system, Discovers env m f tokens system ∧ m.registry.find? s = none ∧
      r = m.registry.assign system.name system := by
  cases h with
  | same => exact .inl rfl
  | discovered hauto hmissing hreply =>
    exact .inr ⟨_, .unknown hf hs hauto hmissing hreply, hmissing, rfl⟩

/-- A property of the entries, through the storing of a reply. -/
theorem all_emplaceAll {p : String → System → Prop} : ∀ (systems : List System) {r : Registry},
    r.All p → (∀ system ∈ systems, p (displayedName system.name) system) →
      (emplaceAll systems r).All p
  | [], _, hall, _ => hall
  | _ :: systems, _, hall, hp =>
      all_emplaceAll systems (hall.emplace (hp _ List.mem_cons_self)) fun system' hmem =>
        hp system' (List.mem_cons_of_mem _ hmem)

/-- Unregistering keeps a property of the entries if it keeps the property of its own entry. -/
theorem Unregistered.all {p : String → System → Prop} {k : String} {system system' : System}
    {r r' : Registry} (h : Unregistered env (k, system) r system' r') (hall : r.All p)
    (hp : p k system') : r'.All p := by
  cases h with
  | removed => exact hall.assign hp
  | refused => exact hall

/-- **A property of the entries** is kept by a command, if it holds of the systems that are
    discovered, under the names they are stored under, and is kept by monitoring. -/
theorem Changes.all {p : String → System → Prop} {r : Registry} (h : Changes env m f tokens r)
    (hall : m.registry.All p)
    (hdiscovers : ∀ system, Discovers env m f tokens system → p system.name system)
    (hsystems : ∀ systems w, env.discoverAllSystems m.world = (.ok systems, w) →
      ∀ system ∈ systems, p (displayedName system.name) system)
    (hunregister : ∀ k system r system' r', p k system →
      Unregistered env (k, system) r system' r' → p k system')
    (hregister : ∀ k system r system' r' monitors w w', p k system →
      Unregistered env (k, system) r system' r' →
      env.registerMonitoring system' w = (.ok monitors, w') →
      p k { system' with monitors := monitors }) : r.All p := by
  have hlookup : ∀ {s r}, Looked env s m r → tokens[1]? = some s → f.looksUp = true →
      r.All p := by
    intro s r hlooked hs hf
    rcases hlooked.discovers hs hf with rfl | ⟨system, hsystem, -, rfl⟩
    · exact hall
    · exact hall.assign (hdiscovers system hsystem)
  cases h with
  | looked hs hf hlooked => exact hlookup hlooked hs hf
  | same => exact hall
  | emplaced hf hreply hpre =>
    exact all_emplaceAll _ hall fun system hmem =>
      hsystems _ _ hreply system (hpre.subset hmem)
  | assigned hf hs hreply => exact hall.assign (hdiscovers _ (.asked hf hs hreply))
  | erased hf hs hlooked hfind =>
    have hlooks : f.looksUp = true := by
      rcases hf with rfl | ⟨rfl, -⟩ <;> rfl
    exact (hlookup hlooked hs hlooks).erase _
  | unregistered hf hs hlooked hfind h =>
    have hlooks : f.looksUp = true := by
      rcases hf with rfl | ⟨rfl, -⟩ <;> rfl
    have hall' := hlookup hlooked hs hlooks
    exact h.all hall' (hunregister _ _ _ _ _ (hall' _ _ hfind) h)
  | registered hf hs hlooked hfind h =>
    have hall' := hlookup hlooked hs (by rw [hf]; rfl)
    have hentry := hall' _ _ hfind
    cases h with
    | added h hreply =>
      exact (h.all hall' (hunregister _ _ _ _ _ hentry h)).assign
        (hregister _ _ _ _ _ _ _ _ hentry h hreply)

end

end FepControl
