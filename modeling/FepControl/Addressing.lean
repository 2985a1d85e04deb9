/-
  Which system a command acts on.

  Most commands of the table name a system, and many name a participant of it.  The handler never
  passes these names on as they are: it looks the system up in the registry, and what it then calls,
  it calls on the object that it finds.  This module compares the two, the names on the line and the
  names in the recorded calls.

  1. **The table** -- what the argument descriptions promise is what the handlers do: a command that
     declares a system name looks up its first argument, unless it is the discovery of that system
     (`table_system`), and one that declares a participant name goes on to the participant of the
     second (`table_participant`).

  2. **Unknown systems** -- without auto-discovery, a command on a name that is no key says so and
     does nothing else: code 1, no call of the library, one error response, and the session as it
     was (`unconnected`).

  3. **Known systems** -- behind the lookup, the calls of a command address the system by the name
     that its object reports, and a command on a participant only that participant.  This is read
     off the footprint of the handler, call by call (`Footprint.actsOn`), and holds of every handler
     but one.

  4. **The exception** -- `setParticipantState` makes a second object, and makes it of the name that
     was typed.  For the unnamed system, which is stored under `-`, that is another system.  So a
     command addresses its system exactly if it is not such a call (`addresses_iff`), where the
     participant has to be there for the second object to be made at all
     (`setParticipantState_refused`).
-/
import FepControl.Footprint
import FepControl.Runs

namespace FepControl

open Lib

variable {W : Type}

/-! ## What the table says of the arguments -/

/-- The argument of that index is described so. -/
def ControlCommand.Declares (cmd : ControlCommand) (index : Nat) (description : String) : Prop :=
  cmd.arguments[index]?.map ArgumentHandler.description = some description

instance (cmd : ControlCommand) (index : Nat) (description : String) :
    Decidable (cmd.Declares index description) := inferInstanceAs (Decidable (_ = _))

/-- The commands on a system start with its lookup. -/
theorem table_system : ∀ cmd ∈ getControlCommands, cmd.Declares 0 "system name" →
    cmd.action ≠ .discoverSystem → cmd.action.looksUp = true := by decide

/-- The second argument of the commands on a participant is its name. -/
theorem table_participant : ∀ cmd ∈ getControlCommands, cmd.Declares 1 "participant name" →
    cmd.action.onParticipant = true := by decide

/-- A dispatched command on a system is a lookup of its first argument, and a rest that is confined
    to the footprint of the command. -/
theorem processCommandline_looksUp (E : Env W → Prop) {tokens : List String}
    {cmd : ControlCommand} (hd : dispatched tokens = some cmd)
    (hsystem : cmd.Declares 0 "system name") (hdiscover : cmd.action ≠ .discoverSystem) :
    ∃ s arguments rest, tokens = cmd.name :: s :: arguments ∧
      (processCommandline tokens : Control W Int) = (do
        let success ← withSystem s cmd.name rest
        pure (if success then 0 else 1)) ∧
      ∀ it : Entry, Confined E (Footprint E cmd.action s arguments it.2) (Updates cmd.action)
        (rest it) := by
  obtain ⟨hmem, ⟨tail, hname⟩, -, hmin, hmax⟩ := dispatched_some hd
  have hf := table_system cmd hmem hsystem hdiscover
  obtain ⟨a, s, arguments, htokens, rest, hrest, hconfined⟩ := looksUp_invoke E hf hmin hmax
  obtain rfl : a = cmd.name := (List.cons.inj (htokens.symm.trans hname)).1
  exact ⟨s, arguments, rest, htokens, by rw [processCommandline_dispatched hd, hrest], hconfined⟩

/-! ## Unknown systems -/

/-- A handler whose system is no key, and is not discovered, reports that and returns. -/
theorem withSystem_missing {m : Machine W} {s : String}
    (hauto : m.session.auto_discovery_of_systems = false) (h : m.registry.find? s = none)
    (env : Env W) (action : String) (rest : Entry → Control W Bool) :
    withSystem s action rest env m = (.ok false, m.missed s action) := by
  have hlookup : lookup s action env m = (.ok none, m.missed s action) := by
    rw [lookup_eq, hauto, connected_missing h]
  exact Eff.bind_of_ok hlookup _

/-- **Unknown systems are never touched**: without auto-discovery, a command on a system that is no
    key of the registry returns 1, calls nothing, says that the system is not connected, and leaves
    the session as it is. -/
theorem unconnected {m : Machine W} (hauto : m.session.auto_discovery_of_systems = false)
    {tokens : List String} {cmd : ControlCommand} (hd : dispatched tokens = some cmd)
    (hsystem : cmd.Declares 0 "system name") (hdiscover : cmd.action ≠ .discoverSystem) {s : String}
    (hs : tokens[1]? = some s) (hmissing : m.registry.find? s = none) (env : Env W) :
    ∃ m', processCommandline tokens env m = (.ok 1, m') ∧ m'.calls = m.calls ∧
      m'.world = m.world ∧ m'.session = m.session ∧ m'.written = m.written ++
        [⟨m.session.json_mode, .error cmd.name (notConnected s) .generic_error ""⟩] := by
  obtain ⟨s', arguments, rest, rfl, hform, -⟩ :=
    processCommandline_looksUp (fun _ => True) hd hsystem hdiscover (W := W)
  obtain rfl : s' = s := Option.some.inj hs
  rw [hform, Eff.bind_of_ok (withSystem_missing hauto hmissing env cmd.name rest)]
  exact ⟨m.missed s' cmd.name, rfl, rfl, rfl, rfl, rfl⟩

/-- Starting a system in a new session. -/
theorem unconnected_new : ∃ m', processCommandline ["startSystem", "s"] Env.answering
      (Machine.new false "" ()) = (.ok 1, m') ∧ m'.calls = [] ∧ m'.world = () ∧
      m'.session = .new false ∧ m'.written =
        [⟨false, .error "startSystem" "System 's' is not connected" .generic_error ""⟩] :=
  unconnected (m := Machine.new false "" ()) rfl
    (show dispatched ["startSystem", "s"] = some _ from rfl) (by decide) (by decide) rfl rfl _

/-! ## Known systems -/

/-- The call addresses the system of this name. -/
def Call.Addresses (name : String) : Call → Prop
  | .discoverAllSystems | .discoverSystem _ | .defaultSystem => False
  | .newSystem system_name => system_name = name
  | .system sys _ => sys.name = name
  | .participant part _ => part.system = name

/-- The call addresses the participant `p` of the system, and nothing else of it: it asks the
    system for `p`, or is made on the proxy of `p`, or on an object that `p` alone is put into. -/
def Call.AddressesOnly (name p : String) : Call → Prop
  | .newSystem system_name => system_name = name
  | .system sys call => sys.name = name ∧
      (call = .getParticipant p ∨ sys.participants = [] ∧ call = .add p ∨ sys.participants = [p])
  | .participant part _ => part.system = name ∧ part.name = p
  | _ => False

/-- `getParticipant` answers with a proxy of the system and the participant it is asked for. -/
def ProxyLaw (env : Env W) : Prop := ∀ sys p w part w',
  env.getParticipant sys p w = (.ok part, w') → part.system = sys.name ∧ part.name = p

/-- The calls that have come to the record are such calls. -/
def NewCalls (P : Call → Prop) (m m' : Machine W) : Prop :=
  ∃ new, m'.calls = m.calls ++ new ∧ ∀ c ∈ new, P c.1

/-- The command has addressed the system of the entry, and if it is a command on a participant,
    only that participant. -/
def ActsOn (cmd : ControlCommand) (tokens : List String) (entry : System) : Call → Prop :=
  fun c => c.Addresses entry.name ∧ (cmd.Declares 1 "participant name" →
    ∀ p, tokens[2]? = some p → c.AddressesOnly entry.name p)

/-- The command makes an object of the typed name, and the system has another one: the state of a
    participant that is there is set under an alias. -/
def Misaddresses (env : Env W) (m : Machine W) (cmd : ControlCommand) (tokens : List String)
    (k : String) (entry : System) : Prop :=
  cmd.action = .setParticipantState ∧ entry.name ≠ k ∧
    ∃ p part w, tokens[2]? = some p ∧ env.getParticipant entry p m.world = (.ok part, w)

/-- A step that makes no call. -/
theorem NewCalls.refl (P : Call → Prop) (m : Machine W) : NewCalls P m m :=
  ⟨[], (List.append_nil _).symm, fun _ h => absurd h List.not_mem_nil⟩

/-- The calls of two steps, one after the other. -/
theorem NewCalls.trans {P : Call → Prop} {m₁ m₂ m₃ : Machine W} (h : NewCalls P m₁ m₂)
    (h' : NewCalls P m₂ m₃) : NewCalls P m₁ m₃ := by
  obtain ⟨new, hnew, hP⟩ := h
  obtain ⟨new', hnew', hP'⟩ := h'
  refine ⟨new ++ new', by rw [hnew', hnew, List.append_assoc], fun c hc => ?_⟩
  rcases List.mem_append.mp hc with hc | hc
  · exact hP c hc
  · exact hP' c hc

/-- One call has come to the record. -/
theorem NewCalls.called (m : Machine W) {P : Call → Prop} {c : Call} (h : P c) (threw : Bool)
    (w : W) : NewCalls P m (m.called c threw w) := by
  refine ⟨[(c, threw)], rfl, fun c' hc' => ?_⟩
  obtain rfl := List.mem_singleton.mp hc'
  exact h

/-- A part that is confined to calls makes no others. -/
theorem Confined.newCalls {α : Type} {E : Env W → Prop} {C : Call → Prop}
    {U : (Session → Session) → Prop} {c : Control W α} (h : Confined E C U c) {env : Env W}
    (hE : E env) (m : Machine W) : NewCalls C m (c env m).2 := by
  have hbasic : ∀ α (c : Control W α), Basic C U α c → ∀ env m, E env →
      c.wp env (Eff.framePost (NewCalls C) m) m := by
    intro α c hc env m _
    cases hc with
    | @call c hC =>
      unfold Eff.wp FepControl.fep3
      rcases env.fep3 c m.world with ⟨_ | _, w⟩
      · exact NewCalls.called m hC true w
      · exact NewCalls.called m hC false w
    | write => exact .refl C m
    | update => exact .refl C m
    | session => exact .refl C m
    | read => exact .refl C m
  have hframe := Eff.Made.frame (NewCalls.refl C) NewCalls.trans hbasic h hE m
  unfold Eff.wp at hframe
  rcases hend : c env m with ⟨_ | _ | _, m'⟩
  · rw [hend] at hframe; exact hframe
  · rw [hend] at hframe; exact hframe
  · rw [hend] at hframe; exact hframe

/-- A command on a system that is a key ends as its rest does with the entry. -/
theorem calls_of_found {m : Machine W} {s : String} {system : System}
    (h : m.registry.find? s = some system) (env : Env W) (action : String)
    (rest : Entry → Control W Bool) :
    ((do
      let success ← withSystem s action rest
      pure (if success then 0 else 1) : Control W Int) env m).2 =
        (rest (s, system) env (m.found s)).2 := by
  rw [Eff.bind_apply, withSystem_found h]
  rcases rest (s, system) env (m.found s) with ⟨_ | _ | _, m'⟩
  · rfl
  · rfl
  · rfl

/-- The calls on an object address its system. -/
theorem OnObject.addresses {system : System} {c : Call} (h : OnObject system c) :
    c.Addresses system.name := by
  cases h with
  | object => exact rfl
  | name h =>
    obtain ⟨name, -, rfl⟩ := List.mem_map.mp h
    exact rfl

/-- The calls on a participant address nothing else. -/
theorem OnProxy.addresses {system : System} {p : String} {c : Call}
    (h : OnProxy (W := W) ProxyLaw system p c) :
    c.Addresses system.name ∧ c.AddressesOnly system.name p := by
  cases h with
  | lookup => exact ⟨rfl, rfl, .inl rfl⟩
  | proxy hgives call =>
    obtain ⟨env, m, m', hlaw, hpart⟩ := hgives
    rcases hreply : env.getParticipant system p m.world with ⟨e | part', w⟩
    · rw [getParticipant_throws hreply] at hpart
      cases (Prod.mk.inj hpart).1
    · rw [getParticipant_ok hreply] at hpart
      obtain rfl := Outcome.ok.inj (Prod.mk.inj hpart).1
      obtain ⟨hsystem, hname⟩ := hlaw _ _ _ _ _ hreply
      exact ⟨hsystem, hsystem, hname⟩

/-- What is called on the second object of `setParticipantState` addresses the name of that. -/
theorem OnTemporary.addresses {s p : String} {c : Call} (h : OnTemporary s p c) :
    c.Addresses s ∧ c.AddressesOnly s p := by
  cases h with
  | new => exact ⟨rfl, rfl⟩
  | add => exact ⟨rfl, rfl, .inr (.inl ⟨rfl, rfl⟩)⟩
  | object => exact ⟨rfl, rfl, .inr (.inr rfl)⟩

/-- A footprint addresses the system of the entry, if no object is made of another name. -/
theorem Footprint.actsOn {cmd : ControlCommand} (hmem : cmd ∈ getControlCommands) {k : String}
    {arguments : List String} {entry : System} {c : Call}
    (hname : cmd.action = .setParticipantState → entry.name = k)
    (h : Footprint (W := W) ProxyLaw cmd.action k arguments entry c) :
    ActsOn cmd (cmd.name :: k :: arguments) entry c := by
  unfold Footprint at h
  split at h
  · have hboth : c.Addresses entry.name ∧ c.AddressesOnly entry.name (arguments.headD "") := by
      rcases h with h | ⟨haction, h⟩
      · exact h.addresses
      · rw [hname haction]; exact h.addresses
    refine ⟨hboth.1, fun _ p hp => ?_⟩
    have hhead : arguments.headD "" = p := by
      rw [List.headD_eq_head?_getD, List.head?_eq_getElem?, show arguments[0]? = some p from hp]
      rfl
    exact hhead ▸ hboth.2
  · rename_i hparticipant
    exact ⟨h.addresses, fun hdeclares => absurd (table_participant cmd hmem hdeclares) hparticipant⟩

/-! ## The temporary object -/

/-- The handler that makes an object of a name has called the library for it. -/
theorem newSystem_calls {s : String} {f : System → Control W Bool} {h : String → Control W Bool}
    {C : Call → Prop} {U : (Session → Session) → Prop}
    (hf : ∀ system, Confined (fun _ => True) C U (f system))
    (hh : ∀ e, Confined (fun _ => True) C U (h e)) (env : Env W) (m : Machine W) :
    ∃ threw new, (tryCatch (newSystem s >>= f) h env m).2.calls =
      m.calls ++ (.newSystem s, threw) :: new := by
  -- what follows the call of the constructor only adds calls
  have hthen : ∀ {c : Control W Bool} {m' : Machine W} {threw : Bool},
      Confined (fun _ => True) C U c → m'.calls = m.calls ++ [(.newSystem s, threw)] →
      ∃ threw new, (c env m').2.calls = m.calls ++ (.newSystem s, threw) :: new := by
    intro c m' threw hc hm'
    obtain ⟨new, hnew, -⟩ := hc.newCalls (E := fun _ => True) (trivial : (fun _ => True) env) m'
    exact ⟨threw, new, by rw [hnew, hm', List.append_assoc]; rfl⟩
  rw [Eff.tryCatch_apply]
  rcases hreply : env.fep3 (.newSystem s) m.world with ⟨e | handle, w⟩
  · have hthrows : newSystem s env m = (.throws e, m.called (.newSystem s) true w) :=
      Eff.bind_of_throws (fep3_throws hreply) _
    rw [Eff.bind_of_throws hthrows]
    exact hthen (hh e) rfl
  · have hok : newSystem s env m = (.ok ⟨handle, s, [], 0⟩, m.called (.newSystem s) false w) :=
      Eff.bind_of_ok (fep3_ok hreply) _
    rw [Eff.bind_of_ok hok]
    have htry : (Eff.orElse h env (f ⟨handle, s, [], 0⟩ env (m.called (.newSystem s) false w))) =
        (tryCatch (f ⟨handle, s, [], 0⟩) h : Control W Bool) env
          (m.called (.newSystem s) false w) :=
      rfl
    rw [htry]
    exact hthen (.tryCatch (hf _) hh) rfl

section

variable {env : Env W} {m : Machine W} {a k p state_string : String} {cmd : ControlCommand}
  {entry : System}

/-- `setParticipantState` on a key asks its system for the participant. -/
theorem setParticipantState_found (hd : dispatched [a, k, p, state_string] = some cmd)
    (haction : cmd.action = .setParticipantState) (hfind : m.registry.find? k = some entry) :
    (processCommandline [a, k, p, state_string] env m).2 = ((do
      match ← participantOf a k p (k, entry) with
      | none => pure false
      | some _ =>
          tryCatch (newSystem k >>= temporaryState a p state_string)
            (participantStateException a k p state_string) : Control W Bool) env
              (m.found k)).2 := by
  rw [processCommandline_dispatched hd, haction]
  show ((do
    let success ← setParticipantState (begin_ [a, k, p, state_string])
      (end_ [a, k, p, state_string])
    pure (if success then 0 else 1) : Control W Int) env m).2 = _
  rw [setParticipantState_eq, withParticipant_eq]
  exact calls_of_found hfind env a _

/-- If the participant is there, an object is made of the name `k`. -/
theorem setParticipantState_answered (hd : dispatched [a, k, p, state_string] = some cmd)
    (haction : cmd.action = .setParticipantState) (hfind : m.registry.find? k = some entry)
    {part : ParticipantProxy} {w : W}
    (hreply : env.getParticipant entry p (m.found k).world = (.ok part, w)) :
    ∃ threw new, (processCommandline [a, k, p, state_string] env m).2.calls =
      m.calls ++ (.system entry (.getParticipant p), false) :: (.newSystem k, threw) :: new := by
  rw [setParticipantState_found hd haction hfind, participantOf, Eff.bind_apply,
    Eff.tryCatch_apply, Eff.bind_of_ok (getParticipant_ok hreply)]
  obtain ⟨threw, new, hnew⟩ := newSystem_calls (C := fun _ => True) (U := fun _ => True)
    (fun system => temporaryState_confined (p := p) trivial (fun _ => trivial) a state_string)
    (h := participantStateException a k p state_string) (fun e => Confined.answer _ _) env
    ((m.found k).called (.system entry (.getParticipant p)) false w)
  refine ⟨threw, new, hnew.trans ?_⟩
  rw [Machine.called, List.append_assoc]
  rfl

/-- If the participant is not there, that is all. -/
theorem setParticipantState_refused (hd : dispatched [a, k, p, state_string] = some cmd)
    (haction : cmd.action = .setParticipantState) (hfind : m.registry.find? k = some entry)
    {e : String} {w : W}
    (hreply : env.getParticipant entry p (m.found k).world = (.error e, w)) :
    (processCommandline [a, k, p, state_string] env m).2.calls =
      m.calls ++ [(.system entry (.getParticipant p), true)] := by
  rw [setParticipantState_found hd haction hfind, participantOf, Eff.bind_apply,
    Eff.tryCatch_apply, Eff.bind_of_throws (getParticipant_throws hreply)]
  rfl

end

/-- An object of another name does not address the system. -/
theorem not_actsOn_of_misaddresses {env : Env W} {m : Machine W} {tokens : List String}
    {cmd : ControlCommand} (hd : dispatched tokens = some cmd) {k : String} {entry : System}
    (hk : tokens[1]? = some k) (hfind : m.registry.find? k = some entry)
    (h : Misaddresses env m cmd tokens k entry) :
    ¬ NewCalls (ActsOn cmd tokens entry) m (processCommandline tokens env m).2 := by
  obtain ⟨haction, hname, p, part, w, hp, hreply⟩ := h
  obtain ⟨-, -, -, hmin, hmax⟩ := dispatched_some hd
  rw [haction] at hmin hmax
  obtain ⟨a, s, p', state_string, rfl⟩ := eq_four (Nat.le_antisymm hmax hmin)
  obtain rfl : s = k := Option.some.inj hk
  obtain rfl : p' = p := Option.some.inj hp
  rintro ⟨new, hcalls, hacts⟩
  obtain ⟨threw, new', hnew⟩ := setParticipantState_answered hd haction hfind hreply
  have hmem : (Call.newSystem s, threw) ∈ new := by
    rw [← List.append_cancel_left (hnew.symm.trans hcalls)]
    exact .tail _ (.head _)
  exact hname (hacts _ hmem).1.symm

/-- **Commands act on the system that the lookup resolved**: a command on a key of the registry
    addresses the system of the entry, and if it is on a participant, only that participant of it,
    unless it sets the state of a participant that is there under an alias of the system. -/
theorem addresses_iff {env : Env W} (hlaw : ProxyLaw env) {m : Machine W} {tokens : List String}
    {cmd : ControlCommand} (hd : dispatched tokens = some cmd)
    (hsystem : cmd.Declares 0 "system name") (hdiscover : cmd.action ≠ .discoverSystem)
    {k : String} {entry : System} (hk : tokens[1]? = some k)
    (hfind : m.registry.find? k = some entry) :
    NewCalls (ActsOn cmd tokens entry) m (processCommandline tokens env m).2 ↔
      ¬ Misaddresses env m cmd tokens k entry := by
  refine ⟨fun h hmis => not_actsOn_of_misaddresses hd hk hfind hmis h, fun hmis => ?_⟩
  obtain ⟨hmem, -, -, hmin, hmax⟩ := dispatched_some hd
  by_cases hname : cmd.action = .setParticipantState → entry.name = k
  · obtain ⟨s, arguments, rest, rfl, hform, hconfined⟩ :=
      processCommandline_looksUp ProxyLaw hd hsystem hdiscover (W := W)
    obtain rfl : s = k := Option.some.inj hk
    rw [hform, calls_of_found hfind]
    have hacts : Confined ProxyLaw (ActsOn cmd (cmd.name :: s :: arguments) entry)
        (Updates cmd.action) (rest (s, entry)) :=
      (hconfined (s, entry)).mono (fun c hc => Footprint.actsOn hmem hname hc) fun _ h => h
    exact hacts.newCalls hlaw (m.found s)
  · -- the participant is not there: it is asked for, and that is all
    obtain ⟨haction, hne⟩ := Classical.not_imp.mp hname
    rw [haction] at hmin hmax
    obtain ⟨a, s, p, state_string, rfl⟩ := eq_four (Nat.le_antisymm hmax hmin)
    obtain rfl : s = k := Option.some.inj hk
    rcases hreply : env.getParticipant entry p m.world with ⟨e | part, w⟩
    · refine ⟨_, setParticipantState_refused hd haction hfind hreply, fun c hc => ?_⟩
      obtain rfl := List.mem_singleton.mp hc
      refine ⟨rfl, fun _ p' hp' => ?_⟩
      obtain rfl : p = p' := Option.some.inj hp'
      exact ⟨rfl, .inl rfl⟩
    · exact absurd ⟨haction, hne, p, part, w, rfl, hreply⟩ hmis

/-- The library of the examples answers with the proxy it is asked for. -/
theorem answering_proxyLaw : ProxyLaw Env.answering := by
  intro sys p w part w' h
  obtain rfl := Except.ok.inj (Prod.mk.inj h).1
  exact ⟨rfl, rfl⟩

/-- Setting the state of a participant of a system with a name. -/
theorem addresses_named :
    let m := (processCommandline ["discoverSystem", "s"] Env.answering (Machine.new false "" ())).2
    let cmd : ControlCommand := ⟨"setParticipantState", "sets the given participants system state",
      .setParticipantState, [⟨"system name", .connectedSystemsCompletion⟩,
      ⟨"participant name", .connectedParticipantsCompletion⟩,
      ⟨"particiapnt state", .possibleSystemsStateCompletion⟩], 0, false⟩
    NewCalls (ActsOn cmd ["setParticipantState", "s", "p", "running"] ⟨0, "s", [], 0⟩) m
      (processCommandline ["setParticipantState", "s", "p", "running"] Env.answering m).2 := by
  intro m cmd
  refine (addresses_iff answering_proxyLaw (k := "s") rfl (by decide) (by decide) rfl rfl).mpr ?_
  exact fun h => h.2.1 rfl

/-- The unnamed system is stored under `-`, and the state of its participant is set in a system
    named `-`. -/
theorem not_addresses : ¬ ∀ (W : Type) (env : Env W), ProxyLaw env →
    ∀ (json_mode : Bool) (working_directory : String) (w : W) (events : List (Event W))
      (m : Machine W), Run (Step env) (Machine.new json_mode working_directory w) events m →
    (∀ k system, m.registry.find? k = some system → system.name = "" → k = empty_system_name) →
    ∀ (tokens : List String) (cmd : ControlCommand) (k : String) (entry : System),
    dispatched tokens = some cmd → cmd.Declares 0 "system name" → cmd.action ≠ .discoverSystem →
    tokens[1]? = some k → m.registry.find? k = some entry →
    NewCalls (ActsOn cmd tokens entry) m (processCommandline tokens env m).2 := by
  intro h
  let unnamed : System := ⟨0, "", ["p"], 0⟩
  let env := Env.discoversAll [unnamed]
  have hlaw : ProxyLaw env := by
    intro sys p w part w' h
    obtain rfl := Except.ok.inj (Prod.mk.inj h).1
    exact ⟨rfl, rfl⟩
  let m := (processCommandline ["discoverAllSystems"] env (Machine.new false "" ())).2
  have hrun : Run (Step env) (Machine.new false "" ()) [.command ["discoverAllSystems"]] m :=
    Run.one (@Step.of_ok _ _ _ _ _ 0 (by decide) rfl)
  have halias : ∀ k system, m.registry.find? k = some system → system.name = "" →
      k = empty_system_name := by
    intro k system hfind _
    have hmem : (k, system) ∈ [(empty_system_name, unnamed)] := SortedMap.mem_entries.mpr hfind
    exact (Prod.mk.inj (List.mem_singleton.mp hmem)).1
  let tokens := ["setParticipantState", "-", "p", "running"]
  obtain ⟨cmd, hd⟩ : ∃ cmd, dispatched tokens = some cmd := ⟨_, rfl⟩
  have hcmd := Option.some.inj hd
  have hfind : m.registry.find? "-" = some unnamed := rfl
  refine not_actsOn_of_misaddresses hd (k := "-") rfl hfind ?_
    (h Unit env hlaw false "" () _ m hrun halias tokens cmd "-" unnamed hd ?_ ?_ rfl rfl)
  · exact ⟨hcmd ▸ rfl, by decide, "p", ⟨"", "p", true⟩, (), rfl, rfl⟩
  · exact hcmd ▸ rfl
  · exact hcmd ▸ by decide

end FepControl
