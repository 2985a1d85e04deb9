/-
  The websocket server: `interactiveLoopWebsocket`, with its `ActiveWebsocketConnections`.

  The server has a thread that accepts connections, a thread for each of them, and the main thread,
  which waits for a signal and then says good bye to everyone.  Between the moment at which a client
  disconnects and the moment at which it is removed from the list, and between the copy of the list
  and the last message of the loop over it, the other threads go on.  So who is told is a question
  about the order of these events.

  1. **Server** -- every connection has a `FepControl` instance and a thread that reads from it; the
     instances share the process, its working directory and the world behind the library.  The main
     thread polls `shutdown_requested`, and then tells every connection good bye.

  2. **Two ends** -- the main thread returns when it has told everyone; but `exit` and `quit` end
     the process from the thread of the client that sent them, and tell nobody.

  3. **Good** -- the invariant: no connection is on the list twice; before the loop nobody has been
     told; and while it runs, everyone on the list has been told or is still to be, once.

  4. **Told** -- who has been told when the process ends, over every run of connects, disconnects,
     commands and signals (`everyone_told`), if a client that ends the process is the last one that
     has to be told, nobody connects once the loop has begun, and the process does not end between
     the return of a reader and its removal (`Considerate`).
-/
import FepControl.Failures
import FepControl.Lib.Run

namespace FepControl

open Lib

variable {W : Type}

/-! ## The state of the process -/

/-- A `FepControlWebsocket`.  The world and the working directory of its machine are those of the
    process when it has last run. -/
structure Instance (W : Type) where
  machine : Machine W
  /-- `readInputFromSource` has not returned -/
  reading : Bool
  /-- what `writeShutdownMessage` has written -/
  farewells : List String

/-- How the process has ended. -/
inductive Ending where
  /-- the main thread has returned -/
  | signalled
  /-- a client has sent `exit` or `quit` -/
  | quit (c : Nat)
  /-- in a way that C++ leaves undefined -/
  | crashed
  deriving DecidableEq, Repr

/-- The process.  A connection is the number of its instance. -/
structure Server (W : Type) where
  json_mode : Bool
  world : W
  working_directory : String
  /-- every instance that has been made -/
  instances : List (Instance W)
  active_connections : List Nat
  shutdown_requested : Bool
  /-- what is left of the copy of the connections that the shutdown loop goes over -/
  farewell_loop : Option (List Nat)
  ended : Option Ending

/-- The server before the first connection. -/
def Server.new (json_mode : Bool) (working_directory : String) (w : W) : Server W where
  json_mode := json_mode
  world := w
  working_directory := working_directory
  instances := []
  active_connections := []
  shutdown_requested := false
  farewell_loop := none
  ended := none

/-! ## Steps -/

/-- What happens to the server. -/
inductive ServerEvent where
  /-- a client connects, and its instance is added -/
  | accept
  /-- a client sends a line with these tokens -/
  | command (c : Nat) (lineTokens : List String)
  /-- a client disconnects: `readInputFromSource` returns -/
  | returns (c : Nat)
  /-- `removeConnection` -/
  | remove (c : Nat)
  /-- `signal_handler` -/
  | signal
  /-- the main thread leaves the polling loop: `getConnections` -/
  | getConnections
  /-- a round of the shutdown loop -/
  | farewell
  /-- the main thread returns -/
  | finish

/-- The message that `writeShutdownMessage` writes. -/
def shutdownMessage (json_mode : Bool) : String :=
  if json_mode then "\x7b\"action\" : \"applicationShutdown\"\x7d" else "bye"

/-- `writeShutdownMessage`. -/
def Instance.writeShutdownMessage (i : Instance W) : Instance W :=
  { i with farewells := i.farewells ++ [shutdownMessage i.machine.session.json_mode] }

/-- A connection is accepted: `addConnection`. -/
def Server.accept (s : Server W) : Server W :=
  { s with
    instances := s.instances ++
      [⟨Machine.new s.json_mode s.working_directory s.world, true, []⟩]
    active_connections := s.active_connections ++ [s.instances.length] }

/-- The instance `c` processes a line, in its thread. -/
def Server.process (env : Env W) (s : Server W) (c : Nat) (i : Instance W)
    (lineTokens : List String) : Server W :=
  let (outcome, m) := websocketRound lineTokens env
    { i.machine with world := s.world, working_directory := s.working_directory }
  { s with
    world := m.world
    working_directory := m.working_directory
    instances := s.instances.set c { i with machine := m }
    ended := match outcome with
      | .ok () => none
      | .stops (.exit _) => some (.quit c)
      | _ => some .crashed }

/-- `removeConnection`. -/
def Server.removeConnection (s : Server W) (c : Nat) : Server W :=
  { s with active_connections := s.active_connections.filter fun d => d != c }

/-- The server goes from one state to another. -/
inductive ServerStep (env : Env W) : Server W → ServerEvent → Server W → Prop where
  | accept {s : Server W} (hended : s.ended = none) : ServerStep env s .accept s.accept
  | command {s : Server W} {c : Nat} {i : Instance W} {lineTokens : List String}
      (hended : s.ended = none) (hi : s.instances[c]? = some i) (hreading : i.reading = true)
      (hne : lineTokens ≠ []) :
      ServerStep env s (.command c lineTokens) (s.process env c i lineTokens)
  | returns {s : Server W} {c : Nat} {i : Instance W} (hended : s.ended = none)
      (hi : s.instances[c]? = some i) (hreading : i.reading = true) :
      ServerStep env s (.returns c)
        { s with instances := s.instances.set c { i with reading := false } }
  | remove {s : Server W} {c : Nat} {i : Instance W} (hended : s.ended = none)
      (hi : s.instances[c]? = some i) (hreturned : i.reading = false) :
      ServerStep env s (.remove c) (s.removeConnection c)
  | signal {s : Server W} (hended : s.ended = none) :
      ServerStep env s .signal { s with shutdown_requested := true }
  | getConnections {s : Server W} (hended : s.ended = none)
      (hrequested : s.shutdown_requested = true) (hloop : s.farewell_loop = none) :
      ServerStep env s .getConnections { s with farewell_loop := some s.active_connections }
  | farewell {s : Server W} {c : Nat} {rest : List Nat} {i : Instance W}
      (hended : s.ended = none) (hloop : s.farewell_loop = some (c :: rest))
      (hi : s.instances[c]? = some i) :
      ServerStep env s .farewell { s with
        instances := s.instances.set c i.writeShutdownMessage, farewell_loop := some rest }
  | finish {s : Server W} (hended : s.ended = none) (hloop : s.farewell_loop = some []) :
      ServerStep env s .finish { s with ended := some .signalled }

/-! ## Who is told -/

/-- What a connection has been told at the end of the process. -/
def Server.farewells (s : Server W) (c : Nat) : List String :=
  match s.instances[c]? with
  | some i => i.farewells
  | none => []

/-- The connection has been told good bye, once. -/
def Server.Told (s : Server W) (c : Nat) : Prop :=
  ∃ json_mode, s.farewells c = [shutdownMessage json_mode]

/-- No connection is between the return of its reader and its removal. -/
def Server.NoneReturning (s : Server W) : Prop :=
  ∀ c ∈ s.active_connections, ∃ i, s.instances[c]? = some i ∧ i.reading = true

/-- Changing an instance in something else changes no farewell. -/
theorem farewells_set {s s' : Server W} {c : Nat} {i : Instance W} (i' : Instance W)
    (hi : s.instances[c]? = some i) (hinstances : s'.instances = s.instances.set c i')
    (hfarewells : i'.farewells = i.farewells) (d : Nat) :
    s'.farewells d = s.farewells d := by
  unfold Server.farewells
  rw [hinstances, List.getElem?_set]
  by_cases hcd : c = d
  · subst hcd
    obtain ⟨hlt, -⟩ := List.getElem?_eq_some_iff.mp hi
    rw [if_pos rfl, if_pos hlt, hi]
    exact hfarewells
  · rw [if_neg hcd]

/-- Nobody is told anything by a new connection. -/
theorem farewells_accept (s : Server W) (d : Nat) : s.accept.farewells d = s.farewells d := by
  unfold Server.farewells Server.accept
  rw [List.getElem?_append]
  by_cases hd : d < s.instances.length
  · rw [if_pos hd]
  · have hnone : s.instances[d]? = none := List.getElem?_eq_none (Nat.le_of_not_lt hd)
    rw [if_neg hd, hnone]
    cases d - s.instances.length with
    | zero => rfl
    | succ n => rfl

/-- The invariant of the process: the shutdown loop goes over every connection once, and a
    connection has been told exactly if the loop is past it. -/
structure Server.Good (s : Server W) : Prop where
  nodup : s.active_connections.Nodup
  bounded : ∀ c ∈ s.active_connections, c < s.instances.length
  loop_nodup : ∀ rest, s.farewell_loop = some rest → rest.Nodup
  idle : s.farewell_loop = none → ∀ c, s.farewells c = []
  untold : ∀ rest, s.farewell_loop = some rest → ∀ c ∈ rest, s.farewells c = []
  told : ∀ rest, s.farewell_loop = some rest → ∀ c ∈ s.active_connections, c ∈ rest ∨ s.Told c

/-- Every connection has been told good bye, once; the client that has quit may have its own
    `bye bye` instead.  No connection is left whose reader has returned. -/
def Server.EveryoneTold (s : Server W) (e : Ending) : Prop :=
  ∀ c ∈ s.active_connections, ∃ i, s.instances[c]? = some i ∧ i.reading = true ∧
    ((∃ json_mode, i.farewells = [shutdownMessage json_mode]) ∨
      e = .quit c ∧ i.farewells = [] ∧ ∃ written json_mode a,
        i.machine.written = written ++ [⟨json_mode, .note a "bye bye"⟩])

/-- The shutdown loop has been at the connection. -/
def Server.Passed (s : Server W) (c : Nat) : Prop := ∃ rest, s.farewell_loop = some rest ∧ c ∉ rest

/-- The event takes the others into account: a client quits when it is the only one, or when the
    shutdown loop has been at all the others; no client connects once the loop has begun; and the
    process does not end between the return of a reader and its removal. -/
def Considerate (s : Server W) : ServerEvent → Prop
  | .accept => s.farewell_loop = none
  | .command c lineTokens =>
      (∃ cmd, dispatched lineTokens = some cmd ∧ cmd.action = .quit) →
        s.NoneReturning ∧ ∀ d ∈ s.active_connections, d ≠ c → s.Passed d
  | .finish => s.NoneReturning
  | _ => True

/-- The invariant holds before the first connection. -/
theorem Server.Good.new (json_mode : Bool) (working_directory : String) (w : W) :
    (Server.new json_mode working_directory w).Good where
  nodup := List.nodup_nil
  bounded _ h := absurd h List.not_mem_nil
  loop_nodup _ h := absurd h nofun
  idle _ _ := rfl
  untold _ h := absurd h nofun
  told _ h := absurd h nofun

/-- What changes neither the connections nor the farewells keeps the invariant. -/
theorem Server.Good.congr {s s' : Server W} (h : s.Good)
    (hactive : s'.active_connections = s.active_connections)
    (hlength : s'.instances.length = s.instances.length)
    (hloop : s'.farewell_loop = s.farewell_loop)
    (hfarewells : ∀ c, s'.farewells c = s.farewells c) : s'.Good := by
  constructor
  · exact hactive ▸ h.nodup
  · rw [hactive, hlength]; exact h.bounded
  · rw [hloop]; exact h.loop_nodup
  · intro hnone c
    rw [hfarewells, h.idle (hloop ▸ hnone)]
  · intro rest hrest c hc
    rw [hfarewells, h.untold rest (hloop ▸ hrest) c hc]
  · intro rest hrest c hc
    unfold Server.Told
    rw [hfarewells]
    exact h.told rest (hloop ▸ hrest) c (hactive ▸ hc)

theorem Server.Good.accept {s : Server W} (h : s.Good) (hloop : s.farewell_loop = none) :
    s.accept.Good := by
  have hnone : s.accept.farewell_loop = none := hloop
  constructor
  · refine List.nodup_append.mpr ⟨h.nodup, List.nodup_cons.mpr ⟨List.not_mem_nil, List.nodup_nil⟩,
      fun c hc d hd heq => ?_⟩
    obtain rfl := List.mem_singleton.mp hd
    exact absurd (h.bounded c hc) (by omega)
  · intro c hc
    show c < (s.instances ++ [_]).length
    rw [List.length_append, List.length_singleton]
    rcases List.mem_append.mp hc with hc | hc
    · have hlt := h.bounded c hc
      omega
    · obtain rfl := List.mem_singleton.mp hc
      omega
  · exact fun rest hrest => absurd (hnone.symm.trans hrest) nofun
  · exact fun _ c => (farewells_accept s c).trans (h.idle hloop c)
  · exact fun rest hrest => absurd (hnone.symm.trans hrest) nofun
  · exact fun rest hrest => absurd (hnone.symm.trans hrest) nofun

/-- Who has left may be taken off the list. -/
theorem Server.Good.removeConnection {s : Server W} (h : s.Good) (c : Nat) :
    (s.removeConnection c).Good where
  nodup := h.nodup.filter _
  bounded d hd := h.bounded d (List.mem_filter.mp hd).1
  loop_nodup := h.loop_nodup
  idle := h.idle
  untold := h.untold
  told rest hrest d hd := h.told rest hrest d (List.mem_filter.mp hd).1

/-- The shutdown loop starts with every connection. -/
theorem Server.Good.getConnections {s : Server W} (h : s.Good) (hloop : s.farewell_loop = none) :
    { s with farewell_loop := some s.active_connections : Server W }.Good where
  nodup := h.nodup
  bounded := h.bounded
  loop_nodup _ hrest := Option.some.inj hrest ▸ h.nodup
  idle hnone := absurd hnone nofun
  untold _ _ c _ := h.idle hloop c
  told _ hrest _ hc := .inl (Option.some.inj hrest ▸ hc)

/-- A round of the shutdown loop tells its connection, and no other. -/
theorem Server.Good.farewell {s : Server W} (h : s.Good) {c : Nat} {rest : List Nat}
    {i : Instance W} (hloop : s.farewell_loop = some (c :: rest))
    (hi : s.instances[c]? = some i) :
    { s with instances := s.instances.set c i.writeShutdownMessage,
             farewell_loop := some rest : Server W }.Good := by
  obtain ⟨hlt, -⟩ := List.getElem?_eq_some_iff.mp hi
  obtain ⟨hnotin, hrest⟩ := List.nodup_cons.mp (h.loop_nodup _ hloop)
  let s' : Server W := { s with instances := s.instances.set c i.writeShutdownMessage,
                                farewell_loop := some rest }
  have hother : ∀ d, d ≠ c → s'.farewells d = s.farewells d := by
    intro d hd
    show (match (s.instances.set c _)[d]? with | some i => i.farewells | none => []) = _
    rw [List.getElem?_set, if_neg (Ne.symm hd)]
    rfl
  -- whoever is still in the loop has not been told
  have huntold : i.farewells = [] := by
    have hc := h.untold _ hloop c List.mem_cons_self
    unfold Server.farewells at hc
    rwa [hi] at hc
  have htold : s'.Told c := by
    refine ⟨i.machine.session.json_mode, ?_⟩
    show (match (s.instances.set c _)[c]? with | some i => i.farewells | none => []) = _
    rw [List.getElem?_set, if_pos rfl, if_pos hlt]
    show i.farewells ++ _ = _
    rw [huntold]; rfl
  show s'.Good
  constructor
  · exact h.nodup
  · intro d hd
    show d < (s.instances.set c _).length
    rw [List.length_set]
    exact h.bounded d hd
  · exact fun rest' hrest' => Option.some.inj hrest' ▸ hrest
  · exact fun hnone => absurd hnone nofun
  · intro rest' hrest' d hd
    obtain rfl := Option.some.inj hrest'
    rw [hother d fun heq => hnotin (heq ▸ hd)]
    exact h.untold _ hloop d (List.mem_cons_of_mem _ hd)
  · intro rest' hrest' d hd
    obtain rfl := Option.some.inj hrest'
    by_cases hdc : d = c
    · exact .inr (hdc ▸ htold)
    · rcases h.told _ hloop d hd with hmem | htold
      · exact .inl ((List.mem_cons.mp hmem).resolve_left hdc)
      · refine .inr ?_
        unfold Server.Told
        rw [hother d hdc]
        exact htold

/-! ## Runs -/

/-- While the process is there the invariant holds, and when it ends everyone is told. -/
def Server.Orderly (s : Server W) : Prop :=
  match s.ended with
  | none => s.Good
  | some .crashed => True
  | some e => s.EveryoneTold e

/-- At any time, a connection that has been told has been told once. -/
theorem Server.Good.farewells {s : Server W} (h : s.Good) {c : Nat}
    (hc : c ∈ s.active_connections) : s.farewells c = [] ∨ s.Told c := by
  cases hloop : s.farewell_loop with
  | none => exact .inl (h.idle hloop c)
  | some rest =>
    rcases h.told rest hloop c hc with hmem | htold
    · exact .inl (h.untold rest hloop c hmem)
    · exact .inr htold

/-- A connection that the shutdown loop has been at is told. -/
theorem Server.Good.told_of_passed {s : Server W} (h : s.Good) {c : Nat}
    (hc : c ∈ s.active_connections) (hpassed : s.Passed c) : s.Told c := by
  obtain ⟨rest, hloop, hnotin⟩ := hpassed
  exact (h.told rest hloop c hc).resolve_left hnotin

theorem Server.farewells_of_some {s : Server W} {c : Nat} {i : Instance W}
    (hi : s.instances[c]? = some i) : s.farewells c = i.farewells := by
  unfold Server.farewells
  rw [hi]

/-- A line is processed: the loop goes on, or the client has quit, or the process has crashed. -/
theorem Server.Good.process {env : Env W} {s : Server W} (h : s.Good) {c : Nat} {i : Instance W}
    {lineTokens : List String} (hi : s.instances[c]? = some i) (hne : lineTokens ≠ [])
    (hconsiderate : Considerate s (.command c lineTokens)) :
    (s.process env c i lineTokens).Orderly := by
  unfold Server.process
  rcases hround : websocketRound lineTokens env
    { i.machine with world := s.world, working_directory := s.working_directory } with ⟨outcome, m⟩
  rcases outcome with ⟨_⟩ | e | (code | _ | _ | _)
  case ok =>
    refine h.congr rfl List.length_set rfl fun d => ?_
    exact farewells_set { i with machine := m } hi rfl rfl d
  case stops.exit =>
    -- only `quit` and `exit` end the process, from the connection that sent them
    obtain ⟨hquit, a, hwritten⟩ := websocketRound_exits hne hround
    obtain ⟨hreading, hpassed⟩ := hconsiderate hquit
    obtain ⟨hlt, -⟩ := List.getElem?_eq_some_iff.mp hi
    intro d hd
    show ∃ i', (s.instances.set c _)[d]? = some i' ∧ _
    rw [List.getElem?_set]
    obtain ⟨j, hj, hreads⟩ := hreading d hd
    by_cases hcd : c = d
    · subst hcd
      obtain rfl : i = j := Option.some.inj (hi.symm.trans hj)
      rw [if_pos rfl, if_pos hlt]
      refine ⟨_, rfl, hreads, ?_⟩
      have hfarewells := h.farewells hd
      unfold Server.Told at hfarewells
      rw [Server.farewells_of_some hi] at hfarewells
      rcases hfarewells with hnone | htold
      · exact .inr ⟨rfl, hnone, _, _, a, hwritten⟩
      · exact .inl htold
    · rw [if_neg hcd]
      refine ⟨j, hj, hreads, .inl ?_⟩
      rw [← Server.farewells_of_some hj]
      exact h.told_of_passed hd (hpassed d hd (Ne.symm hcd))
  all_goals exact trivial

/-- One event keeps the invariant. -/
theorem Server.Orderly.step {env : Env W} (s : Server W) (event : ServerEvent) (s' : Server W)
    (h : s.Orderly) (hstep : Along (ServerStep env) Considerate s event s') : s'.Orderly := by
  obtain ⟨hstep, hconsiderate⟩ := hstep
  have hgood : s.ended = none → s.Good := by
    intro hended
    unfold Server.Orderly at h
    rwa [hended] at h
  -- a state that has not ended is orderly if the invariant holds
  have hgoes : ∀ {s' : Server W}, s'.ended = none → s'.Good → s'.Orderly := by
    intro s' hended h'
    unfold Server.Orderly
    rwa [hended]
  cases hstep with
  | accept hended => exact hgoes hended ((hgood hended).accept hconsiderate)
  | command hended hi _ hne => exact (hgood hended).process hi hne hconsiderate
  | @returns c i hended hi _ =>
    refine hgoes hended ((hgood hended).congr rfl List.length_set rfl fun d => ?_)
    exact farewells_set { i with reading := false } hi rfl rfl d
  | remove hended _ _ => exact hgoes hended ((hgood hended).removeConnection _)
  | signal hended => exact hgoes hended ((hgood hended).congr rfl rfl rfl fun _ => rfl)
  | getConnections hended _ hloop => exact hgoes hended ((hgood hended).getConnections hloop)
  | farewell hended hloop hi => exact hgoes hended ((hgood hended).farewell hloop hi)
  | finish hended hloop =>
    intro c hc
    obtain ⟨i, hi, hreading⟩ := hconsiderate c hc
    refine ⟨i, hi, hreading, .inl ?_⟩
    rcases (hgood hended).told _ hloop c hc with hmem | htold
    · exact absurd hmem List.not_mem_nil
    · unfold Server.Told at htold
      rwa [Server.farewells_of_some hi] at htold

/-- **Every connected client is told about the shutdown**: in every run whose events take the
    others into account, when the process ends by a signal or by a client that quits, every
    connection that is left has been told good bye exactly once, except that the client that has
    quit may have had its own answer only. -/
theorem everyone_told {env : Env W} {json_mode : Bool} {working_directory : String} {w : W}
    {events : List ServerEvent} {s : Server W} {e : Ending}
    (hrun : Run (Along (ServerStep env) Considerate) (Server.new json_mode working_directory w)
      events s) (hended : s.ended = some e) (hcrashed : e ≠ .crashed) : s.EveryoneTold e := by
  have horderly : s.Orderly :=
    Run.invariant Server.Orderly.step hrun (Server.Good.new json_mode working_directory w)
  unfold Server.Orderly at horderly
  rw [hended] at horderly
  cases e with
  | signalled => exact horderly
  | quit c => exact horderly
  | crashed => exact absurd rfl hcrashed

/-- Two clients, and a signal. -/
theorem everyone_told_signal :
    (⟨false, (), "", [⟨Machine.new false "" (), true, ["bye"]⟩,
      ⟨Machine.new false "" (), true, ["bye"]⟩], [0, 1], true, some [], some .signalled⟩ :
        Server Unit).EveryoneTold .signalled := by
  let client : Instance Unit := ⟨Machine.new false "" (), true, []⟩
  let told : Instance Unit := ⟨Machine.new false "" (), true, ["bye"]⟩
  let at_ (instances : List (Instance Unit)) (requested : Bool) (loop : Option (List Nat))
      (ended : Option Ending) : Server Unit :=
    ⟨false, (), "", instances, List.range instances.length, requested, loop, ended⟩
  have hrun : Run (Along (ServerStep Env.answering) Considerate) (Server.new false "" ())
      [.accept, .accept, .signal, .getConnections, .farewell, .farewell, .finish]
      (at_ [told, told] true (some []) (some .signalled)) := by
    refine .cons ⟨.accept rfl, rfl⟩ (.cons ⟨.accept rfl, rfl⟩ (.cons ⟨.signal rfl, trivial⟩
      (.cons ⟨.getConnections rfl rfl rfl, trivial⟩ ?_)))
    have hfirst : ServerStep Env.answering (at_ [client, client] true (some [0, 1]) none) .farewell
        (at_ [told, client] true (some [1]) none) := .farewell (c := 0) (i := client) rfl rfl rfl
    have hsecond : ServerStep Env.answering (at_ [told, client] true (some [1]) none) .farewell
        (at_ [told, told] true (some []) none) := .farewell (c := 1) (i := client) rfl rfl rfl
    refine .cons ⟨hfirst, trivial⟩ (.cons ⟨hsecond, trivial⟩
      (.one ⟨.finish rfl rfl, fun c hc => ?_⟩))
    rcases List.mem_cons.mp hc with rfl | hc
    · exact ⟨told, rfl, rfl⟩
    · obtain rfl := List.mem_singleton.mp hc
      exact ⟨told, rfl, rfl⟩
  exact everyone_told hrun rfl (by decide)

/-- Two clients, and one of them quits: the other one is not told. -/
theorem not_everyone_told : ¬ ∀ (W : Type) (env : Env W) (json_mode : Bool)
    (working_directory : String) (w : W) (events : List ServerEvent) (s : Server W) (e : Ending),
    Run (ServerStep env) (Server.new json_mode working_directory w) events s →
    s.ended = some e → e ≠ .crashed → s.EveryoneTold e := by
  intro h
  let client : Instance Unit := ⟨Machine.new false "" (), true, []⟩
  let s : Server Unit := (Server.new false "" ()).accept.accept
  have hrun : Run (ServerStep Env.answering) (Server.new false "" ())
      [.accept, .accept, .command 0 ["exit"]] (s.process Env.answering 0 client ["exit"]) :=
    .cons (.accept rfl) (.cons (.accept rfl) (.one (.command rfl rfl rfl (by decide))))
  obtain ⟨i, hi, -, htold⟩ := h Unit Env.answering false "" () _ _ (.quit 0) hrun rfl
    (by decide) 1 (.tail _ (.head _))
  obtain rfl : client = i := Option.some.inj hi
  rcases htold with ⟨json_mode, hfarewells⟩ | ⟨hquit, -⟩
  · exact absurd hfarewells nofun
  · exact absurd hquit (by decide)

end FepControl
