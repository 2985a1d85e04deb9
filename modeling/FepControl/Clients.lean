/-
  What a websocket client notices of the others.

  Each client has a session of its own, but all of them run in one process, in whatever order the
  threads get their turn.  That they do not notice each other is a statement about two runs: one
  with all of the clients, and one with a single client that sends the same lines.  What the library
  knows of several clients is not the tool's affair, so the clients are given worlds of their own;
  what is left is what they share inside of the process.

  1. **A library with a world for every client** -- `Env.forClient` answers a client from its own
     world, and changes no other.  Then all that the clients share is the process.

  2. **Two runs** -- the server receives lines from its clients in any order (`Server.serve`), or
     only those of the client `c`.  `SameFor` says what of a machine `c` can notice; the working
     directory of the process is not part of it.

  3. **A simulation** -- the two servers stay abreast of each other (`Abreast`): a line of another
     client leaves the part that `c` sees, and a line of `c` does the same to both.  That a handler
     looks only at this part is read off how it is made (`Local.alike`).

  4. **answeredAlone** -- a client is answered as if it were alone, as long as no command breaks the
     process and a command on the working directory finds what it would find in the directory that
     the commands of its own client have led to (`Undisturbed`).
-/
import FepControl.Local
import FepControl.Server

namespace FepControl

open Lib

variable {V W : Type}

/-! ## The library of a client -/

/-- The library as the client `c` uses it. -/
def Env.forClient (env : Env V) (c : Nat) : Env (Nat → V) where
  fep3 call w := ((env.fep3 call (w c)).1,
    fun d => if d = c then (env.fep3 call (w c)).2 else w d)
  stateId := env.stateId
  json := env.json
  parse := env.parse
  buildRequest := env.buildRequest
  makeCanonical := env.makeCanonical
  setWorkingDirectory := env.setWorkingDirectory
  recordsMeanwhile w := env.recordsMeanwhile (w c)
  stackDepth := env.stackDepth

/-- What the client `c` can notice of two machines is the same. -/
structure SameFor (c : Nat) (m m' : Machine (Nat → V)) : Prop where
  session : m.session = m'.session
  written : m.written = m'.written
  logged : m.logged = m'.logged
  calls : m.calls = m'.calls
  world : m.world c = m'.world c

/-- A response is noticed in both machines. -/
theorem SameFor.wrote {c : Nat} {m m' : Machine (Nat → V)} (h : SameFor c m m') (r : Response) :
    SameFor c (m.wrote r) (m'.wrote r) where
  session := h.session
  written := by
    show m.written ++ [⟨m.session.json_mode, r⟩] = m'.written ++ [⟨m'.session.json_mode, r⟩]
    rw [h.written, h.session]
  logged := h.logged
  calls := h.calls
  world := h.world

/-- The world of every client but `d` is left alone, and so is the working directory. -/
def Elsewhere (d : Nat) (m m' : Machine (Nat → V)) : Prop :=
  (∀ e, e ≠ d → m'.world e = m.world e) ∧ m'.working_directory = m.working_directory

section

variable {env : Env V} {c : Nat} {α : Type} {part : Control (Nat → V) α}

/-- A call of the library takes place in the world of the client. -/
theorem fep3_forClient (call : Call) (m : Machine (Nat → V)) :
    fep3 call (env.forClient c) m =
      match (env.fep3 call (m.world c)).1 with
      | .ok reply => (.ok reply, m.called call false
          fun d => if d = c then (env.fep3 call (m.world c)).2 else m.world d)
      | .error what => (.throws what, m.called call true
          fun d => if d = c then (env.fep3 call (m.world c)).2 else m.world d) := by
  unfold fep3 Env.forClient
  rcases hreply : env.fep3 call (m.world c) with ⟨_ | _, v⟩
  · simp only [hreply]
  · simp only [hreply]

/-- A call of `c` changes the world of `c` in both. -/
theorem SameFor.called {m m' : Machine (Nat → V)} (h : SameFor c m m') (call : Call)
    (threw : Bool) (v : V) : SameFor c
      (m.called call threw fun d => if d = c then v else m.world d)
      (m'.called call threw fun d => if d = c then v else m'.world d) where
  session := h.session
  written := h.written
  logged := h.logged
  calls := by
    show m.calls ++ _ = m'.calls ++ _
    rw [h.calls]
  world := by
    show (if c = c then v else m.world c) = if c = c then v else m'.world c
    rw [if_pos rfl, if_pos rfl]

/-- A local step cannot tell two machines apart that are the same for its client. -/
theorem Local.alike (hpart : Local α part) {m m' : Machine (Nat → V)} (h : SameFor c m m') :
    Eff.Related (SameFor c) Eq (part (env.forClient c) m) (part (env.forClient c) m') := by
  cases hpart with
  | basic hbasic =>
    cases hbasic with
    | @call call _ =>
      rw [fep3_forClient, fep3_forClient, ← h.world]
      cases (env.fep3 call (m.world c)).1 with
      | ok reply => exact ⟨rfl, h.called call false _⟩
      | error what => exact ⟨rfl, h.called call true _⟩
    | write r => exact ⟨rfl, h.wrote r⟩
    | @update f _ =>
      exact ⟨rfl, ⟨congrArg f h.session, h.written, h.logged, h.calls, h.world⟩⟩
    | session => exact ⟨h.session, h⟩
    | read => exact ⟨rfl, h⟩
  | meanwhile =>
    rw [monitorMeanwhile_eq, monitorMeanwhile_eq]
    refine ⟨rfl, ⟨h.session, h.written, ?_, h.calls, h.world⟩⟩
    show m.logged ++ (env.recordsMeanwhile (m.world c)).map _ =
      m'.logged ++ (env.recordsMeanwhile (m'.world c)).map _
    rw [h.logged, h.world, h.session]

/-- A local step stays in the world of its client. -/
theorem Local.elsewhere (hpart : Local α part) (m : Machine (Nat → V)) :
    part.wp (env.forClient c) (Eff.framePost (Elsewhere c) m) m := by
  have hrefl : Elsewhere c m m := ⟨fun _ _ => rfl, rfl⟩
  cases hpart with
  | basic hbasic =>
    cases hbasic with
    | @call call _ =>
      have hcalled : ∀ threw v, Elsewhere c m
          (m.called call threw fun d => if d = c then v else m.world d) :=
        fun _ _ => ⟨fun e he => if_neg he, rfl⟩
      unfold Eff.wp
      rw [fep3_forClient]
      cases (env.fep3 call (m.world c)).1 with
      | ok reply => exact hcalled _ _
      | error what => exact hcalled _ _
    | write r => exact hrefl
    | update _ => exact hrefl
    | session => exact hrefl
    | read => exact hrefl
  | meanwhile =>
    unfold Eff.wp
    rw [monitorMeanwhile_eq]
    exact hrefl

end

/-! ## A round of the loop -/

/-- A line that does not break the process and does not end it is answered, whatever the library
    does. -/
theorem websocketRound_ok {env : Env W} {m : Machine W} {lineTokens : List String}
    (hne : lineTokens ≠ []) (hexit : lineTokens.head? ≠ some "exit")
    (hquit : lineTokens.head? ≠ some "quit") (hbreaks : ¬ Breaks env m lineTokens) :
    ∃ m', websocketRound lineTokens env m = (.ok (), m') := by
  have hstops : ¬ Eff.Stops (processCommandline lineTokens) env m := by
    cases hd : dispatched lineTokens with
    | none =>
      obtain ⟨_, _, _, hrejected⟩ := processCommandline_rejected hd hne env m
      rw [Eff.stops_iff]
      rintro ⟨d, m', hstops⟩
      exact absurd (hrejected.symm.trans hstops) nofun
    | some cmd =>
      rw [processCommandline_stops hd (action_ne_quit hexit hquit hd)]
      exact fun hcrashes => hbreaks ⟨cmd, hd, hcrashes⟩
  rw [websocketRound, Eff.tryCatch_apply, commandLineRound, Eff.bind_apply]
  rcases hline : processCommandline lineTokens env m with ⟨_ | e | d, m'⟩
  · exact ⟨m', rfl⟩
  · exact ⟨_, rfl⟩
  · exact absurd (Eff.stops_iff.mpr ⟨d, m', hline⟩) hstops

/-- What a line for a handler that returns does. -/
theorem websocketRound_of_invoke {env : Env W} {m m' : Machine W} {lineTokens : List String}
    {cmd : ControlCommand} {b : Bool} (hd : dispatched lineTokens = some cmd)
    (h : cmd.action.invoke (begin_ lineTokens) (end_ lineTokens) env m = (.ok b, m')) :
    websocketRound lineTokens env m = (.ok (), m') := by
  refine websocketRound_of_ok ?_
  rw [commandLineRound, processCommandline_dispatched hd, Eff.bind_apply, Eff.bind_of_ok h]
  rfl

/-- The answer to `getCurrentWorkingDirectory`. -/
theorem round_getCurrentWorkingDirectory {lineTokens : List String} {cmd : ControlCommand}
    (hd : dispatched lineTokens = some cmd)
    (haction : cmd.action = .getCurrentWorkingDirectory) :
    ∃ a, ∀ (env : Env W) (m : Machine W), websocketRound lineTokens env m =
      (.ok (), m.wrote (.attr a ("working_directory", m.working_directory))) := by
  obtain ⟨-, -, -, hmin, hmax⟩ := dispatched_some hd
  rw [haction] at hmin hmax
  obtain ⟨a, rfl⟩ := eq_one (Nat.le_antisymm hmax hmin)
  refine ⟨a, fun env m => websocketRound_of_invoke (b := true) hd ?_⟩
  rw [haction]
  rfl

/-- What `setCurrentWorkingDirectory` answers once it has tried. -/
def directoryResponse (a path : String) (result : FilesystemError) : Response :=
  if result = .OK then .attr a ("working_directory", path)
  else .error a ("cannot set working directory to '" ++ path ++ "'") .filesystem_error
    (resolveFilesystemErrorCode result)

theorem round_setCurrentWorkingDirectory {lineTokens : List String} {cmd : ControlCommand}
    (hd : dispatched lineTokens = some cmd)
    (haction : cmd.action = .setCurrentWorkingDirectory) :
    ∃ a d, lineTokens = [a, d] ∧ ∀ (env : Env W) (m : Machine W),
      websocketRound lineTokens env m = (.ok (),
        Machine.wrote { m with working_directory :=
            (env.setWorkingDirectory m.working_directory (env.makeCanonical d)).2 }
          (directoryResponse a (env.makeCanonical d)
            (env.setWorkingDirectory m.working_directory (env.makeCanonical d)).1)) := by
  obtain ⟨-, -, -, hmin, hmax⟩ := dispatched_some hd
  rw [haction] at hmin hmax
  obtain ⟨a, d, rfl⟩ := eq_two (Nat.le_antisymm hmax hmin)
  refine ⟨a, d, rfl, fun env m => ?_⟩
  unfold directoryResponse
  by_cases hresult :
      (env.setWorkingDirectory m.working_directory (env.makeCanonical d)).1 = .OK
  · refine websocketRound_of_invoke (b := true) hd ?_
    rw [haction, if_pos hresult]
    show (if (env.setWorkingDirectory m.working_directory (env.makeCanonical d)).1 = .OK then _
      else _ : Control W Bool) env _ = _
    rw [if_pos hresult]
    rfl
  · refine websocketRound_of_invoke (b := false) hd ?_
    rw [haction, if_neg hresult]
    show (if (env.setWorkingDirectory m.working_directory (env.makeCanonical d)).1 = .OK then _
      else _ : Control W Bool) env _ = _
    rw [if_neg hresult]
    rfl

/-! ## The directory of a client -/

/-- The directory that a line of a client leads to, if the process is in `directory` before it. -/
def directoryAfter (env : Env W) (directory : String) (lineTokens : List String) : String :=
  match dispatched lineTokens with
  | some cmd =>
      if cmd.action = .setCurrentWorkingDirectory then
        (env.setWorkingDirectory directory (env.makeCanonical (lineTokens.getD 1 ""))).2
      else directory
  | none => directory

/-- From the two directories the line is answered alike: one that asks for the directory finds the
    same one, and one that sets it gets the same result. -/
def AnsweredAlike (env : Env W) (directory directory' : String) (lineTokens : List String) :
    Prop :=
  ∀ cmd, dispatched lineTokens = some cmd →
    (cmd.action = .getCurrentWorkingDirectory → directory = directory') ∧
      (cmd.action = .setCurrentWorkingDirectory →
        (env.setWorkingDirectory directory (env.makeCanonical (lineTokens.getD 1 ""))).1 =
          (env.setWorkingDirectory directory' (env.makeCanonical (lineTokens.getD 1 ""))).1)

/-- The two commands on the directory. -/
theorem action_of_onDirectory {f : ActionFunction} (h : f.onDirectory = true) :
    f = .setCurrentWorkingDirectory ∨ f = .getCurrentWorkingDirectory := by
  cases f <;> first | exact .inl rfl | exact .inr rfl | exact absurd h (by decide)

section

variable {env : Env V} {lineTokens : List String} (hne : lineTokens ≠ [])
  (hexit : lineTokens.head? ≠ some "exit") (hquit : lineTokens.head? ≠ some "quit")

include hne hexit hquit

/-- **A round for the client `d`** leaves the worlds of the others alone. -/
theorem round_elsewhere {d : Nat} {m m' : Machine (Nat → V)}
    (h : websocketRound lineTokens (env.forClient d) m = (.ok (), m')) {c : Nat} (hc : c ≠ d) :
    m'.world c = m.world c := by
  by_cases hdirectory : OnDirectory lineTokens
  · obtain ⟨cmd, hd, hcmd⟩ := hdirectory
    rcases action_of_onDirectory hcmd with haction | haction
    · obtain ⟨a, path, -, hround⟩ :=
        round_setCurrentWorkingDirectory (W := Nat → V) hd haction
      obtain ⟨-, rfl⟩ := Prod.mk.inj ((hround _ m).symm.trans h)
      rfl
    · obtain ⟨a, hround⟩ := round_getCurrentWorkingDirectory (W := Nat → V) hd haction
      obtain ⟨-, rfl⟩ := Prod.mk.inj ((hround _ m).symm.trans h)
      rfl
  · have hlocal : MadeLocal (· = env.forClient d) (websocketRound lineTokens) :=
      websocketRound_local hne hexit hquit hdirectory
    have hframe := hlocal.frame (R := Elsewhere d) (fun _ => ⟨fun _ _ => rfl, rfl⟩)
      (fun h h' => ⟨fun e he => (h'.1 e he).trans (h.1 e he), h'.2.trans h.2⟩)
      (fun _ _ hpart r m hr => hr ▸ hpart.elsewhere m) rfl m
    exact (Eff.wp_ok hframe h).1 c hc

/-- **A round for the client `c`**, from two machines that are the same for it and that answer the
    line alike, ends in two machines that are the same for it. -/
theorem round_alike {c : Nat} {m m' m₁ : Machine (Nat → V)} (hsame : SameFor c m m')
    (hanswered : AnsweredAlike env m.working_directory m'.working_directory lineTokens)
    (h : websocketRound lineTokens (env.forClient c) m = (.ok (), m₁)) :
    ∃ m₁', websocketRound lineTokens (env.forClient c) m' = (.ok (), m₁') ∧ SameFor c m₁ m₁' ∧
      m₁'.working_directory = directoryAfter env m'.working_directory lineTokens := by
  by_cases hdirectory : OnDirectory lineTokens
  · obtain ⟨cmd, hd, hcmd⟩ := hdirectory
    obtain ⟨hget, hset⟩ := hanswered cmd hd
    rcases action_of_onDirectory hcmd with haction | haction
    · obtain ⟨a, path, rfl, hround⟩ :=
        round_setCurrentWorkingDirectory (W := Nat → V) hd haction
      obtain ⟨-, rfl⟩ := Prod.mk.inj ((hround _ m).symm.trans h)
      refine ⟨_, hround _ m', ?_, ?_⟩
      -- only the result of the change is written, and it is the same from both directories
      · have hresult : ((env.forClient c).setWorkingDirectory m.working_directory
            ((env.forClient c).makeCanonical path)).1 =
              ((env.forClient c).setWorkingDirectory m'.working_directory
                ((env.forClient c).makeCanonical path)).1 := hset haction
        rw [hresult]
        refine SameFor.wrote ?_ _
        exact ⟨hsame.session, hsame.written, hsame.logged, hsame.calls, hsame.world⟩
      · unfold directoryAfter
        rw [hd]
        exact (if_pos haction).symm
    · obtain ⟨a, hround⟩ := round_getCurrentWorkingDirectory (W := Nat → V) hd haction
      obtain ⟨-, rfl⟩ := Prod.mk.inj ((hround _ m).symm.trans h)
      refine ⟨_, hround _ m', ?_, ?_⟩
      · rw [hget haction]
        exact hsame.wrote _
      · unfold directoryAfter
        rw [hd]
        exact (if_neg (by rw [haction]; decide)).symm
  · -- any other line is local: what the two machines share determines the round
    have hlocal : MadeLocal (· = env.forClient c) (websocketRound lineTokens) :=
      websocketRound_local hne hexit hquit hdirectory
    have halike := hlocal.alike (S := SameFor c) (fun _ _ hpart r _ _ hr hs => hr ▸ hpart.alike hs)
      rfl hsame
    have hframe := hlocal.frame (R := Elsewhere c) (fun _ => ⟨fun _ _ => rfl, rfl⟩)
      (fun h h' => ⟨fun e he => (h'.1 e he).trans (h.1 e he), h'.2.trans h.2⟩)
      (fun _ _ hpart r m hr => hr ▸ hpart.elsewhere m) rfl m'
    rw [h] at halike
    rcases hround : websocketRound lineTokens (env.forClient c) m' with ⟨_ | e | d, m₁'⟩
    · rw [hround] at halike
      refine ⟨m₁', rfl, halike.2, ?_⟩
      have hstays := (Eff.wp_ok hframe hround).2
      -- a line that is not about the directory leaves it where it was
      rw [hstays]
      unfold directoryAfter
      split
      · rename_i cmd hd
        rw [if_neg fun haction => hdirectory ⟨cmd, hd, by rw [haction]; rfl⟩]
      · rfl
    · rw [hround] at halike
      exact halike.elim
    · rw [hround] at halike
      exact halike.elim

end

/-! ## Lines from clients -/

/-- The machine of an instance, in the process as it is. -/
def Server.machineOf (s : Server W) (i : Instance W) : Machine W :=
  { i.machine with world := s.world, working_directory := s.working_directory }

/-- The client `c` sends a message: its instance processes it, unless it has no tokens. -/
def Server.receive (env : Env V) (s : Server (Nat → V)) (c : Nat) (input : String) :
    Server (Nat → V) :=
  match s.instances[c]? with
  | some i =>
      if s.ended = none ∧ i.reading = true ∧ parseLine input ≠ [] then
        s.process (env.forClient c) c i (parseLine input)
      else s
  | none => s

/-- The messages of the clients, in the order in which they arrive. -/
def Server.serve (env : Env V) (s : Server (Nat → V)) (inputs : List (Nat × String)) :
    Server (Nat → V) :=
  inputs.foldl (fun s input => s.receive env input.1 input.2) s

/-- What a client has been answered. -/
def Server.responses (s : Server W) (c : Nat) : List Written :=
  match s.instances[c]? with
  | some i => i.machine.written
  | none => []

/-- What arrives is processed in a step of the server. -/
theorem Server.receive_steps (env : Env V) (s : Server (Nat → V)) (c : Nat) (input : String) :
    s.receive env c input = s ∨
      ServerStep (env.forClient c) s (.command c (parseLine input)) (s.receive env c input) := by
  unfold Server.receive
  cases hi : s.instances[c]? with
  | none => exact .inl rfl
  | some i =>
    simp only
    by_cases h : s.ended = none ∧ i.reading = true ∧ parseLine input ≠ []
    · rw [if_pos h]
      exact .inr (.command h.1 hi h.2.1 h.2.2)
    · rw [if_neg h]
      exact .inl rfl

/-- The server, and for every client the directory that its own commands have led to. -/
structure Watched (V : Type) where
  server : Server (Nat → V)
  own : Nat → String

/-- The server when the watch begins. -/
def Server.watched (s : Server (Nat → V)) : Watched V := ⟨s, fun _ => s.working_directory⟩

/-- A message of a client arrives. -/
def Watched.receive (env : Env V) (x : Watched V) (input : Nat × String) : Watched V where
  server := x.server.receive env input.1 input.2
  own c := if c = input.1 then directoryAfter env (x.own c) (parseLine input.2) else x.own c

/-- A message arrives, as a step. -/
def Receives (env : Env V) (x : Watched V) (input : Nat × String) (x' : Watched V) : Prop :=
  x' = x.receive env input

/-- **The message does not meet the other clients**: it does not break the process, and if it is
    about the working directory, the process answers it as it would in the directory that the
    commands of its own client have led to. -/
def Undisturbed (env : Env V) (x : Watched V) (input : Nat × String) : Prop :=
  ∀ i, x.server.instances[input.1]? = some i →
    ¬ Breaks (env.forClient input.1) (x.server.machineOf i) (parseLine input.2) ∧
      AnsweredAlike env x.server.working_directory (x.own input.1) (parseLine input.2)

/-- **The client `c` is answered as if it were alone.** -/
def AnsweredAlone (env : Env V) (s : Server (Nat → V)) (inputs : List (Nat × String))
    (c : Nat) : Prop :=
  (s.serve env inputs).responses c =
    (s.serve env (inputs.filter fun input => input.1 == c)).responses c

/-- The server with all clients and the server with `c` alone, as far as `c` can notice. -/
structure Abreast (c : Nat) (x : Watched V) (t : Server (Nat → V)) : Prop where
  going : x.server.ended = none ∧ t.ended = none
  same : ∃ i i', x.server.instances[c]? = some i ∧ t.instances[c]? = some i' ∧
    i.reading = true ∧ i'.reading = true ∧ SameFor c (x.server.machineOf i) (t.machineOf i')
  own : x.own c = t.working_directory

theorem Abreast.start {s : Server (Nat → V)} (hended : s.ended = none) {c : Nat}
    {i : Instance (Nat → V)} (hi : s.instances[c]? = some i) (hreading : i.reading = true) :
    Abreast c s.watched s where
  going := ⟨hended, hended⟩
  same := ⟨i, i, hi, hi, hreading, hreading, rfl, rfl, rfl, rfl, rfl⟩
  own := rfl

/-- While the servers are abreast, `c` has got the same responses. -/
theorem Abreast.responses {c : Nat} {x : Watched V} {t : Server (Nat → V)} (h : Abreast c x t) :
    x.server.responses c = t.responses c := by
  obtain ⟨i, i', hi, hi', -, -, hsame⟩ := h.same
  unfold Server.responses
  rw [hi, hi']
  exact hsame.written

/-- A message without tokens is skipped. -/
theorem Server.receive_empty {env : Env V} {s : Server (Nat → V)} {c : Nat} {input : String}
    (h : parseLine input = []) : s.receive env c input = s := by
  unfold Server.receive
  split
  · rw [if_neg fun hgoes => hgoes.2.2 h]
  · rfl

/-- The server after a round of an instance that has returned. -/
theorem Server.receive_eq {env : Env V} {s : Server (Nat → V)} {c : Nat} {input : String}
    {i : Instance (Nat → V)} {m : Machine (Nat → V)} (hi : s.instances[c]? = some i)
    (hended : s.ended = none) (hreading : i.reading = true) (hne : parseLine input ≠ [])
    (hround : websocketRound (parseLine input) (env.forClient c) (s.machineOf i) = (.ok (), m)) :
    s.receive env c input = { s with
      world := m.world
      working_directory := m.working_directory
      instances := s.instances.set c { i with machine := m }
      ended := none } := by
  unfold Server.receive
  rw [hi]
  simp only
  rw [if_pos ⟨hended, hreading, hne⟩]
  unfold Server.process
  rw [show websocketRound (parseLine input) (env.forClient c)
    { i.machine with world := s.world, working_directory := s.working_directory } = _ from hround]

/-! ## Step by step -/

/-- No client of the messages says good bye. -/
def NobodyQuits (inputs : List (Nat × String)) : Prop :=
  ∀ input ∈ inputs, (parseLine input.2).head? ≠ some "exit" ∧
    (parseLine input.2).head? ≠ some "quit"

section

variable {env : Env V} {c : Nat} {x : Watched V} {t : Server (Nat → V)} {input : Nat × String}

/-- A message that does not meet the others is skipped, or processed in a round that returns. -/
theorem Undisturbed.receives (h : Undisturbed env x input) (hended : x.server.ended = none)
    (hquits : NobodyQuits [input]) {i : Instance (Nat → V)}
    (hi : x.server.instances[input.1]? = some i) (hreading : i.reading = true)
    (hne : parseLine input.2 ≠ []) :
    ∃ m, websocketRound (parseLine input.2) (env.forClient input.1) (x.server.machineOf i) =
        (.ok (), m) ∧
      (x.receive env input).server = { x.server with
        world := m.world
        working_directory := m.working_directory
        instances := x.server.instances.set input.1 { i with machine := m }
        ended := none } := by
  obtain ⟨hexit, hquit⟩ := hquits input List.mem_cons_self
  obtain ⟨m, hround⟩ := websocketRound_ok hne hexit hquit (h i hi).1
  exact ⟨m, hround, Server.receive_eq hi hended hreading hne hround⟩

/-- A message of another client changes nothing that `c` can notice. -/
theorem Abreast.other (h : Abreast c x t) (hundisturbed : Undisturbed env x input)
    (hquits : NobodyQuits [input]) (hother : c ≠ input.1) :
    Abreast c (x.receive env input) t := by
  obtain ⟨⟨hended, hended'⟩, ⟨i, i', hi, hi', hreading, hreading', hsame⟩, hown⟩ := h
  have hown' : (x.receive env input).own c = t.working_directory := (if_neg hother).trans hown
  by_cases hgoes : ∃ j, x.server.instances[input.1]? = some j ∧ j.reading = true ∧
      parseLine input.2 ≠ []
  · obtain ⟨j, hj, hreads, hne⟩ := hgoes
    obtain ⟨m, hround, hserver⟩ := hundisturbed.receives hended hquits hj hreads hne
    obtain ⟨hexit, hquit⟩ := hquits input List.mem_cons_self
    have hworld := round_elsewhere hne hexit hquit hround hother
    refine ⟨⟨by rw [hserver], hended'⟩, ⟨i, i', ?_, hi', hreading, hreading', ?_⟩, hown'⟩
    · rw [hserver]
      show (x.server.instances.set input.1 _)[c]? = some i
      rw [List.getElem?_set_ne (Ne.symm hother), hi]
    · refine ⟨hsame.session, hsame.written, hsame.logged, hsame.calls, ?_⟩
      show (x.receive env input).server.world c = t.world c
      rw [hserver]
      exact hworld.trans hsame.world
  · -- the message was not read, or it was empty: nothing happened
    have hserver : (x.receive env input).server = x.server := by
      show x.server.receive env input.1 input.2 = x.server
      unfold Server.receive
      split
      · rename_i j hj
        rw [if_neg fun hall => hgoes ⟨j, hj, hall.2⟩]
      · rfl
    refine ⟨⟨by rw [hserver]; exact hended, hended'⟩, ⟨i, i', ?_, hi', hreading, hreading', ?_⟩,
      hown'⟩
    · rw [hserver]; exact hi
    · rw [hserver]; exact hsame

/-- A message of `c` is answered alike by both servers. -/
theorem Abreast.own_message (h : Abreast input.1 x t) (hundisturbed : Undisturbed env x input)
    (hquits : NobodyQuits [input]) :
    Abreast input.1 (x.receive env input) (t.receive env input.1 input.2) := by
  obtain ⟨⟨hended, hended'⟩, ⟨i, i', hi, hi', hreading, hreading', hsame⟩, hown⟩ := h
  by_cases hne : parseLine input.2 = []
  · have hserver : (x.receive env input).server = x.server := Server.receive_empty hne
    have hown' : (x.receive env input).own input.1 = t.working_directory := by
      show (if input.1 = input.1 then _ else _) = _
      rw [if_pos rfl, hne]
      exact hown
    rw [Server.receive_empty hne]
    refine ⟨⟨by rw [hserver]; exact hended, hended'⟩, ⟨i, i', ?_, hi', hreading, hreading', ?_⟩,
      hown'⟩
    · rw [hserver]; exact hi
    · rw [hserver]; exact hsame
  · obtain ⟨hexit, hquit⟩ := hquits input List.mem_cons_self
    obtain ⟨m, hround, hserver⟩ := hundisturbed.receives hended hquits hi hreading hne
    -- what the line answers in the directory of `input.1` itself is what it answers when alone
    have hanswered := (hundisturbed i hi).2
    rw [hown] at hanswered
    obtain ⟨m', hround', hsame', hdirectory⟩ := round_alike hne hexit hquit hsame hanswered hround
    rw [Server.receive_eq hi' hended' hreading' hne hround']
    obtain ⟨hlt, -⟩ := List.getElem?_eq_some_iff.mp hi
    obtain ⟨hlt', -⟩ := List.getElem?_eq_some_iff.mp hi'
    refine ⟨⟨by rw [hserver], rfl⟩,
      ⟨{ i with machine := m }, { i' with machine := m' }, ?_, ?_, hreading, hreading', ?_⟩, ?_⟩
    · rw [hserver]
      exact List.getElem?_set_self hlt
    · exact List.getElem?_set_self hlt'
    · rw [hserver]
      exact hsame'
    · show (if input.1 = input.1 then _ else _) = _
      rw [if_pos rfl, hown]
      exact hdirectory.symm

end

/-- **The run of all clients and the run of `c` alone** stay abreast. -/
theorem Abreast.run {env : Env V} {c : Nat} {inputs : List (Nat × String)} {x x' : Watched V}
    (hrun : Run (Along (Receives env) (Undisturbed env)) x inputs x')
    (hquits : NobodyQuits inputs) {t : Server (Nat → V)} (h : Abreast c x t) :
    Abreast c x' (t.serve env (inputs.filter fun input => input.1 == c)) := by
  induction hrun generalizing t with
  | nil _ => exact h
  | @cons x x₁ x' input inputs hstep _ ih =>
    obtain ⟨rfl, hundisturbed⟩ := hstep
    obtain ⟨hquit, hquits⟩ := List.forall_mem_cons.mp hquits
    have hone : NobodyQuits [input] := List.forall_mem_singleton.mpr hquit
    by_cases hc : input.1 = c
    · subst hc
      rw [List.filter_cons_of_pos (by simp)]
      exact ih hquits (h.own_message hundisturbed hone)
    · rw [List.filter_cons_of_neg (by simpa using hc)]
      exact ih hquits (h.other hundisturbed hone (Ne.symm hc))

/-- The server at the end of a run is the one that has served the messages. -/
theorem server_of_run {env : Env V} {C : Watched V → Nat × String → Prop}
    {inputs : List (Nat × String)} {x x' : Watched V}
    (hrun : Run (Along (Receives env) C) x inputs x') :
    x'.server = x.server.serve env inputs := by
  induction hrun with
  | nil _ => rfl
  | cons hstep _ ih =>
    obtain ⟨rfl, -⟩ := hstep
    exact ih

/-- **Clients do not meet as long as their messages do not**: in every run whose messages leave the
    process in one piece and find the working directory as their own client has left it, every
    connected client has been answered as if it were alone. -/
theorem answeredAlone {env : Env V} {s : Server (Nat → V)} (hended : s.ended = none)
    {inputs : List (Nat × String)} {x : Watched V}
    (hrun : Run (Along (Receives env) (Undisturbed env)) s.watched inputs x)
    (hquits : NobodyQuits inputs) {c : Nat} {i : Instance (Nat → V)}
    (hi : s.instances[c]? = some i) (hreading : i.reading = true) :
    AnsweredAlone env s inputs c := by
  have habreast := (Abreast.start hended hi hreading).run hrun hquits
  unfold AnsweredAlone
  rw [← habreast.responses, server_of_run hrun]
  rfl

/-- Two clients. -/
def twoClients : Server (Nat → Unit) := (Server.new false "/" fun _ => ()).accept.accept

/-- A message about the working directory never breaks the process. -/
theorem undisturbed_directory {env : Env V} {x : Watched V} {c : Nat} {input : String}
    {f : ActionFunction} (hd : (dispatched (parseLine input)).map ControlCommand.action = some f)
    (hf : f.onDirectory = true)
    (hanswered : AnsweredAlike env x.server.working_directory (x.own c) (parseLine input)) :
    Undisturbed env x (c, input) := by
  intro i _
  refine ⟨?_, hanswered⟩
  rintro ⟨cmd, hcmd, hcrashes⟩
  rw [hcmd] at hd
  obtain rfl : cmd.action = f := Option.some.inj hd
  rcases action_of_onDirectory hf with haction | haction
  · rw [haction] at hcrashes
    exact hcrashes
  · rw [haction] at hcrashes
    exact hcrashes

/-- Two clients that both choose a directory, and one of them asks for it at once. -/
theorem answeredAlone_directories : AnsweredAlone Env.answering twoClients
    [(0, "setCurrentWorkingDirectory /tmp"), (1, "setCurrentWorkingDirectory /home"),
      (1, "getCurrentWorkingDirectory")] 1 := by
  have hset : ∀ (x : Watched Unit) (c : Nat) (input : String),
      (dispatched (parseLine input)).map ControlCommand.action =
        some .setCurrentWorkingDirectory → Undisturbed Env.answering x (c, input) := by
    intro x c input hd
    refine undisturbed_directory hd rfl fun cmd hcmd => ⟨fun haction => ?_, fun _ => rfl⟩
    rw [hcmd] at hd
    exact absurd (haction.symm.trans (Option.some.inj hd)) (by decide)
  refine answeredAlone (x := _) (i := ⟨Machine.new false "/" fun _ => (), true, []⟩) rfl
    (.cons ⟨rfl, hset _ 0 _ rfl⟩ (.cons ⟨rfl, hset _ 1 _ rfl⟩ (.one ⟨rfl, ?_⟩))) ?_ rfl rfl
  · refine undisturbed_directory (f := .getCurrentWorkingDirectory) rfl rfl fun cmd hcmd => ?_
    exact ⟨fun _ => rfl, fun _ => rfl⟩
  · exact List.forall_mem_cons.mpr ⟨⟨by decide, by decide⟩, List.forall_mem_cons.mpr
      ⟨⟨by decide, by decide⟩, List.forall_mem_singleton.mpr ⟨by decide, by decide⟩⟩⟩

/-- A client asks for its directory, and is told that of the other one. -/
theorem not_answeredAlone : ¬ ∀ (V : Type) (env : Env V) (s : Server (Nat → V))
    (inputs : List (Nat × String)) (c : Nat) (i : Instance (Nat → V)), s.ended = none →
    NobodyQuits inputs → s.instances[c]? = some i → i.reading = true →
    AnsweredAlone env s inputs c := by
  intro h
  have halone := h Unit Env.answering twoClients
    [(0, "setCurrentWorkingDirectory /tmp"), (1, "getCurrentWorkingDirectory")] 1
    ⟨Machine.new false "/" fun _ => (), true, []⟩ rfl ?_ rfl rfl
  · have htold : (twoClients.serve Env.answering [(0, "setCurrentWorkingDirectory /tmp"),
        (1, "getCurrentWorkingDirectory")]).responses 1 =
          [⟨false, .attr "getCurrentWorkingDirectory" ("working_directory", "/tmp")⟩] := rfl
    have htold_alone : (twoClients.serve Env.answering
        [(1, "getCurrentWorkingDirectory")]).responses 1 =
          [⟨false, .attr "getCurrentWorkingDirectory" ("working_directory", "/")⟩] := rfl
    have hone := htold.symm.trans (halone.trans htold_alone)
    have hattr := Response.attr.inj (Written.mk.inj (List.cons.inj hone).1).2
    exact absurd (Prod.mk.inj hattr.2).2 (by decide)
  · exact List.forall_mem_cons.mpr ⟨⟨by decide, by decide⟩,
      List.forall_mem_singleton.mpr ⟨by decide, by decide⟩⟩

end FepControl
