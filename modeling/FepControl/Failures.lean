/-
  Failures of the library, seen from the two front ends.

  The same `processCommandline` runs under two loops.  The loop of the websocket catches what gets
  out of it; the loop of the command line does not, and an exception there is the end of the
  program.  A test that runs over the websocket cannot see the difference.  So it matters exactly
  which exceptions a command lets through, and this file names them.

  1. **The loops** -- the websocket loop catches what `processCommandline` throws and writes it as
     an error; the command line loop has no handler, so there the exception ends the process.  A
     command that returns, the two loops process alike (`rounds_agree`), and so they do a whole
     session of such commands (`readInputFromSource_agree`).

  2. **What gets out** -- the handlers catch almost every exception themselves.  What gets out of a
     command is named by `Throws`: the discoveries, with or without the object that the registry
     makes for a new key, the auto-discovery in front of a handler, the registration of the monitor,
     and the listing of participants.  `Crashes` names where a handler uses a pointer to nothing.

  3. **survives_iff** -- a command returns one of its codes, has answered for a failed call that
     made it fail, and is processed by both loops alike, exactly if neither of the two happens.
-/
import FepControl.Invoke

namespace FepControl

open Lib

variable {W : Type}

/-! ## The loops -/

/-- A round of `FepControlCommandLine::readInputFromSource`. -/
def commandLineRound (lineTokens : List String) : Control W Unit := do
  let _ ← processCommandline lineTokens
  pure ()

/-- A round of `FepControlWebsocket::readInputFromSource`. -/
def websocketRound (lineTokens : List String) : Control W Unit :=
  tryCatch (commandLineRound lineTokens) fun e =>
    writeError (lineTokens.headD "") e .generic_error ""

/-- A loop over the lines that are read; a line without tokens is skipped. -/
def readInputFromSource (round : List String → Control W Unit) : List String → Control W Unit
  | [] => pure ()
  | line :: lines => do
      let lineTokens := parseLine line
      if lineTokens.isEmpty then readInputFromSource round lines
      else
        round lineTokens
        readInputFromSource round lines

/-- A round that the command line loop gets through, the websocket loop gets through alike. -/
theorem websocketRound_of_ok {lineTokens : List String} {env : Env W} {m m' : Machine W}
    (h : commandLineRound lineTokens env m = (.ok (), m')) :
    websocketRound lineTokens env m = (.ok (), m') := by
  rw [websocketRound, Eff.tryCatch_apply, h]
  rfl

/-- A command line that returns is processed alike by both loops. -/
theorem rounds_agree {lineTokens : List String} {env : Env W} {m m' : Machine W} {code : Int}
    (h : processCommandline lineTokens env m = (.ok code, m')) :
    commandLineRound lineTokens env m = (.ok (), m') ∧
      websocketRound lineTokens env m = (.ok (), m') := by
  have hround : commandLineRound lineTokens env m = (.ok (), m') := Eff.bind_of_ok h _
  exact ⟨hround, websocketRound_of_ok hround⟩

/-- And so are all the lines of a session that the command line loop gets through. -/
theorem readInputFromSource_agree (env : Env W) : ∀ (lines : List String) (m m' : Machine W),
    readInputFromSource commandLineRound lines env m = (.ok (), m') →
      readInputFromSource websocketRound lines env m = (.ok (), m')
  | [], _, _, h => h
  | line :: lines, m, m', h => by
      rw [readInputFromSource] at h ⊢
      by_cases hempty : (parseLine line).isEmpty = true
      · rw [if_pos hempty] at h ⊢
        exact readInputFromSource_agree env lines m m' h
      · rw [if_neg hempty, Eff.bind_apply] at h
        rw [if_neg hempty]
        rcases hround : commandLineRound (parseLine line) env m with ⟨_ | e | d, m₁⟩
        · rw [hround] at h
          rw [Eff.bind_of_ok (websocketRound_of_ok hround)]
          exact readInputFromSource_agree env lines m₁ m' h
        · rw [hround] at h
          exact absurd (Prod.mk.inj h).1 nofun
        · rw [hround] at h
          exact absurd (Prod.mk.inj h).1 nofun

/-- A round of the websocket loop exits only by `quit`, which answers first. -/
theorem websocketRound_exits {lineTokens : List String} {env : Env W} {m m' : Machine W}
    (hne : lineTokens ≠ []) {code : Int}
    (h : websocketRound lineTokens env m = (.stops (.exit code), m')) :
    (∃ cmd, dispatched lineTokens = some cmd ∧ cmd.action = .quit) ∧
      ∃ a, m'.written = m.written ++ [⟨m.session.json_mode, .note a "bye bye"⟩] := by
  rw [websocketRound, Eff.tryCatch_apply, commandLineRound, Eff.bind_apply] at h
  rcases hret : processCommandline lineTokens env m with ⟨code' | e | d, m₁⟩
  · rw [hret] at h; exact absurd h nofun
  · rw [hret] at h; exact absurd h nofun
  · rw [hret] at h
    obtain ⟨hd, rfl⟩ := Prod.mk.inj h
    obtain rfl : d = .exit code := Outcome.stops.inj hd
    obtain ⟨cmd, hd, hquit⟩ := quit_of_exits hne hret
    obtain ⟨a, m₂, -, hstops, hwritten⟩ := processCommandline_quit hd hquit env m
    obtain ⟨-, rfl⟩ := Prod.mk.inj (hret.symm.trans hstops)
    exact ⟨⟨cmd, hd, hquit⟩, a, hwritten⟩

/-! ## What gets out -/

/-- An exception of the library gets out of the command line. -/
def Escapes (env : Env W) (m : Machine W) (tokens : List String) : Prop :=
  ∃ cmd, dispatched tokens = some cmd ∧ Throws env m cmd.action tokens

/-- The command line is dispatched to a handler that uses a pointer to nothing, or recurses over a
    configuration that is deeper than the stack. -/
def Breaks (env : Env W) (m : Machine W) (tokens : List String) : Prop :=
  ∃ cmd, dispatched tokens = some cmd ∧ Crashes env m cmd.action tokens

/-- A library call between the two machines has thrown. -/
def LibraryFailed (m m' : Machine W) : Prop := ∃ c, (c, true) ∈ m'.calls.drop m.calls.length

/-- One response is written, and it reports a failure. -/
def ErrorWritten (m m' : Machine W) : Prop :=
  ∃ w, m'.written = m.written ++ [w] ∧ w.response.failed = true

/-- The command line is processed to its end, with one of the four codes, whatever the library did;
    a library call that made it fail is answered for; and the loops go on alike. -/
def Survives (env : Env W) (m : Machine W) (tokens : List String) : Prop :=
  ∃ code m', processCommandline tokens env m = (.ok code, m') ∧
    (code = 0 ∨ code = 1 ∨ code = -2 ∨ code = -3) ∧
    (code = 1 → LibraryFailed m m' → ErrorWritten m m') ∧
    commandLineRound tokens env m = (.ok (), m') ∧ websocketRound tokens env m = (.ok (), m')

/-- A command that returns has done all of it. -/
theorem survives_of_ok {env : Env W} {m m' : Machine W} {tokens : List String} {code : Int}
    (hne : tokens ≠ []) (hret : processCommandline tokens env m = (.ok code, m')) :
    Survives env m tokens := by
  refine ⟨code, m', hret, ?_, ?_, rounds_agree hret⟩
  · cases hd : dispatched tokens with
    | none =>
      obtain ⟨code', _, hcode, hrejected⟩ := processCommandline_rejected hd hne env m
      obtain rfl : code = code' := Outcome.ok.inj (Prod.mk.inj (hret.symm.trans hrejected)).1
      exact .inr (.inr hcode)
    | some cmd =>
      obtain ⟨_, b, _, rfl, _⟩ := returned_of_ok hd hret
      cases b
      · exact .inr (.inl rfl)
      · exact .inl rfl
  · rintro rfl ⟨c, hc⟩
    cases hd : dispatched tokens with
    | none =>
      obtain ⟨code', _, hcode, hrejected⟩ := processCommandline_rejected hd hne env m
      obtain rfl : 1 = code' := Outcome.ok.inj (Prod.mk.inj (hret.symm.trans hrejected)).1
      rcases hcode with h | h <;> exact absurd h (by decide)
    | some cmd =>
      obtain ⟨_, b, _, hb, hreturned⟩ := returned_of_ok hd hret
      have hfalse : b = false := by
        cases b with
        | false => rfl
        | true => exact absurd hb (by decide)
      subst hfalse
      rcases hreturned.answer with ⟨_, r, hwritten, hanswer, -⟩ | ⟨_, ⟨-, hsame⟩ | ⟨htrue, -⟩⟩
      · exact ⟨_, hwritten, hanswer.failed⟩
      · -- a silent failure is one without any call
        rw [hsame rfl, List.drop_length] at hc
        exact absurd hc nofun
      · exact absurd htrue nofun

/-- The commands that end the process. -/
theorem table_quit : ∀ cmd ∈ getControlCommands, cmd.action = .quit →
    cmd.name = "exit" ∨ cmd.name = "quit" := by decide

theorem action_ne_quit {tokens : List String} {cmd : ControlCommand}
    (hexit : tokens.head? ≠ some "exit") (hquit : tokens.head? ≠ some "quit")
    (hd : dispatched tokens = some cmd) : cmd.action ≠ .quit := by
  obtain ⟨hmem, ⟨rest, hname⟩, -⟩ := dispatched_some hd
  intro h
  rcases table_quit cmd hmem h with h | h
  · exact hexit (by rw [hname, h]; rfl)
  · exact hquit (by rw [hname, h]; rfl)

/-- **When a command survives a failing library**: exactly when no exception gets out of its
    handler and it does not break. -/
theorem survives_iff {env : Env W} {m : Machine W} {tokens : List String} (hne : tokens ≠ [])
    (hexit : tokens.head? ≠ some "exit") (hquit : tokens.head? ≠ some "quit") :
    Survives env m tokens ↔ ¬ Escapes env m tokens ∧ ¬ Breaks env m tokens := by
  constructor
  · rintro ⟨code, m', hret, -⟩
    constructor
    · rintro ⟨cmd, hd, hthrows⟩
      obtain ⟨_, _, _, _, hreturned⟩ := returned_of_ok hd hret
      exact hreturned.returns hthrows
    · rintro ⟨cmd, hd, hcrashes⟩
      obtain ⟨_, _, hstops⟩ := Eff.stops_iff.mp
        ((processCommandline_stops hd (action_ne_quit hexit hquit hd)).mpr hcrashes)
      exact absurd (hret.symm.trans hstops) nofun
  · rintro ⟨hescapes, hbreaks⟩
    rcases hret : processCommandline tokens env m with ⟨code | e | d, m'⟩
    · exact survives_of_ok hne hret
    · obtain ⟨cmd, hd, hthrown⟩ := thrown_of_throws hret
      exact absurd ⟨cmd, hd, hthrown.throws⟩ hescapes
    · cases hd : dispatched tokens with
      | none =>
        obtain ⟨_, _, _, hrejected⟩ := processCommandline_rejected hd hne env m
        exact absurd (hret.symm.trans hrejected) nofun
      | some cmd =>
        have hcrashes := (processCommandline_stops hd (action_ne_quit hexit hquit hd)).mp
          (Eff.stops_iff.mpr ⟨d, m', hret⟩)
        exact absurd ⟨cmd, hd, hcrashes⟩ hbreaks

/-- A session that has discovered the system `s`. -/
def Machine.registered : Machine Unit :=
  (processCommandline ["discoverSystem", "s"] Env.answering (Machine.new false "" ())).2

/-- `getSystemState` of a registered system, with a library that is offline by now: the call for the
    state throws, and the command answers with an error. -/
theorem survives_offline :
    (Machine.registered.registry.find? "s").isSome ∧
      Survives Env.offline .registered ["getSystemState", "s"] ∧
      LibraryFailed .registered
        (processCommandline ["getSystemState", "s"] Env.offline .registered).2 := by
  have haction : ∀ cmd, dispatched ["getSystemState", "s"] = some cmd →
      cmd.action = .getSystemState := fun cmd hd => Option.some.inj hd ▸ rfl
  refine ⟨rfl, (survives_iff (by decide) (by decide) (by decide)).mpr ⟨?_, ?_⟩, ?_⟩
  · rintro ⟨cmd, hd, hthrows⟩
    rw [haction cmd hd] at hthrows
    exact Bool.false_ne_true hthrows.1
  · rintro ⟨cmd, hd, hcrashes⟩
    rw [haction cmd hd] at hcrashes
    exact hcrashes
  · exact ⟨.system ⟨0, "s", [], 0⟩ .getSystemState, by decide⟩

/-- `discoverAllSystems` lets the exception of the library through. -/
theorem not_survives : ¬ ∀ (W : Type) (env : Env W) (m : Machine W) (tokens : List String),
    tokens ≠ [] → tokens.head? ≠ some "exit" → tokens.head? ≠ some "quit" →
    Survives env m tokens := by
  intro h
  obtain ⟨code, m', hret, -⟩ := h Unit Env.offline (Machine.new false "" ())
    ["discoverAllSystems"] (by decide) (by decide) (by decide)
  have hthrows : processCommandline ["discoverAllSystems"] Env.offline (Machine.new false "" ()) =
      (.throws "offline", (Machine.new false "" ()).called .discoverAllSystems true ()) := rfl
  exact absurd (hret.symm.trans hthrows) nofun

end FepControl
