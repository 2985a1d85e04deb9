/-
  What a command sees of the process around its session.

  A server runs one interpreter for each client, and all of them share the process: its working
  directory, and the threads in which the library hands in log records.  Whether the answers of a
  client depend on what the other clients do is a question about single steps, and this module
  answers it for the steps of every handler.

  1. **Local** -- the basic steps of a handler once more, and the log records that come in between
     two statements.  They read and change the session and the world behind the library, and leave
     the working directory of the process alone.

  2. **Tame** -- the lookup, and the handlers without one, only make updates that leave the used
     properties alone.  They are gone through statement by statement here; the handlers with a
     lookup are made of the lookup and of a rest that `Footprint` has confined already.

  3. **websocketRound_local** -- every command is made of such steps, apart from `quit` and from the
     two commands on the working directory (`ActionFunction.onDirectory`).  The proof is by cases on
     the command: a dispatched one is its handler (`invoke_local`), and any other line is one error
     response.
-/
import FepControl.Footprint
import FepControl.Failures

namespace FepControl

open Lib

variable {W α β : Type} {E : Env W → Prop}

/-! ## Local steps -/

/-- The part calls the library and updates the session as it likes. -/
abbrev Free (E : Env W → Prop) (c : Control W α) : Prop :=
  Confined E (fun _ => True) (fun _ => True) c

/-- The basic steps that do not look at the working directory. -/
inductive Local : (α : Type) → Control W α → Prop where
  | basic {α : Type} {c : Control W α}
      (h : Basic (fun _ => True) (fun _ => True) α c) : Local α c
  | meanwhile : Local Unit monitorMeanwhile

/-- A part of a handler that is made of local steps. -/
abbrev MadeLocal (E : Env W → Prop) (c : Control W α) : Prop := Eff.Made E Local c

/-- What is confined anyhow is free. -/
theorem Confined.free {C : Call → Prop} {U : (Session → Session) → Prop} {c : Control W α}
    (h : Confined E C U c) : Free E c := h.mono (fun _ _ => trivial) fun _ _ => trivial

/-- A confined part is made of local steps. -/
theorem Confined.madeLocal {C : Call → Prop} {U : (Session → Session) → Prop} {c : Control W α}
    (h : Confined E C U c) : MadeLocal E c := Eff.Made.mono h.free fun _ _ => .basic

namespace Free

theorem update (f : Session → Session) : Free E (update f : Control W Unit) :=
  Confined.update trivial

theorem write (r : Response) : Free E (write r : Control W Unit) := Eff.Made.basic (.write r)

/-- Writing a response and returning a value. -/
theorem answer (r : Response) (a : α) : Free E (do FepControl.write r; Pure.pure a : Control W α) :=
  Confined.answer r a

end Free

/-! ## The lookup, and the handlers without one

  They update the session as `U` allows, if it allows the updates that leave the used properties
  alone. -/

/-- The update leaves the used properties alone. -/
def KeepsUsed (u : Session → Session) : Prop := ∀ s, (u s).used_properties = s.used_properties

namespace Tame

variable {U : (Session → Session) → Prop}

/-- The part calls the library as it likes. -/
theorem call (c : Call) : Confined E (fun _ => True) U (fep3 c : Control W c.Reply) :=
  Confined.fep3 trivial

theorem callAll (cs : List Call) : Confined E (fun _ => True) U (callAll cs : Control W Unit) :=
  Confined.callAll fun _ _ => trivial

theorem getSystemName (system : System) :
    Confined E (fun _ => True) U (system.getSystemName : Control W String) :=
  (call _).andThen fun _ => .pure _

section

variable (hU : ∀ u, KeepsUsed u → U u)

include hU

theorem setLastSystemNameUsed (name : String) :
    Confined E (fun _ => True) U (setLastSystemNameUsed name : Control W Unit) :=
  .update (hU _ fun _ => rfl)

theorem assignSystem (key : String) (system : System) :
    Confined E (fun _ => True) U (assignSystem key system : Control W Unit) := by
  have hstore : Confined E (fun _ => True) U (storeSystem key system : Control W Unit) :=
    .update (hU _ fun _ => rfl)
  refine Confined.andThen .session fun s => ?_
  split
  · exact hstore
  · exact (call .defaultSystem).andThen fun _ => hstore

theorem findSystem (name : String) {missing : Control W (Option Entry)}
    (h : Confined E (fun _ => True) U missing) :
    Confined E (fun _ => True) U (findSystem name missing) := by
  refine Confined.andThen .session fun s => ?_
  split
  · exact (setLastSystemNameUsed hU _).andThen fun _ => .pure _
  · exact h

theorem discoverSystemByName (name : String) :
    Confined E (fun _ => True) U (discoverSystemByName name : Control W Unit) :=
  (setLastSystemNameUsed hU _).andThen fun _ => (call _).andThen fun system =>
    (getSystemName system).andThen fun _ => assignSystem hU _ system

/-- A lookup, with or without auto-discovery. -/
theorem lookup (name action : String) :
    Confined E (fun _ => True) U (lookup name action : Control W (Option Entry)) := by
  refine Confined.andThen .session fun s => ?_
  refine findSystem hU name ?_
  split
  · exact (discoverSystemByName hU name).andThen fun _ => findSystem hU name (.answer _ _)
  · exact .answer _ _

/-- A handler around a lookup. -/
theorem of_looksUp {C : System → Call → Prop} {s action : String} {c : Control W Bool}
    (h : LooksUp E C U s action c) : Confined E (fun _ => True) U c := by
  obtain ⟨rest, rfl, hrest⟩ := h
  refine (lookup hU s action).andThen fun it => ?_
  cases it with
  | none => exact .pure false
  | some it => exact (hrest it).mono (fun _ _ => trivial) fun _ h => h

theorem emplaceSystems : ∀ systems : List System,
    Confined E (fun _ => True) U (emplaceSystems systems : Control W Unit)
  | [] => .pure ()
  | system :: systems => (getSystemName system).andThen fun _ =>
      Confined.andThen (.update (hU _ fun _ => rfl)) fun _ =>
        Confined.andThen (.update (hU _ fun _ => rfl)) fun _ => emplaceSystems systems

theorem discoverAllSystems (a : String) (last : TokenIterator) :
    Confined E (fun _ => True) U (discoverAllSystems (begin_ [a]) last : Control W Bool) := by
  rw [discoverAllSystems_eq]
  exact (call _).andThen fun systems => (callAll _).andThen fun _ =>
    Eff.Made.andThen (Eff.Made.basic (.write _)) fun _ =>
      (emplaceSystems hU systems).andThen fun _ => .pure true

theorem discoverSystem (a s : String) (last : TokenIterator) :
    Confined E (fun _ => True) U (discoverSystem (begin_ [a, s]) last : Control W Bool) := by
  show Confined E (fun _ => True) U (do
    FepControl.setLastSystemNameUsed s
    let system ← fep3DiscoverSystem (discoveredName s)
    writeNotes a (← getSystemParticipants system)
    FepControl.assignSystem (← system.getSystemName) system
    pure true : Control W Bool)
  have hdiscovered : Confined E (fun _ => True) U
      (fep3DiscoverSystem (discoveredName s) : Control W System) := call _
  refine (setLastSystemNameUsed hU s).andThen fun _ => hdiscovered.andThen fun system => ?_
  simp only [getSystemParticipants_eq, bind_assoc, pure_bind]
  exact (callAll _).andThen fun _ => Eff.Made.andThen (Eff.Made.basic (.write _)) fun _ =>
    (getSystemName system).andThen fun _ => (assignSystem hU _ system).andThen fun _ => .pure true

end

theorem help {tokens : List String} (hmin : 1 ≤ tokens.length) (hmax : tokens.length ≤ 2) :
    Confined E (fun _ => True) U (help (begin_ tokens) (end_ tokens) : Control W Bool) := by
  have hall : ∀ a, Confined E (fun _ => True) U
      (FepControl.help (begin_ [a]) (end_ [a]) : Control W Bool) := by
    intro a
    have hnote : (FepControl.help (begin_ [a]) (end_ [a]) : Control W Bool) = (do
        writeNote a (String.join (getControlCommands.map helpLine))
        pure true) := funext fun env => funext fun m => help_all a env m
    rw [hnote]
    exact .answer _ _
  have hone : ∀ a token, Confined E (fun _ => True) U
      (FepControl.help (begin_ [a, token]) (end_ [a, token]) : Control W Bool) := by
    intro a token
    cases hfind : findCommand token with
    | none =>
      have hnothing : (FepControl.help (begin_ [a, token]) (end_ [a, token]) : Control W Bool) =
          pure false := by
        funext env m
        rw [help_command, hfind]
        rfl
      rw [hnothing]
      exact .pure false
    | some cmd =>
      have hnote : (FepControl.help (begin_ [a, token]) (end_ [a, token]) : Control W Bool) = (do
          writeNote a (helpText token cmd)
          pure true) := by
        funext env m
        rw [help_command, hfind]
        rfl
      rw [hnote]
      exact .answer _ _
  have hlength : tokens.length = 1 ∨ tokens.length = 2 := by omega
  rcases hlength with h | h
  · obtain ⟨a, rfl⟩ := eq_one h
    exact hall a
  · obtain ⟨a, token, rfl⟩ := eq_two h
    exact hone a token

end Tame

/-! ## Every handler -/

/-- The commands on the working directory of the process. -/
def ActionFunction.onDirectory : ActionFunction → Bool
  | .setCurrentWorkingDirectory | .getCurrentWorkingDirectory => true
  | _ => false

/-- Switching a mode, with the log records that come in between. -/
theorem switch_local (f g : Session → Session) (a text : String) :
    MadeLocal E (do
      update f
      monitorMeanwhile
      update g
      writeNote a text
      pure true : Control W Bool) :=
  (Free.update f).madeLocal.andThen fun _ => (Eff.Made.basic .meanwhile).andThen fun _ =>
    (Free.update g).madeLocal.andThen fun _ => (Free.answer _ _).madeLocal

/-- **Every handler is made of local steps**, but `quit` and the two that ask for the working
    directory or set it. -/
theorem invoke_local {f : ActionFunction} (hquit : f ≠ .quit) (hdirectory : f.onDirectory = false)
    {tokens : List String} (hmin : f.reads.1 ≤ tokens.length)
    (hmax : tokens.length ≤ f.reads.2) :
    MadeLocal E (f.invoke (begin_ tokens) (end_ tokens) : Control W Bool) := by
  cases hlooks : f.looksUp with
  | true =>
    -- all handlers that look a system up have the footprint already
    obtain ⟨a, s, arguments, -, h⟩ := looksUp_invoke E hlooks hmin hmax
    have hfree : LooksUp E (Footprint E f s arguments) (fun _ => True) s a
        (f.invoke (begin_ tokens) (end_ tokens)) :=
      h.mono (fun _ _ hcall => hcall) fun _ _ => trivial
    exact (Tame.of_looksUp (fun _ _ => trivial) hfree).madeLocal
  | false =>
    cases f
    case quit => exact absurd rfl hquit
    case help =>
      have hfree : Free E (help (begin_ tokens) (end_ tokens) : Control W Bool) :=
        Tame.help hmin hmax
      exact hfree.madeLocal
    case discoverAllSystems =>
      obtain ⟨a, rfl⟩ := eq_one (Nat.le_antisymm hmax hmin)
      have hfree : Free E (discoverAllSystems (begin_ [a]) (end_ [a]) : Control W Bool) :=
        Tame.discoverAllSystems (fun _ _ => trivial) a (end_ [a])
      exact hfree.madeLocal
    case discoverSystem =>
      obtain ⟨a, s, rfl⟩ := eq_two (Nat.le_antisymm hmax hmin)
      have hfree : Free E (discoverSystem (begin_ [a, s]) (end_ [a, s]) : Control W Bool) :=
        Tame.discoverSystem (fun _ _ => trivial) a s (end_ [a, s])
      exact hfree.madeLocal
    case enableAutoDiscovery =>
      obtain ⟨a, rfl⟩ := eq_one (Nat.le_antisymm hmax hmin)
      exact ((Free.update _).andThen fun _ => Free.answer _ _).madeLocal
    case disableAutoDiscovery =>
      obtain ⟨a, rfl⟩ := eq_one (Nat.le_antisymm hmax hmin)
      exact ((Free.update _).andThen fun _ => Free.answer _ _).madeLocal
    case enableJsonMode =>
      obtain ⟨a, rfl⟩ := eq_one (Nat.le_antisymm hmax hmin)
      exact switch_local _ _ a _
    case disableJsonMode =>
      obtain ⟨a, rfl⟩ := eq_one (Nat.le_antisymm hmax hmin)
      exact switch_local _ _ a _
    case setCurrentWorkingDirectory => exact absurd hdirectory (by decide)
    case getCurrentWorkingDirectory => exact absurd hdirectory (by decide)
    all_goals exact absurd hlooks (by decide)

/-- The command line is for one of the commands on the working directory. -/
def OnDirectory (lineTokens : List String) : Prop :=
  ∃ cmd, dispatched lineTokens = some cmd ∧ cmd.action.onDirectory = true

/-- **A round of the websocket loop is made of local steps**, unless it is for the working directory
    or for `quit`. -/
theorem websocketRound_local {lineTokens : List String} (hne : lineTokens ≠ [])
    (hexit : lineTokens.head? ≠ some "exit") (hquit : lineTokens.head? ≠ some "quit")
    (hdirectory : ¬ OnDirectory lineTokens) :
    MadeLocal E (websocketRound lineTokens : Control W Unit) := by
  have hline : MadeLocal E (processCommandline lineTokens : Control W Int) := by
    cases hd : dispatched lineTokens with
    | some cmd =>
      obtain ⟨-, -, -, hmin, hmax⟩ := dispatched_some hd
      have hother : cmd.action.onDirectory = false :=
        Bool.eq_false_iff.mpr fun h => hdirectory ⟨cmd, hd, h⟩
      rw [processCommandline_dispatched hd]
      exact (invoke_local (action_ne_quit hexit hquit hd) hother hmin hmax).andThen
        fun _ => .pure _
    | none =>
      -- no such command, or the wrong number of arguments: one error is written
      obtain ⟨code, text, -, heq⟩ := processCommandline_not_dispatched (W := W) hd hne
      rw [heq]
      exact (Free.answer _ _).madeLocal
  exact .tryCatch (hline.andThen fun _ => .pure ()) fun _ => (Free.write _).madeLocal

end FepControl
