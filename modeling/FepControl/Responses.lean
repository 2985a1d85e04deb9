/-
  Requests and responses in JSON mode.

  A scripted client sends a command line and reads one object back; its `status` tells it whether
  the command succeeded, and its `action` which command it answers.  `RequestLaw` is what the client
  relies on.  The handlers keep it but for three paths, on which the flag that `processCommandline`
  returns is reported by no response: `Unanswered` names them.  On two of them nothing is written at
  all, and on the third an error is, and success is returned.

  1. **Writes** -- what a client reads of a response: the object, if it is one.  It is read off the
     strings, so two values that one response writes are the same (`Response.Writes.unique`).

  2. **RequestLaw** -- one object, with the action of the command, and a status that agrees with the
     returned code.

  3. **requestLaw_iff** -- for every state in JSON mode, and every command but the one that leaves
     the mode, the law is kept exactly if the command is not `LeftUnanswered`.  An answer of a
     handler keeps it (`requestLaw_of_answer`); on the three paths the code and what is written, if
     anything is, do not agree (`not_requestLaw_of_lapses`).
-/
import FepControl.Invoke

namespace FepControl

open Lib

variable {W : Type}

/-- In JSON mode the response is one value, written in one piece and ended by a newline. -/
def Response.Writes (r : Response) (v : Json) : Prop :=
  r.outputs true = [[.compact v, .text "\n"]] ∨ r.outputs true = [[.streamed v, .text "\n"]]

/-- A response that has a document writes it. -/
theorem Response.writes_of_document {r : Response} {v : Json} (h : r.document = some v) :
    r.Writes v := by
  unfold Response.document at h
  split at h
  · obtain rfl := Option.some.inj h
    exact .inl rfl
  · obtain rfl := Option.some.inj h
    exact .inr rfl
  · refine .inl ?_
    unfold Response.outputs
    rw [h]

/-- A response is at most one value. -/
theorem Response.Writes.unique {r : Response} {v v' : Json} (h : r.Writes v) (h' : r.Writes v') :
    v = v' := by
  unfold Response.Writes at h h'
  rcases h with h | h <;> rcases h' with h' | h' <;> rw [h] at h' <;> simp at h' <;> exact h'

/-- The answer to a command line that is processed with `code`: one response, one object with an
    action, a status and a value; the status is 0 exactly if the code is, and a command that was
    dispatched is answered under its own name. -/
def RequestLaw (code : Int) (tokens : List String) (m m' : Machine W) : Prop :=
  ∃ r v action status value, m'.written = m.written ++ [⟨true, r⟩] ∧ r.Writes v ∧
    v.get? "action" = some (.str action) ∧ v.get? "status" = some (.int status) ∧
    v.get? "value" = some value ∧ (status = 0 ↔ code = 0) ∧
    (code ≠ -2 → code ≠ -3 → tokens.head? = some action)

/-- The command line is dispatched to a handler that leaves it unanswered. -/
def LeftUnanswered (env : Env W) (m : Machine W) (tokens : List String) : Prop :=
  ∃ cmd, dispatched tokens = some cmd ∧ Unanswered env m cmd.action tokens

/-- An answer in JSON mode keeps the law. -/
theorem requestLaw_of_answer {m m' : Machine W} {r : Response} {action : String} {b : Bool}
    (hwritten : m'.written = m.written ++ [⟨true, r⟩]) (hanswer : Answer action b true r)
    {code : Int} (hcode : b = true ↔ code = 0) {tokens : List String}
    (haction : code ≠ -2 → code ≠ -3 → tokens.head? = some action) :
    RequestLaw code tokens m m' := by
  obtain ⟨v, hv, hcarries⟩ := hanswer.document rfl
  obtain ⟨status, hstatus, hzero⟩ := hcarries.status
  obtain ⟨value, hvalue⟩ := hcarries.value
  exact ⟨r, v, action, status, value, hwritten, Response.writes_of_document hv, hcarries.action,
    hstatus, hvalue, hzero.trans hcode, haction⟩

/-- A flag that no response reports breaks the law. -/
theorem not_requestLaw_of_lapses {m m' : Machine W} {action : String} {b : Bool}
    (hjson : m'.session.json_mode = true) (h : Lapses action b m m') (tokens : List String) :
    ¬ RequestLaw (if b then 0 else 1) tokens m m' := by
  rintro ⟨r, v, action', status, value, hwritten, hwrites, -, hstatus, -, hzero, -⟩
  rcases h with ⟨hsilent, -⟩ | ⟨rfl, r', hwritten', hanswer, -⟩
  · rw [hsilent] at hwritten
    have := congrArg List.length hwritten
    simp at this
  · rw [hwritten'] at hwritten
    obtain ⟨-, rfl⟩ : _ ∧ r' = r := by simpa using List.append_cancel_left hwritten
    obtain ⟨v', hv', hcarries⟩ := hanswer.document hjson
    obtain rfl := (Response.writes_of_document hv').unique hwrites
    obtain ⟨status', hstatus', hzero'⟩ := hcarries.status
    rw [hstatus] at hstatus'
    obtain rfl : status = status' := by simpa using hstatus'
    exact absurd (hzero'.mp (hzero.mpr rfl)) nofun

/-- JSON mode is left by `disableJson` only. -/
theorem Switched.stays_json {env : Env W} {m m' : Machine W} {f : ActionFunction}
    (h : Switched env m m' f) (hf : f ≠ .disableJsonMode) (hjson : m.session.json_mode = true) :
    m'.session.json_mode = true := by
  cases f
  case disableJsonMode => exact absurd rfl hf
  case enableJsonMode => exact KeepsModes.json_mode h
  all_goals exact (KeepsModes.json_mode h).trans hjson

/-- There is one command that leaves the JSON mode. -/
theorem table_disableJson : ∀ cmd ∈ getControlCommands, cmd.action = .disableJsonMode →
    cmd.name = "disableJson" := by decide

/-- **When a request is answered as it is processed**: in JSON mode, and for every command but
    `disableJson`, exactly when the handler does not leave it unanswered. -/
theorem requestLaw_iff {env : Env W} {m m' : Machine W} {tokens : List String} {code : Int}
    (hjson : m.session.json_mode = true) (hne : tokens ≠ [])
    (hcommand : tokens.head? ≠ some "disableJson")
    (hret : processCommandline tokens env m = (.ok code, m')) :
    RequestLaw code tokens m m' ↔ ¬ LeftUnanswered env m tokens := by
  cases hd : dispatched tokens with
  | none =>
    obtain ⟨code', text, hcode, hrejected⟩ := processCommandline_rejected hd hne env m
    obtain ⟨hok, rfl⟩ := Prod.mk.inj (hret.symm.trans hrejected)
    obtain rfl : code = code' := Outcome.ok.inj hok
    refine iff_of_true ?_ fun ⟨cmd, h, _⟩ => absurd (hd.symm.trans h) nofun
    refine requestLaw_of_answer (by rw [Machine.wrote, hjson])
      (Plain.error "processCommandline" text (by decide) "" true).toAnswer ?_ ?_
    · rcases hcode with rfl | rfl <;> decide
    · rcases hcode with rfl | rfl
      · exact fun h => absurd rfl h
      · exact fun _ h => absurd rfl h
  | some cmd =>
    obtain ⟨rest, b, hname, rfl, hreturned⟩ := returned_of_ok hd hret
    have hf : cmd.action ≠ .disableJsonMode := fun h => hcommand (by
      rw [hname, ← table_disableJson cmd (dispatched_some hd).1 h]; rfl)
    have hjson' := hreturned.modes.stays_json hf hjson
    have hleft : LeftUnanswered env m tokens ↔ Unanswered env m cmd.action tokens := by
      constructor
      · rintro ⟨cmd', hd', h⟩
        obtain rfl : cmd = cmd' := Option.some.inj (hd.symm.trans hd')
        exact h
      · exact fun h => ⟨cmd, hd, h⟩
    rw [hleft]
    rcases hreturned.answer with ⟨hanswered, r, hwritten, hanswer, -⟩ | ⟨hunanswered, hlapses⟩
    · have hcode : b = true ↔ (if b then 0 else 1 : Int) = 0 := by cases b <;> decide
      have haction : tokens.head? = some cmd.name := by rw [hname]; rfl
      exact iff_of_true (requestLaw_of_answer (hjson' ▸ hwritten) (hjson' ▸ hanswer) hcode
        fun _ _ => haction) hanswered
    · exact iff_of_false (not_requestLaw_of_lapses hjson' hlapses tokens) fun h => h hunanswered

/-- `help` is answered. -/
theorem requestLaw_help : RequestLaw 0 ["help"] (Machine.new true "" ())
      (processCommandline ["help"] Env.offline (Machine.new true "" ())).2 ↔
    ¬ LeftUnanswered Env.offline (Machine.new true "" ()) ["help"] :=
  requestLaw_iff rfl (by decide) (by decide) rfl

/-- `help` for a word that is no command is not. -/
theorem not_requestLaw : ¬ ∀ (W : Type) (env : Env W) (m m' : Machine W) (tokens : List String)
    (code : Int), m.session.json_mode = true → tokens ≠ [] → tokens.head? ≠ some "disableJson" →
    processCommandline tokens env m = (.ok code, m') → RequestLaw code tokens m m' := by
  intro h
  obtain ⟨r, v, action, status, value, hwritten, -⟩ := h Unit Env.offline (Machine.new true "" ())
    (Machine.new true "" ()) ["help", "x"] 1 rfl (by decide) (by decide) rfl
  exact absurd hwritten nofun

end FepControl
