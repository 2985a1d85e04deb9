/-
  Newline-delimited JSON.

  A client in JSON mode reads line by line, so everything that is written while the mode is on has
  to be one JSON document on a line of its own (`JsonLine`).  There are two writers, the session and
  its monitor, and each decides by its own copy of the mode; and the text of a document is made by
  one of two writers of jsoncpp.

  1. **The modes** -- the session and its monitor each have a copy of the mode, and the copies agree
     between two commands (`Synchronous`); only in the middle of a switch they do not.

  2. **Framed** -- the helpers and the monitor write through the compact writer, whose texts have no
     newline.  The one exception is the reply of a service, which `callRPC` streams with jsoncpp's
     default writer.

  3. **framed_run** -- in every run of commands, records and changes of the world, everything is
     framed, as long as no reply is streamed and no record comes in the middle of a switch
     (`Streamless`).  Both are real: a streamed object has a newline in it (`not_framed_run`).
-/
import FepControl.Runs

namespace FepControl

open Lib

variable {W : Type}

/-! ## Lines -/

/-- One JSON document on one line, with one newline behind it. -/
def JsonLine (w : JsonWriter) (s : String) : Prop :=
  ∃ v text, (text = w.writeString v ∨ text = w.stream v) ∧ s = text ++ "\n" ∧ '\n' ∉ text.toList

/-- The strings that a helper call hands to the sink. -/
def Written.strings (w : JsonWriter) (written : Written) : List String :=
  (written.response.outputs written.json_mode).map (Output.string w)

/-- The string that a call of `Monitor::onLog` hands to the sink. -/
def Logged.string (w : JsonWriter) (logged : Logged) : String :=
  (logged.log.output logged.monitor_json_mode).string w

/-- `Json::writeString` with an empty indentation writes one line. -/
def OneLine (w : JsonWriter) : Prop := ∀ v, '\n' ∉ (w.writeString v).toList

/-- What the compact writer writes is a line. -/
theorem jsonLine_compact {w : JsonWriter} (h : OneLine w) (v : Json) :
    JsonLine w (Output.string w [.compact v, .text "\n"]) := by
  refine ⟨v, w.writeString v, .inl rfl, ?_, h v⟩
  simp [Output.string, Piece.string]

/-- In JSON mode, a value that is not streamed goes through the compact writer. -/
theorem Response.outputs_of_document {r : Response} {v : Json} (h : r.document = some v)
    (hstreamed : ¬ r.Streamed) : r.outputs true = [[.compact v, .text "\n"]] := by
  unfold Response.document at h
  split at h
  · obtain rfl := Option.some.inj h
    rfl
  · exact absurd trivial hstreamed
  · unfold Response.outputs
    rw [h]

/-- So is a response in JSON mode that is not streamed. -/
theorem jsonLine_of_document {w : JsonWriter} (h : OneLine w) {written : Written}
    (hjson : written.json_mode = true) {v : Json} (hv : written.response.document = some v)
    (hstreamed : ¬ written.response.Streamed) : ∀ s ∈ written.strings w, JsonLine w s := by
  intro s hs
  rw [Written.strings, hjson, Response.outputs_of_document hv hstreamed] at hs
  obtain rfl := List.mem_singleton.mp hs
  exact jsonLine_compact h v

/-- In JSON mode the monitor writes one line. -/
theorem jsonLine_log {w : JsonWriter} (h : OneLine w) {logged : Logged}
    (hjson : logged.monitor_json_mode = true) : JsonLine w (logged.string w) := by
  unfold Logged.string LogRecord.output
  rw [hjson]
  exact jsonLine_compact h _

/-! ## Runs -/

/-- Whatever has been written while JSON mode was on is one JSON line. -/
structure Framed (w : JsonWriter) (m : Machine W) : Prop where
  written : ∀ written ∈ m.written, written.json_mode = true → ∀ s ∈ written.strings w, JsonLine w s
  logged : ∀ logged ∈ m.logged, logged.json_mode = true → JsonLine w (logged.string w)

/-- The two copies of the mode agree. -/
def Synchronous (m : Machine W) : Prop := m.session.monitor_json_mode = m.session.json_mode

/-- The event does not stream: in JSON mode no service answers a call with JSON, and no record
    reaches the monitor in the middle of switching JSON mode on. -/
def Streamless (env : Env W) (m : Machine W) : Event W → Prop
  | .command lineTokens => ∀ cmd, dispatched lineTokens = some cmd →
      (m.session.json_mode = true → ¬ Streams env m cmd.action lineTokens) ∧
      (cmd.action = .enableJsonMode → m.session.json_mode = false →
        env.recordsMeanwhile m.world = [])
  | _ => True

section

variable {env : Env W} {m m' : Machine W}

/-- A command leaves the copies of the mode equal. -/
theorem Processed.synchronous {tokens : List String} (h : Processed env m tokens m')
    (hsync : Synchronous m) : Synchronous m' := by
  unfold Synchronous at *
  rcases h.modes with ⟨hjson, hmonitor, -⟩ | ⟨enabled, -, hmodes⟩
  · rw [hjson, hmonitor, hsync]
  · exact hmodes.monitor_json_mode.trans hmodes.json_mode.symm

/-- A command line that streams is no switch of the mode. -/
theorem Processed.stays_json {tokens : List String} (h : Processed env m tokens m')
    {cmd : ControlCommand} (hd : dispatched tokens = some cmd)
    (hstreams : Streams env m cmd.action tokens) :
    m'.session.json_mode = m.session.json_mode := by
  cases h with
  | rejected => rfl
  | @returned cmd' b _ hd' h =>
    obtain rfl : cmd = cmd' := Option.some.inj (hd.symm.trans hd')
    have hswitched := h.modes
    cases hf : cmd.action
    case callRPC =>
      rw [hf] at hswitched
      exact KeepsModes.json_mode hswitched
    all_goals rw [hf] at hstreams; exact hstreams.elim
  | caught hd' h e => exact h.modes.json_mode

/-- A command adds only lines. -/
theorem Framed.processed {tokens : List String} (hline : OneLine env.json)
    (h : Processed env m tokens m') (hsync : Synchronous m)
    (hstreamless : Streamless env m (.command tokens)) (hframed : Framed env.json m) :
    Framed env.json m' := by
  constructor
  · intro written hmem hjson
    obtain ⟨new, hnew, -, hemits⟩ := h.written
    rw [hnew] at hmem
    rcases List.mem_append.mp hmem with hmem | hmem
    · exact hframed.written written hmem hjson
    · obtain ⟨hmode, hdocument, hstreamed⟩ := hemits written hmem
      obtain ⟨v, hv⟩ := hdocument hjson
      refine jsonLine_of_document hline hjson hv fun hstream => ?_
      obtain ⟨cmd, hd, hstreams⟩ := hstreamed hstream
      have hjson' : m.session.json_mode = true :=
        (h.stays_json hd hstreams).symm.trans (hmode.symm.trans hjson)
      exact (hstreamless cmd hd).1 hjson' hstreams
  · intro logged hmem hjson
    rcases h.modes with ⟨-, -, hlogged⟩ | ⟨enabled, haction, hmodes⟩
    · exact hframed.logged logged (hlogged ▸ hmem) hjson
    · rw [hmodes.logged] at hmem
      rcases List.mem_append.mp hmem with hmem | hmem
      · exact hframed.logged logged hmem hjson
      · obtain ⟨log, hlog, rfl⟩ := List.mem_map.mp hmem
        have henabled : enabled = true := hjson
        obtain ⟨cmd, hd, haction⟩ := haction henabled
        -- a record in the middle of the switch finds JSON mode on before it
        cases hmode : m.session.json_mode with
        | true => exact jsonLine_log hline (hsync.trans hmode)
        | false =>
          rw [(hstreamless cmd hd).2 haction hmode] at hlog
          exact absurd hlog List.not_mem_nil

/-- One event keeps everything framed. -/
theorem Framed.step (hline : OneLine env.json) (m : Machine W) (event : Event W) (m' : Machine W)
    (h : Synchronous m ∧ Framed env.json m)
    (hstep : Along (Step env) (Streamless env) m event m') :
    Synchronous m' ∧ Framed env.json m' := by
  obtain ⟨hstep, hstreamless⟩ := hstep
  obtain ⟨hsync, hframed⟩ := h
  cases hstep with
  | command hne hround =>
    have hprocessed := FepControl.processed hne hround
    exact ⟨hprocessed.synchronous hsync, .processed hline hprocessed hsync hstreamless hframed⟩
  | record log =>
    refine ⟨hsync, hframed.written, fun logged hmem hjson => ?_⟩
    rcases List.mem_append.mp hmem with hmem | hmem
    · exact hframed.logged logged hmem hjson
    · obtain rfl := List.mem_singleton.mp hmem
      exact jsonLine_log hline (hsync.trans hjson)
  | elsewhere => exact ⟨hsync, hframed.written, hframed.logged⟩

end

/-- **Newline-delimited JSON**: in every run that does not stream, whatever a handler, the dispatch
    or the monitor writes while JSON mode is on is one JSON document on a line of its own. -/
theorem framed_run {env : Env W} (hline : OneLine env.json) {json_mode : Bool}
    {working_directory : String} {w : W} {events : List (Event W)} {m : Machine W}
    (hrun : Run (Along (Step env) (Streamless env)) (Machine.new json_mode working_directory w)
      events m) : Framed env.json m := by
  have hnew : Synchronous (Machine.new json_mode working_directory w) ∧
      Framed env.json (Machine.new json_mode working_directory w) :=
    ⟨rfl, fun _ h => absurd h List.not_mem_nil, fun _ h => absurd h List.not_mem_nil⟩
  exact (Run.invariant (Framed.step hline) hrun hnew).2

theorem jsoncpp_oneLine : OneLine JsonWriter.jsoncpp := by
  intro v
  show '\n' ∉ (String.ofList v.compact).toList
  rw [String.toList_ofList]
  exact newline_not_mem_compact v

/-- An unknown command and a log record, in JSON mode. -/
theorem framed_run_unknown : Framed JsonWriter.jsoncpp
    ((processCommandline ["x"] Env.answering (Machine.new true "" ())).2.logs
      ⟨"INFO", "p", "l", "two\nlines"⟩) := by
  have hstreamless : Streamless Env.answering (Machine.new true "" ()) (.command ["x"]) :=
    fun cmd hd => absurd hd nofun
  have hstep : Step Env.answering (Machine.new true "" ()) (.command ["x"]) _ :=
    @Step.of_ok _ _ _ _ _ (-2) (by decide) rfl
  exact @framed_run _ Env.answering jsoncpp_oneLine _ _ _ _ _
    (.cons ⟨hstep, hstreamless⟩ (.one ⟨.record _ ⟨"INFO", "p", "l", "two\nlines"⟩, trivial⟩))

/-- The reply of a service is written on several lines. -/
theorem not_framed_run : ¬ ∀ (W : Type) (env : Env W), OneLine env.json →
    ∀ (json_mode : Bool) (working_directory : String) (w : W) (events : List (Event W))
      (m : Machine W), Run (Step env) (Machine.new json_mode working_directory w) events m →
    Framed env.json m := by
  intro h
  let m := (processCommandline ["discoverSystem", "s"] Env.answering (Machine.new true "" ())).2
  let call := ["callRPC", "s", "p", "service", "iid", "function"]
  let m' := (processCommandline call Env.answering m).2
  have hrun : Run (Step Env.answering) (Machine.new true "" ())
      [.command ["discoverSystem", "s"], .command call] m' :=
    .cons (@Step.of_ok _ _ _ _ _ 0 (by decide) rfl)
      (.one (@Step.of_ok _ _ _ _ _ 0 (by decide) rfl))
  have hframed := h Unit Env.answering jsoncpp_oneLine true "" () _ m' hrun
  let v : Json := .obj [("action", .str "callRPC"), ("status", .int 0), ("value", .null)]
  let written : Written := ⟨true, .output [.streamed v, .text "\n"]⟩
  have hwritten : m'.written = m.written ++ [written] := rfl
  obtain ⟨-, text, -, htext, hnewline⟩ := hframed.written written
    (hwritten ▸ List.mem_append_right _ List.mem_cons_self) rfl
    (Output.string .jsoncpp [.streamed v, .text "\n"]) List.mem_cons_self
  -- a newline stands before the last one
  have htext : v.styled 0 ++ ['\n'] = text.toList ++ ['\n'] := by
    simpa [Output.string, Piece.string, JsonWriter.jsoncpp] using congrArg String.toList htext
  rw [← List.append_cancel_right htext] at hnewline
  exact hnewline (newline_mem_styled 0 _ _)

end FepControl
