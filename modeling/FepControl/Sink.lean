/-
  What reaches the sink, and in which pieces.

  Every call of `writeOutputToSink` is atomic, but nothing holds several calls together: the
  monitor's thread may write in between.  Over a websocket each call is a message of its own.  So a
  response is whole for its reader exactly if it is handed over in one call.

  1. **Untorn** -- however the records of the monitor come in between (`Lib.Interleave`), the sink
     gets whole records and whole responses.

  2. **HandedOver** -- in JSON mode every helper makes one call.  In text mode `writeError` makes
     two or three, where `writeException` makes one; and `writeNotes` makes one for every system.

  3. **What is said in no call** -- a listing of no systems makes no call at all, and is not handed
     over either (`Written.handedOver_iff`).

  4. **untorn_iff** -- what a command writes is untorn exactly if each of its helper calls hands
     over.
-/
import FepControl.Lib.Interleave
import FepControl.Framing

namespace FepControl

open Lib

variable {W : Type}

/-! ## Whole responses -/

/-- The whole text of a response. -/
def Written.whole (w : JsonWriter) (written : Written) : String := String.join (written.strings w)

/-- The helper calls between two machines. -/
def newlyWritten (m m' : Machine W) : List Written := m'.written.drop m.written.length

/-- However log records come in between, the sink gets whole records and whole responses. -/
def Untorn (w : JsonWriter) (m m' : Machine W) : Prop :=
  ∀ (logs : List Logged) (sink : List String),
    Interleave ((newlyWritten m m').flatMap (Written.strings w)) (logs.map (Logged.string w)) sink →
    Interleave ((newlyWritten m m').map (Written.whole w)) (logs.map (Logged.string w)) sink

/-- The helper hands its response over in one call: it writes JSON, or is neither `writeError` nor
    `writeNotes` for a number of systems other than one. -/
def Written.HandedOver (written : Written) : Prop :=
  written.json_mode = true ∨ match written.response with
    | .error .. => False
    | .notesVec _ attributes_vec => attributes_vec.length = 1
    | _ => True

/-- The number of calls in text mode. -/
theorem Response.length_texts (r : Response) : r.texts.length = match r with
    | .error _ _ _ reason => if reason = "" then 2 else 3
    | .notesVec _ attributes_vec => attributes_vec.length
    | _ => 1 := by
  cases r with
  | error action text status reason =>
    unfold Response.texts
    by_cases h : reason = ""
    · simp [h]
    · simp [h]
  | notesVec action attributes_vec => exact List.length_map notesLine
  | note => rfl
  | attr => rfl
  | notes => rfl
  | exception => rfl
  | output => rfl

/-! ## Handing over -/

/-- How many calls of the sink a helper call makes. -/
theorem Written.length_strings (w : JsonWriter) (written : Written) :
    (written.strings w).length =
      if written.json_mode then 1 else written.response.texts.length := by
  obtain ⟨json_mode, r⟩ := written
  rw [Written.strings, List.length_map]
  cases json_mode with
  | false => rfl
  | true => cases r <;> rfl

/-- A response is handed over in one call exactly if it is one string. -/
theorem Written.handedOver_iff (w : JsonWriter) (written : Written) :
    written.HandedOver ↔ (written.strings w).length = 1 := by
  rw [Written.length_strings, Response.length_texts]
  unfold Written.HandedOver
  obtain ⟨json_mode, r⟩ := written
  cases json_mode with
  | true => exact iff_of_true (.inl rfl) rfl
  | false =>
    cases r with
    | error action text status reason =>
      refine iff_of_false (fun h => h.elim nofun id) ?_
      by_cases hreason : reason = ""
      · simp [hreason]
      · simp [hreason]
    | notesVec action attributes_vec => exact ⟨fun h => h.elim nofun id, .inr⟩
    | note => exact iff_of_true (.inr trivial) rfl
    | attr => exact iff_of_true (.inr trivial) rfl
    | notes => exact iff_of_true (.inr trivial) rfl
    | exception => exact iff_of_true (.inr trivial) rfl
    | output => exact iff_of_true (.inr trivial) rfl

/-- What is handed over is one string. -/
theorem Written.strings_of_handedOver {w : JsonWriter} {written : Written}
    (h : written.HandedOver) : written.strings w = [written.whole w] := by
  obtain ⟨s, hs⟩ := List.length_eq_one_iff.mp ((written.handedOver_iff w).mp h)
  rw [Written.whole, hs]
  simp

/-- The sink is never torn if the strings that are handed over are the whole responses. -/
theorem untorn_iff_eq {w : JsonWriter} {m m' : Machine W} : Untorn w m m' ↔
    (newlyWritten m m').flatMap (Written.strings w) =
      (newlyWritten m m').map (Written.whole w) := by
  constructor
  · intro h
    exact (h [] _ (Interleave.alone _)).eq_of_alone
  · intro heq logs sink h
    exact heq ▸ h

/-- If every helper call hands over, the sink gets the whole responses. -/
theorem strings_eq_whole {w : JsonWriter} : ∀ {new : List Written},
    (∀ written ∈ new, written.HandedOver) →
      new.flatMap (Written.strings w) = new.map (Written.whole w)
  | [], _ => rfl
  | written :: new, h => by
      rw [List.flatMap_cons, List.map_cons, strings_eq_whole fun w hw => h w (.tail _ hw),
        Written.strings_of_handedOver (h written (.head _))]
      rfl

/-- The calls of a command line are whole responses exactly if every one of them is handed over in
    one call. -/
theorem Calls.strings_eq_iff {tokens : List String} {new : List Written} (h : Calls tokens new)
    (w : JsonWriter) : new.flatMap (Written.strings w) = new.map (Written.whole w) ↔
      ∀ written ∈ new, written.HandedOver := by
  refine ⟨fun heq => ?_, strings_eq_whole⟩
  have hlength := congrArg List.length heq
  cases h with
  | none => exact fun _ h => absurd h List.not_mem_nil
  | one written =>
    intro written' hmem
    obtain rfl := List.mem_singleton.mp hmem
    rw [Written.handedOver_iff w]
    simpa using hlength
  | caught written htexts e =>
    obtain ⟨json_mode, r⟩ := written
    cases json_mode with
    | true =>
      intro written' hmem
      rcases List.mem_cons.mp hmem with rfl | hmem
      · exact .inl rfl
      · obtain rfl := List.mem_singleton.mp hmem
        exact .inl rfl
    | false =>
      -- the first response is a string at least, and the error is two
      have hpos : 0 < r.texts.length := List.length_pos_iff.mpr htexts
      have htwo : r.texts.length + 2 = 2 := by
        rw [List.flatMap_cons, List.flatMap_cons, List.flatMap_nil, List.length_append,
          List.length_append, Written.length_strings, Written.length_strings] at hlength
        exact hlength
      omega

/-! ## Commands -/

/-- The command line leads from one machine to the other: the loop goes on, or the command was
    `quit`. -/
def Leads (env : Env W) (m : Machine W) (tokens : List String) (m' : Machine W) : Prop :=
  websocketRound tokens env m = (.ok (), m') ∨
    ∃ code, websocketRound tokens env m = (.stops (.exit code), m')

theorem Leads.calls {env : Env W} {m m' : Machine W} {tokens : List String} (hne : tokens ≠ [])
    (h : Leads env m tokens m') : ∃ new, m'.written = m.written ++ new ∧ Calls tokens new := by
  rcases h with h | ⟨code, h⟩
  · obtain ⟨new, hnew, hcalls, -⟩ := (processed hne h).written
    exact ⟨new, hnew, hcalls⟩
  · obtain ⟨-, a, hwritten⟩ := websocketRound_exits hne h
    exact ⟨_, hwritten, .one _⟩

/-- **When responses are never torn**: for every command, in text or JSON mode, exactly when each
    of its responses is handed over in one call. -/
theorem untorn_iff {env : Env W} {m m' : Machine W} {tokens : List String} (hne : tokens ≠ [])
    (h : Leads env m tokens m') :
    Untorn env.json m m' ↔ ∀ written ∈ newlyWritten m m', written.HandedOver := by
  obtain ⟨new, hnew, hcalls⟩ := h.calls hne
  have hdrop : newlyWritten m m' = new := by
    rw [newlyWritten, hnew, List.drop_left]
  rw [untorn_iff_eq, hdrop]
  exact hcalls.strings_eq_iff env.json

/-- `help` in text mode. -/
theorem untorn_help :
    let m' := (processCommandline ["help"] Env.answering (Machine.new false "" ())).2
    Untorn JsonWriter.jsoncpp (Machine.new false "" ()) m' ↔
      ∀ written ∈ newlyWritten (Machine.new false "" ()) m', written.HandedOver :=
  untorn_iff (by decide) (.inl (@rounds_agree _ ["help"] Env.answering _ _ 0 rfl).2)

/-- A record between the text of an error and its newline. -/
theorem not_untorn : ¬ ∀ (W : Type) (env : Env W) (m m' : Machine W) (tokens : List String),
    tokens ≠ [] → Leads env m tokens m' → Untorn env.json m m' := by
  intro h
  let m : Machine Unit := Machine.new false "" ()
  let m' := (processCommandline ["x"] Env.answering m).2
  let text := "Invalid command 'x', use 'help' for valid commands"
  let log : Logged := ⟨false, false, ⟨"INFO", "p", "l", "message"⟩⟩
  have hleads : Leads Env.answering m ["x"] m' :=
    .inl (@rounds_agree _ ["x"] Env.answering _ _ (-2) rfl).2
  have htorn : Interleave ((newlyWritten m m').flatMap (Written.strings JsonWriter.jsoncpp))
      ([log].map (Logged.string JsonWriter.jsoncpp))
      [text, log.string JsonWriter.jsoncpp, "\n"] :=
    .left (.right (.left .nil))
  have hlength := (h Unit Env.answering m m' ["x"] (by decide) hleads [log] _ htorn).length
  exact absurd hlength (by decide)

end FepControl
