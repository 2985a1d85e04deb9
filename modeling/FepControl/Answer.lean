/-
  What the response to a command says: to which action it belongs and whether the action succeeded.

  The same thing can be asked of a response in three ways, and different readers ask in different
  ways.  A proof about a handler sees which helper was called.  A client sees an object or a line.
  The sink sees a number of calls.  This file says how the three hang together, so that a handler is
  only ever judged by the helpers it calls.

  1. **By its kind** -- a note reports success, an error and an exception report failure
     (`Response.failed`).

  2. **By its object** -- in JSON mode a response is one object with the members `action`, `status`
     and `value` (`Carries`).  Every helper writes such an object, because it starts from a
     `JsonObject` and then only ever sets the value (`Labelled`).

  3. **By its calls** -- in text mode most helpers make one call of `writeOutput`; those that do not
     are `Split`.

  4. **Approves** -- it collects what a handler can say in one call, so that a handler that says
     nothing else is judged once for all such properties.  `Plain` is the property that most of the
     proofs are about: the action, and the flag, in either mode.
-/
import FepControl.Response

namespace FepControl

/-- The JSON value of a response, if it is one value with a newline behind it. -/
def Response.document : Response → Option Json
  | .output [.compact v, .text "\n"] => some v
  | .output [.streamed v, .text "\n"] => some v
  | r => r.json

/-- The response reports a failure. -/
def Response.failed : Response → Bool
  | .error .. | .exception .. => true
  | _ => false

/-- The response is a JSON value that the compact writer did not see. -/
def Response.Streamed : Response → Prop
  | .output [.streamed _, _] => True
  | _ => False

/-- The object carries the action, a status that is 0 exactly on success, and a value. -/
structure Carries (action : String) (success : Bool) (v : Json) : Prop where
  action : v.get? "action" = some (.str action)
  status : ∃ n, v.get? "status" = some (.int n) ∧ (n = 0 ↔ success = true)
  value : ∃ w, v.get? "value" = some w

/-- A response to `action` that reports `success`: as its kind, and in JSON mode as its object. -/
structure Answer (action : String) (success json_mode : Bool) (r : Response) : Prop where
  failed : r.failed = !success
  document : json_mode = true → ∃ v, r.document = some v ∧ Carries action success v

/-- An answer through the compact writer. -/
structure Plain (action : String) (success json_mode : Bool) (r : Response) : Prop extends
    Answer action success json_mode r where
  unstreamed : ¬ r.Streamed

/-- A success through the compact writer that is written in text mode too: in at least one call. -/
def Spoken (action : String) (json_mode : Bool) (r : Response) : Prop :=
  Plain action true json_mode r ∧ r.texts ≠ []

/-- The number of a status is 0 for success alone. -/
theorem CmdStatus.toInt_eq_zero {status : CmdStatus} :
    status.toInt = 0 ↔ status = .no_error := by
  cases status <;> decide

/-- A `JsonObject` under construction: the action and the status are set. -/
structure Labelled (action : String) (status : CmdStatus) (v : Json) : Prop where
  isObject : v.IsObject
  action : v.get? "action" = some (.str action)
  status : v.get? "status" = some (.int status.toInt)
  value : ∃ w, v.get? "value" = some w

theorem Labelled.new (action : String) (status : CmdStatus) :
    Labelled action status (JsonObject action status) :=
  ⟨trivial, rfl, rfl, _, rfl⟩

/-- Setting the value keeps the action and the status. -/
theorem Labelled.setWholeValue {action : String} {status : CmdStatus} {v : Json}
    (h : Labelled action status v) (w : Json) : Labelled action status (setWholeValue w v) := by
  have hget := fun k => Json.get?_set "value" k w v h.isObject
  refine ⟨Json.isObject_set _ _ v h.isObject, ?_, ?_, w, ?_⟩
  · show (v.set "value" w).get? "action" = _
    rw [hget, if_neg (by decide), h.action]
  · show (v.set "value" w).get? "status" = _
    rw [hget, if_neg (by decide), h.status]
  · show (v.set "value" w).get? "value" = _
    rw [hget, if_pos rfl]

theorem Labelled.setValue {action : String} {status : CmdStatus} {v : Json}
    (h : Labelled action status v) (key value : String) :
    Labelled action status (setValue key value v) := h.setWholeValue _

/-- Setting any number of values leaves the label. -/
theorem Labelled.foldl {action : String} {status : CmdStatus} : ∀ (attributes : Attributes)
    {v : Json}, Labelled action status v → Labelled action status
      (attributes.foldl (fun jsonObject pair => FepControl.setValue pair.1 pair.2 jsonObject) v)
  | [], _, h => h
  | pair :: attributes, _, h => Labelled.foldl attributes (h.setValue pair.1 pair.2)

/-- A labelled object carries its action, and its status tells success from failure. -/
theorem Labelled.carries {action : String} {status : CmdStatus} {v : Json} {success : Bool}
    (h : Labelled action status v) (hstatus : status = .no_error ↔ success = true) :
    Carries action success v :=
  ⟨h.action, ⟨_, h.status, by rw [CmdStatus.toInt_eq_zero]; exact hstatus⟩, h.value⟩

/-- A note reports success. -/
theorem Plain.note (action text : String) (json_mode : Bool) :
    Plain action true json_mode (.note action text) :=
  ⟨⟨rfl, fun _ => ⟨_, rfl, ((Labelled.new action .no_error).setValue _ _).carries (by decide)⟩⟩,
    id⟩

theorem Plain.attr (action : String) (pair : Attribute) (json_mode : Bool) :
    Plain action true json_mode (.attr action pair) :=
  ⟨⟨rfl, fun _ => ⟨_, rfl, ((Labelled.new action .no_error).setValue _ _).carries (by decide)⟩⟩,
    id⟩

theorem Plain.notes (action : String) (attributes : Attributes) (json_mode : Bool) :
    Plain action true json_mode (.notes action attributes) :=
  ⟨⟨rfl, fun _ => ⟨_, rfl,
    (Labelled.foldl attributes (Labelled.new action .no_error)).carries (by decide)⟩⟩, id⟩

theorem Plain.notesVec (action : String) (attributes_vec : AttributesVec) (json_mode : Bool) :
    Plain action true json_mode (.notesVec action attributes_vec) :=
  ⟨⟨rfl, fun _ => ⟨_, rfl,
    ((Labelled.new action .no_error).setWholeValue _).carries (by decide)⟩⟩, id⟩

/-- An error reports failure, with any status that is one. -/
theorem Plain.error (action text : String) {status : CmdStatus} (h : status ≠ .no_error)
    (reason : String) (json_mode : Bool) :
    Plain action false json_mode (.error action text status reason) := by
  have hlabel := (Labelled.new action status).setValue "error" text
  refine ⟨⟨rfl, fun _ => ⟨_, rfl, ?_⟩⟩, id⟩
  have hreason : Labelled action status (if reason != "" then
      setValue "reason" reason (setValue "error" text (JsonObject action status))
      else setValue "error" text (JsonObject action status)) := by
    split
    · exact hlabel.setValue "reason" reason
    · exact hlabel
  exact hreason.carries (by simp [h])

theorem Plain.exception (action text : String) {status : CmdStatus} (h : status ≠ .no_error)
    (what : String) (json_mode : Bool) :
    Plain action false json_mode (.exception action text status what) :=
  ⟨⟨rfl, fun _ => ⟨_, rfl, (((Labelled.new action status).setValue _ _).setValue _ _).carries
    (by simp [h])⟩⟩, id⟩

/-- A streamed object is an answer, though not a plain one. -/
theorem Answer.streamed {action : String} {v : Json} (h : Carries action true v)
    (json_mode : Bool) : Answer action true json_mode (.output [.streamed v, .text "\n"]) :=
  ⟨rfl, fun _ => ⟨v, rfl, h⟩⟩

/-- A handler's own output in JSON mode. -/
theorem Plain.compact {action : String} {v : Json} (h : Carries action true v)
    (json_mode : Bool) : Plain action true json_mode (.output [.compact v, .text "\n"]) :=
  ⟨⟨rfl, fun _ => ⟨v, rfl, h⟩⟩, id⟩

/-- A handler's own output in text mode. -/
theorem Plain.text (action : String) {pieces : Output} (h : ¬ (Response.output pieces).Streamed) :
    Plain action true false (.output pieces) :=
  ⟨⟨rfl, nofun⟩, h⟩

/-- In text mode the response is handed over in a number of calls other than one. -/
def Response.Split : Response → Prop
  | .error .. => True
  | .notesVec _ attributes_vec => attributes_vec.length ≠ 1
  | _ => False

/-- `K` approves of the answers that handlers give to `action` in one call, each with its flag. -/
structure Approves (K : Bool → Bool → Response → Prop) (action : String) : Prop where
  note : ∀ text json_mode, K true json_mode (.note action text)
  attr : ∀ pair json_mode, K true json_mode (.attr action pair)
  notes : ∀ attributes json_mode, K true json_mode (.notes action attributes)
  exception : ∀ text {status}, status ≠ CmdStatus.no_error → ∀ what json_mode,
    K false json_mode (.exception action text status what)
  compact : ∀ {v} json_mode, Carries action true v →
    K true json_mode (.output [.compact v, .text "\n"])
  text : ∀ {pieces}, ¬ (Response.output pieces).Streamed → K true false (.output pieces)

/-- What a handler can say in one call reports what it returns. -/
theorem Plain.approves (action : String) : Approves (Plain action) action where
  note := Plain.note action
  attr := Plain.attr action
  notes := Plain.notes action
  exception text _ h := Plain.exception action text h
  compact json_mode h := Plain.compact h json_mode
  text h := Plain.text action h

end FepControl
