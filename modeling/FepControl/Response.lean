/-
  What the control tool writes: the `write...` methods of `FepControl`, with `JsonObject`, and the
  log records of `monitor.cpp`.

  There are two audiences.  In text mode a user reads a prompt, notes and error messages; in JSON
  mode a program reads one object for each command.  A handler does not know which: it calls a
  helper with an action, a text and a status, and the helper looks at the mode.  That is why a
  response is data here, and its two forms are functions of it.  What a helper does with the sink is
  kept as well, since a sink that others write to as well can get something in between two of its
  calls.

  1. **Responses** -- a handler answers with a note, an attribute, attributes, an error or an
     exception.  `Response.outputs json` is what the helper of that kind hands to the sink, in JSON
     mode and in text mode: ONE element for every call of `writeOutput`.

  2. **Outputs** -- the arguments of one `writeOutput` call, which concatenates them.  A JSON value
     is written by `CompactJsonStream::convertJson`, or streamed as it is.

  3. **Writers** -- how jsoncpp prints a value is a parameter (`JsonWriter`); `JsonWriter.jsoncpp`
     is how it does.

  4. **Log records** -- the monitor has a copy of the mode, and its own two forms of a record.
-/
import FepControl.JsonText

namespace FepControl

/-- `CmdStatus`. -/
inductive CmdStatus where
  | no_error
  | generic_error
  | input_error
  | filesystem_error
  | statechange_error
  | systemconfig_error
  | systemtiming_error
  | participant_error
  | rpcobject_error
  deriving DecidableEq, Repr

/-- `static_cast<std::underlying_type<CmdStatus>::type>`. -/
def CmdStatus.toInt : CmdStatus → Int
  | .no_error => 0
  | .generic_error => 1
  | .input_error => 2
  | .filesystem_error => 3
  | .statechange_error => 4
  | .systemconfig_error => 5
  | .systemtiming_error => 6
  | .participant_error => 7
  | .rpcobject_error => 8

/-- `typedef std::pair<std::string, std::string> Attribute`. -/
abbrev Attribute := String × String

/-- What is told about one system. -/
abbrev Attributes := List Attribute

/-- What is told about several systems. -/
abbrev AttributesVec := List Attributes

/-- `a_util::strings::join`. -/
def join (strings : List String) (separator : String) : String := separator.intercalate strings

/-! ## Outputs -/

/-- An argument of `writeOutput`. -/
inductive Piece where
  /-- a string -/
  | text (s : String)
  /-- `_builder.convertJson(value)` -/
  | compact (value : Json)
  /-- a `Json::Value`, streamed with jsoncpp's `operator<<` -/
  | streamed (value : Json)

/-- The arguments of one call of `writeOutput`. -/
abbrev Output := List Piece

/-- The two writers of jsoncpp that the tool uses. -/
structure JsonWriter where
  /-- `Json::writeString` with an empty indentation -/
  writeString : Json → String
  /-- `operator<<` -/
  stream : Json → String

/-- The writers as jsoncpp has them. -/
def JsonWriter.jsoncpp : JsonWriter where
  writeString value := String.ofList value.compact
  stream value := String.ofList (value.styled 0)

/-- What a piece adds to the text. -/
def Piece.string (w : JsonWriter) : Piece → String
  | .text s => s
  | .compact value => w.writeString value
  | .streamed value => w.stream value

/-- The string that `writeOutput` hands to `writeOutputToSink`. -/
def Output.string (w : JsonWriter) (output : Output) : String :=
  String.join (output.map (Piece.string w))

/-! ## Responses -/

/-- The constructor of `JsonObject`. -/
def JsonObject (action : String) (cmdStatus : CmdStatus := .no_error) : Json :=
  ((Json.null.set "action" (.str action)).set "status" (.int cmdStatus.toInt)).set "value" .null

/-- `JsonObject::setValue(value)`. -/
def setWholeValue (value jsonValue : Json) : Json := jsonValue.set "value" value

/-- `JsonObject::setValue(key, value)`. -/
def setValue (key value : String) (jsonValue : Json) : Json :=
  jsonValue.set "value" ((jsonValue.at_ "value").set key (.str value))

/-- One call of a helper that answers a command. -/
inductive Response where
  /-- `writeNote(action, note)` -/
  | note (action note : String)
  /-- `writeNote(action, attribute)` -/
  | attr (action : String) (attr : Attribute)
  /-- `writeNotes(action, attributes)` -/
  | notes (action : String) (attributes : Attributes)
  /-- `writeNotes(action, attributes_vec)` -/
  | notesVec (action : String) (attributes_vec : AttributesVec)
  /-- `writeError(action, error, status, reason)` -/
  | error (action error : String) (status : CmdStatus) (reason : String)
  /-- `writeException(action, exception, status, e)`, with `e.what()` -/
  | exception (action exception : String) (status : CmdStatus) (what : String)
  /-- a direct call of `writeOutput` -/
  | output (pieces : Output)

/-- The object that `writeNotes(action, attributes_vec)` makes of one system. -/
def attributesObject (attributes : Attributes) : Json :=
  attributes.foldl (fun tmp attr => tmp.set attr.1 (.str attr.2)) .null

/-- The JSON object of a helper, or of no helper. -/
def Response.json : Response → Option Json
  | .note action text => some (setValue "note" text (JsonObject action))
  | .attr action pair => some (setValue pair.1 pair.2 (JsonObject action))
  | .notes action attributes =>
      some (attributes.foldl (fun jsonObject pair =>
        setValue pair.1 pair.2 jsonObject) (JsonObject action))
  | .notesVec action attributes_vec =>
      some (setWholeValue (attributes_vec.foldl (fun val attributes =>
        val.append (attributesObject attributes)) .null) (JsonObject action))
  | .error action text status reason =>
      let jsonObject := setValue "error" text (JsonObject action status)
      some (if reason != "" then setValue "reason" reason jsonObject else jsonObject)
  | .exception action text status what =>
      some (setValue "reason" what (setValue "exception" text (JsonObject action status)))
  | .output _ => none

/-- The line that `writeNotes(action, attributes)` writes in text mode. -/
def notesLine (attributes : Attributes) : Output :=
  [.text (join (attributes.map Prod.snd) " : "), .text "\n"]

/-- The calls of `writeOutput` in text mode. -/
def Response.texts : Response → List Output
  | .note _ text => [[.text text, .text "\n"]]
  | .attr _ pair => [[.text pair.1, .text " : ", .text pair.2, .text "\n"]]
  | .notes _ attributes => [notesLine attributes]
  -- one `writeNotes(action, attributes)` for every element
  | .notesVec _ attributes_vec => attributes_vec.map notesLine
  | .error _ text _ reason =>
      [.text text] :: (if reason != "" then [[.text ", error: ", .text reason]] else [])
        ++ [[.text "\n"]]
  | .exception _ text _ what =>
      [[.text text, .text ", exception: ", .text what, .text "\n"]]
  | .output pieces => [pieces]

/-- The calls of `writeOutput` that a helper makes. -/
def Response.outputs (json_mode : Bool) (r : Response) : List Output :=
  match json_mode, r.json with
  | true, some object => [[.compact object, .text "\n"]]
  | _, _ => r.texts

/-! ## Log records -/

/-- The arguments of `Monitor::onLog`; `severity_level` is what `getString` makes of it. -/
structure LogRecord where
  severity_level : String
  participant_name : String
  logger_name : String
  message : String
  deriving DecidableEq, Repr

/-- The one call of `writeOutput` in `Monitor::onLog`. -/
def LogRecord.output (json_mode : Bool) (log : LogRecord) : Output :=
  if json_mode then
    [.compact (((((Json.null.set "log_type" (.str "message")).set "severity_level"
      (.str log.severity_level)).set "participant_name" (.str log.participant_name)).set
      "logger_name" (.str log.logger_name)).set "message" (.str log.message)), .text "\n"]
  else
    [.text "    LOG [", .text log.severity_level, .text "] ", .text log.logger_name, .text "@",
      .text log.participant_name, .text " :", .text log.message, .text "\n", .text "fep> "]

end FepControl
