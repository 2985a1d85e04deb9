/-
  The commands on the RPC objects of a participant, and `callRPC`.

  With `callRPC` a user can call any method of any service of a participant: the tool does not know
  the services and passes the request through as text.  So it parses what the user typed, builds a
  request, sends it, and parses what comes back, and each of the four can fail.

  1. **RPC objects** -- three commands that list what a participant offers.  They answer with what
     the library says, in a `try`.

  2. **callRPC** -- the response of a successful call is the only one that is not written by a
     helper or by the compact builder: the handler hands the `Json::Value` itself to `writeOutput`,
     which streams it.  The last argument of the command is optional, and is read through an
     iterator that is compared with the end.

  3. **How it ends** -- the passthrough may be a null pointer (`PassthroughMissing`), and then the
     process stops; the request may be refused, or the reply not be JSON, and then there is an error
     (`rpcException`); or it succeeds (`RpcSucceeds`).  `callRPC_wp` says which, in terms of the
     arguments and of the library alone.
-/
import FepControl.Commands.Property

namespace FepControl

open Lib

variable {W : Type} {D : Stop → Prop}

/-! ## Accessors of library objects -/

/-- `part->getRPCComponentProxy<IRPCParticipantInfo>()`. -/
def ParticipantProxy.getParticipantInfo (part : ParticipantProxy) : Control W (Option Unit) :=
  fep3 (.participant part .getParticipantInfo)

/-- `info->getRPCComponents()`. -/
def ParticipantProxy.getRPCComponents (part : ParticipantProxy) : Control W (List String) :=
  fep3 (.participant part .getRPCComponents)

/-- `info->getRPCComponentIIDs(object_name)`. -/
def ParticipantProxy.getRPCComponentIIDs (part : ParticipantProxy) (object_name : String) :
    Control W (List String) := fep3 (.participant part (.getRPCComponentIIDs object_name))

/-- `info->getRPCComponentInterfaceDefinition(object_name, intf_name)`. -/
def ParticipantProxy.getRPCComponentInterfaceDefinition (part : ParticipantProxy)
    (object_name intf_name : String) : Control W String :=
  fep3 (.participant part (.getRPCComponentInterfaceDefinition object_name intf_name))

/-- `part->getRPCComponentProxy(service_name, iid, rpc_passthrough)`: the proxy afterwards. -/
def ParticipantProxy.getPassthrough (part : ParticipantProxy) (service_name : String) :
    Control W (Option Unit) := fep3 (.participant part (.getPassthrough service_name))

/-- `rpc_passthrough->call(request, response)`: the response, if the call returned `true`. -/
def ParticipantProxy.passthrough (part : ParticipantProxy) (service_name request : String) :
    Control W (Option String) := fep3 (.participant part (.passthrough service_name request))

/-! ## RPC objects -/

/-- `getRPCObjectsParticipant`. -/
def getRPCObjectsParticipant (first _last : TokenIterator) : Control W Bool := do
  let action ← first.deref
  let first ← first.next
  let system_name ← first.deref
  let participant_name ← (← first.next).deref
  withParticipant action system_name participant_name fun part =>
    try
      match ← part.getParticipantInfo with
      | some _ =>
          let value ← part.getRPCComponents
          writeAttribute action ("names", join value ", ")
          pure true
      | none =>
          let error := "participant '" ++ participant_name ++ "@" ++ system_name ++
            "' has no RPC Info"
          writeError action error .rpcobject_error
          pure false
    catch e =>
      let exception := "cannot get participant state for participant '" ++ participant_name ++
        "@" ++ system_name ++ "'"
      writeException action exception .rpcobject_error e
      pure false

/-- `getRPCObjectIIDSParticipant`. -/
def getRPCObjectIIDSParticipant (first _last : TokenIterator) : Control W Bool := do
  let action ← first.deref
  let first ← first.next
  let system_name ← first.deref
  let first ← first.next
  let participant_name ← first.deref
  let first ← first.next
  let object_name ← first.deref
  withParticipant action system_name participant_name fun part =>
    try
      match ← part.getParticipantInfo with
      | some _ =>
          try
            let value ← part.getRPCComponentIIDs object_name
            writeAttribute action ("identifiers", join value ", ")
            pure true
          catch _ =>
            let exception := "participant '" ++ participant_name ++ "@" ++ system_name ++
              "' IID info can not be retrieved"
            writeError action exception .rpcobject_error
            pure false
      | none =>
          let error := "participant '" ++ participant_name ++ "@" ++ system_name ++
            "' has no RPC Info"
          writeError action error .rpcobject_error
          pure false
    catch e =>
      let exception := "cannot get participant state for participant '" ++ participant_name ++
        "@" ++ system_name ++ "'"
      writeException action exception .rpcobject_error e
      pure false

/-- `getRPCObjectDefinitionParticipant`. -/
def getRPCObjectDefinitionParticipant (first _last : TokenIterator) : Control W Bool := do
  let action ← first.deref
  let first ← first.next
  let system_name ← first.deref
  let first ← first.next
  let participant_name ← first.deref
  let first ← first.next
  let object_name ← first.deref
  let first ← first.next
  let intf_name ← first.deref
  withParticipant action system_name participant_name fun part =>
    try
      match ← part.getParticipantInfo with
      | some _ =>
          try
            let value ← part.getRPCComponentInterfaceDefinition object_name intf_name
            writeAttribute action ("definition", value)
            pure true
          catch e =>
            let exception := "participant '" ++ participant_name ++ "@" ++ system_name ++
              "' IID info can not be retrieved"
            writeException action exception .rpcobject_error e
            pure false
      | none =>
          let error := "participant '" ++ participant_name ++ "@" ++ system_name ++
            "' has no RPC Info"
          writeError action error .rpcobject_error
          pure false
    catch e =>
      let exception := "cannot get participant state for participant '" ++ participant_name ++
        "@" ++ system_name ++ "'"
      writeException action exception .rpcobject_error e
      pure false

/-! ## `callRPC` -/

/-- `parseJsonString`: the empty string leaves the result as it is, which is null. -/
def parseJsonString (json_string : String) : Control W Json := do
  if json_string = "" then pure .null
  else
    match (← Eff.read).parse json_string with
    | .ok result => pure result
    | .error parse_errors => throw ("JSON parameters can not be parsed: " ++ parse_errors)

/-- `buildRPCRequest`. -/
def buildRPCRequest (request_name request_arguments : String) : Control W String := do
  let request_parameters ← parseJsonString request_arguments
  pure ((← Eff.read).buildRequest request_name request_parameters)

/-- `if (first + 1 < last) { function_arguments = *(++first); }`. -/
def optionalArgument (first last : TokenIterator) : Control W String := do
  let next ← first.next
  if next.pos < last.pos then next.deref else pure ""

/-- The object of a successful `callRPC`. -/
def rpcDocument (action : String) (json_response : Json) : Json :=
  setWholeValue json_response
    ((Json.null.set "action" (.str action)).set "status" (.int CmdStatus.no_error.toInt))

/-- `callRPC`. -/
def callRPC (first last : TokenIterator) : Control W Bool := do
  let action ← first.deref
  let first ← first.next
  let system_name ← first.deref
  let first ← first.next
  let participant_name ← first.deref
  let first ← first.next
  let service_name ← first.deref
  let first ← first.next
  let _service_iid ← first.deref
  let first ← first.next
  let function_name ← first.deref
  let function_arguments ← optionalArgument first last
  withParticipant action system_name participant_name fun part =>
    try
      let request ← buildRPCRequest function_name function_arguments
      nonNull (← part.getPassthrough service_name)
      match ← part.passthrough service_name request with
      | some response =>
          let json_response ← parseJsonString response
          writeOutput [.streamed (rpcDocument action json_response), .text "\n"]
          pure true
      | none => throw "RPC call failed"
    catch e =>
      let exception_msg := "participant '" ++ participant_name ++ "@" ++ system_name ++
        "' with RPC service '" ++ service_name ++ "' failed to execute function'" ++
        function_name ++ "'"
      writeException action exception_msg .rpcobject_error e
      pure false

/-! ## What the handlers guarantee -/

variable {K : Bool → Bool → Response → Prop}

/-- What `getRPCObjectsParticipant` does with the info of a participant. -/
theorem rpcObjects_body {a : String} (hK : Approves K a) (part : ParticipantProxy) :
    Body D Stays K (do
      let value ← part.getRPCComponents
      writeAttribute a ("names", join value ", ")
      pure true : Control W Bool) :=
  Body.bind (Quiet.fep3 _) fun _ => (Guarded.attr hK _).body

theorem getRPCObjectsParticipant_onSystem (a s p : String) (last : TokenIterator) :
    OnSystem D (Plain a) (fun _ => Stays) s a
      (getRPCObjectsParticipant (begin_ [a, s, p]) last : Control W Bool) := by
  have hK := Plain.approves a
  refine OnSystem.tryParticipant hK (by decide) fun part => ?_
  refine Body.bind (Quiet.fep3 _) fun info => ?_
  cases info with
  | none => exact (Guarded.error a _ (by decide) _).body
  | some _ => exact rpcObjects_body hK part

theorem getRPCObjectIIDSParticipant_onSystem (a s p o : String) (last : TokenIterator) :
    OnSystem D (Plain a) (fun _ => Stays) s a
      (getRPCObjectIIDSParticipant (begin_ [a, s, p, o]) last : Control W Bool) := by
  have hK := Plain.approves a
  refine OnSystem.tryParticipant hK (by decide) fun part => ?_
  refine Body.bind (Quiet.fep3 _) fun info => ?_
  cases info with
  | none => exact (Guarded.error a _ (by decide) _).body
  | some _ =>
    refine (Guarded.tryCatch ?_ fun _ => Guarded.error a _ (by decide) _).body
    exact Body.bind (Quiet.fep3 _) fun _ => (Guarded.attr hK _).body

/-- What `getRPCObjectDefinitionParticipant` does with the info of a participant. -/
theorem rpcDefinition_guarded {a : String} (hK : Approves K a) (s p o i : String)
    (part : ParticipantProxy) :
    Guarded D Stays K (tryCatch
      (do
        let value ← part.getRPCComponentInterfaceDefinition o i
        writeAttribute a ("definition", value)
        pure true : Control W Bool)
      fun e => do
        writeException a ("participant '" ++ p ++ "@" ++ s ++ "' IID info can not be retrieved")
          .rpcobject_error e
        pure false) := by
  refine Guarded.tryCatch ?_ fun e => Guarded.exception hK (fun _ => rfl) _ (by decide) e
  exact Body.bind (Quiet.fep3 _) fun _ => (Guarded.attr hK _).body

theorem getRPCObjectDefinitionParticipant_onSystem (a s p o i : String) (last : TokenIterator) :
    OnSystem D (Plain a) (fun _ => Stays) s a
      (getRPCObjectDefinitionParticipant (begin_ [a, s, p, o, i]) last : Control W Bool) := by
  have hK := Plain.approves a
  refine OnSystem.tryParticipant hK (by decide) fun part => ?_
  refine Body.bind (Quiet.fep3 _) fun info => ?_
  cases info with
  | none => exact (Guarded.error a _ (by decide) _).body
  | some _ => exact (rpcDefinition_guarded hK s p o i part).body

theorem Quiet.read : Quiet D (Eff.read : Control W (Env W)) := fun _ m => Silent.refl m

theorem Quiet.parseJsonString (json_string : String) :
    Quiet D (parseJsonString json_string : Control W Json) := by
  unfold FepControl.parseJsonString
  split
  · exact Quiet.pure _
  · refine Quiet.bind Quiet.read fun env => ?_
    split
    · exact Quiet.pure _
    · exact Quiet.throw _

theorem rpcDocument_carries (action : String) (json_response : Json) :
    Carries action true (rpcDocument action json_response) :=
  ⟨rfl, ⟨0, rfl, by decide⟩, _, rfl⟩

/-- What `callRPC` does with the request and a proxy that is there. -/
def passthroughRest (a : String) (part : ParticipantProxy) (service request : String) :
    Control W Bool := do
  match ← part.passthrough service request with
  | some response =>
      let json_response ← parseJsonString response
      writeOutput [.streamed (rpcDocument a json_response), .text "\n"]
      pure true
  | none => throw "RPC call failed"

/-- What `callRPC` does with an exception. -/
def rpcException (a s p service function e : String) : Control W Bool := do
  writeException a ("participant '" ++ p ++ "@" ++ s ++ "' with RPC service '" ++ service ++
    "' failed to execute function'" ++ function ++ "'") .rpcobject_error e
  pure false

/-- What `callRPC` does with the participant it found. -/
def callRPCRest (a s p service function function_arguments : String) (part : ParticipantProxy) :
    Control W Bool :=
  tryCatch
    (do
      let request ← buildRPCRequest function function_arguments
      nonNull (← part.getPassthrough service)
      passthroughRest a part service request)
    (rpcException a s p service function)

/-- What is behind the building of the request answers once, or throws. -/
theorem passthroughRest_body (a : String) (part : ParticipantProxy) (service request : String) :
    Body D Stays (Answer a) (passthroughRest a part service request : Control W Bool) := by
  refine Body.bind (Quiet.fep3 _) fun response => ?_
  cases response with
  | none => exact Body.throw _
  | some response =>
    exact Body.bind (Quiet.parseJsonString response) fun _ => (Guarded.write (fun _ => rfl)
      fun j => Answer.streamed (rpcDocument_carries a _) j).body

/-- Without the optional argument the function gets the empty string. -/
theorem callRPC_eq (a s p service iid function : String) :
    (callRPC (begin_ [a, s, p, service, iid, function])
        (end_ [a, s, p, service, iid, function]) : Control W Bool) =
      withParticipant a s p (callRPCRest a s p service function "") := rfl

/-- The same for a command with its optional argument. -/
theorem callRPC_eq_argument (a s p service iid function arguments : String) :
    (callRPC (begin_ [a, s, p, service, iid, function, arguments])
        (end_ [a, s, p, service, iid, function, arguments]) : Control W Bool) =
      withParticipant a s p (callRPCRest a s p service function arguments) := rfl

/-! ## How `callRPC` ends -/

/-- The value of `parseJsonString`, or what it throws. -/
def parsed (env : Env W) (json_string : String) : Except String Json :=
  if json_string = "" then .ok .null
  else
    match env.parse json_string with
    | .ok value => .ok value
    | .error parse_errors => .error ("JSON parameters can not be parsed: " ++ parse_errors)

/-- The request of `buildRPCRequest`, or what it throws. -/
def rpcRequest (env : Env W) (request_name request_arguments : String) : Except String String :=
  match parsed env request_arguments with
  | .ok request_parameters => .ok (env.buildRequest request_name request_parameters)
  | .error what => .error what

/-- Parsing gives a value or throws, and does nothing else. -/
theorem parseJsonString_apply (json_string : String) (env : Env W) (m : Machine W) :
    parseJsonString json_string env m = orThrow (parsed env json_string) env m := by
  unfold parseJsonString parsed
  split
  · rfl
  · show (match env.parse json_string with
      | .ok result => pure result
      | .error parse_errors => _ : Control W Json) env m = _
    cases env.parse json_string <;> rfl

/-- So does building a request. -/
theorem buildRPCRequest_apply (request_name request_arguments : String) (env : Env W)
    (m : Machine W) : buildRPCRequest request_name request_arguments env m =
      orThrow (rpcRequest env request_name request_arguments) env m := by
  unfold buildRPCRequest rpcRequest
  rw [Eff.bind_apply, parseJsonString_apply]
  cases parsed env request_arguments <;> rfl

/-- The request is built and the service has no proxy, which the handler then calls. -/
def PassthroughMissing (env : Env W) (part : ParticipantProxy)
    (service function arguments : String) (w : W) : Prop :=
  (∃ request, rpcRequest env function arguments = .ok request) ∧
    ∃ w', env.getPassthrough part service w = (.ok none, w')

/-- The service answers the call with JSON. -/
def PassthroughAnswers (env : Env W) (part : ParticipantProxy)
    (service function arguments : String) (w : W) : Prop :=
  ∃ request w₁ response w₂ value, rpcRequest env function arguments = .ok request ∧
    env.getPassthrough part service w = (.ok (some ()), w₁) ∧
    env.passthrough part service request w₁ = (.ok (some response), w₂) ∧
    parsed env response = .ok value

theorem getPassthrough_ok {env : Env W} {part : ParticipantProxy} {service : String}
    {m : Machine W} {proxy : Option Unit} {w : W}
    (h : env.getPassthrough part service m.world = (.ok proxy, w)) :
    part.getPassthrough service env m =
      (.ok proxy, m.called (.participant part (.getPassthrough service)) false w) := fep3_ok h

theorem getPassthrough_throws {env : Env W} {part : ParticipantProxy} {service : String}
    {m : Machine W} {e : String} {w : W}
    (h : env.getPassthrough part service m.world = (.error e, w)) :
    part.getPassthrough service env m =
      (.throws e, m.called (.participant part (.getPassthrough service)) true w) := fep3_throws h

/-- The process is stopped by a null pointer, and only by that. -/
theorem callRPCRest_stops (a s p service function arguments : String) (part : ParticipantProxy)
    (env : Env W) (m : Machine W) :
    Eff.Stops (callRPCRest a s p service function arguments part) env m ↔
      PassthroughMissing env part service function arguments m.world := by
  rw [callRPCRest, Eff.stops_tryCatch fun _ _ => id]
  unfold Eff.Stops Eff.wp PassthroughMissing
  rw [Eff.bind_apply, buildRPCRequest_apply]
  cases rpcRequest env function arguments with
  | error what => exact iff_of_false id (fun h => absurd h.1 nofun)
  | ok request =>
    show Eff.Post.Holds _
      ((part.getPassthrough service >>= fun proxy => _ : Control W Bool) env m) ↔ _
    rcases hreply : env.getPassthrough part service m.world with ⟨e | proxy, w⟩
    · rw [Eff.bind_of_throws (getPassthrough_throws hreply)]
      exact iff_of_false id (fun h => absurd h.2 nofun)
    · rw [Eff.bind_of_ok (getPassthrough_ok hreply)]
      cases proxy with
      | none => exact iff_of_true trivial ⟨⟨request, rfl⟩, w, rfl⟩
      | some _ =>
        have hbody : Body NoStop Stays (Answer a)
            (passthroughRest a part service request : Control W Bool) :=
          passthroughRest_body a part service request
        exact iff_of_false (Eff.not_stops_of_wp (hbody env _) fun _ _ => id)
          (fun h => absurd h.2 nofun)

/-- A command `callRPC` on the participant `p` of `s` uses a proxy that is not there. -/
def RpcStops (env : Env W) (m : Machine W) (s p service function arguments : String) : Prop :=
  ∃ part w, FindsParticipant env m s p part w ∧
    PassthroughMissing env part service function arguments w

theorem callRPC_stops (a s p service function arguments : String) (env : Env W) (m : Machine W) :
    Eff.Stops (withParticipant a s p (callRPCRest a s p service function arguments)) env m ↔
      RpcStops env m s p service function arguments :=
  withParticipant_stops (fun part m' => callRPCRest_stops a s p service function arguments part
    env m') a

theorem passthrough_ok {env : Env W} {part : ParticipantProxy} {service request : String}
    {m : Machine W} {response : Option String} {w : W}
    (h : env.passthrough part service request m.world = (.ok response, w)) :
    part.passthrough service request env m =
      (.ok response, m.called (.participant part (.passthrough service request)) false w) :=
  fep3_ok h

theorem passthrough_throws {env : Env W} {part : ParticipantProxy} {service request : String}
    {m : Machine W} {e : String} {w : W}
    (h : env.passthrough part service request m.world = (.error e, w)) :
    part.passthrough service request env m =
      (.throws e, m.called (.participant part (.passthrough service request)) true w) :=
  fep3_throws h

/-- The answer of `callRPC` is streamed only where `C`. -/
def RpcAnswer (C : Prop) (a : String) (b j : Bool) (r : Response) : Prop :=
  Answer a b j r ∧ (r.Streamed → C)

/-- A plain answer is not streamed. -/
theorem Plain.rpcAnswer {a : String} {b j : Bool} {r : Response} (h : Plain a b j r) (C : Prop) :
    RpcAnswer C a b j r := ⟨h.toAnswer, fun hs => absurd hs h.unstreamed⟩

/-- An exception is answered for. -/
theorem rpcException_wp {env : Env W} {m m₁ : Machine W} (h : Silent m m₁) (C : Prop)
    (a s p service function e : String) :
    (rpcException a s p service function e).wp env
      ⟨fun b m' => Keeps Eq m m' ∧ Answers (RpcAnswer C a b) m m', fun _ _ => False,
        fun d _ => Benign d⟩ m₁ := by
  have hguarded : Guarded Benign Stays (Plain a)
      (rpcException a s p service function e : Control W Bool) :=
    Guarded.exception (Plain.approves a) (fun _ => rfl) _ (by decide) e
  refine Eff.wp_mono (hguarded env m₁) (fun b m' h' => ?_) (fun _ _ h' => h') (fun _ _ h' => h')
  have h' := h.keeps_answers h'
  exact ⟨h'.1, h'.2.mono fun _ _ hr => hr.rpcAnswer C⟩

/-- **What `callRPC` does with a participant**: its answer is streamed only if the service has
    answered with JSON. -/
theorem callRPCRest_wp (a s p service function arguments : String) (part : ParticipantProxy)
    (env : Env W) (m : Machine W) :
    (callRPCRest a s p service function arguments part).wp env
      ⟨fun b m' => Keeps Eq m m' ∧ Answers (RpcAnswer
          (PassthroughAnswers env part service function arguments m.world) a b) m m',
        fun _ _ => False, fun d _ => Benign d⟩ m := by
  have hcatch : ∀ e m₁, Silent m m₁ → (rpcException a s p service function e).wp env
      ⟨fun b m' => Keeps Eq m m' ∧ Answers (RpcAnswer
          (PassthroughAnswers env part service function arguments m.world) a b) m m',
        fun _ _ => False, fun d _ => Benign d⟩ m₁ :=
    fun e m₁ h => rpcException_wp h _ a s p service function e
  unfold Eff.wp at hcatch ⊢
  rw [callRPCRest, Eff.tryCatch_apply, Eff.bind_apply, buildRPCRequest_apply]
  cases hrequest : rpcRequest env function arguments with
  | error what => exact hcatch what m (Silent.refl m)
  | ok request =>
    show Eff.Post.Holds _ (Eff.orElse _ env
      ((part.getPassthrough service >>= fun proxy => _ : Control W Bool) env m))
    rcases hproxy : env.getPassthrough part service m.world with ⟨e | proxy, w₁⟩
    · rw [Eff.bind_of_throws (getPassthrough_throws hproxy)]
      exact hcatch e _ ⟨⟨⟨rfl, rfl, rfl, rfl⟩, rfl⟩, rfl⟩
    · rw [Eff.bind_of_ok (getPassthrough_ok hproxy)]
      cases proxy with
      | none => trivial
      | some _ =>
        show Eff.Post.Holds _ (Eff.orElse _ env (passthroughRest a part service request env
          (m.called (.participant part (.getPassthrough service)) false w₁)))
        rw [passthroughRest]
        rcases hcall : env.passthrough part service request w₁ with ⟨e | response, w₂⟩
        · rw [Eff.bind_of_throws (passthrough_throws hcall)]
          exact hcatch e _ ⟨⟨⟨rfl, rfl, rfl, rfl⟩, rfl⟩, rfl⟩
        · rw [Eff.bind_of_ok (passthrough_ok hcall)]
          cases response with
          | none => exact hcatch _ _ ⟨⟨⟨rfl, rfl, rfl, rfl⟩, rfl⟩, rfl⟩
          | some response =>
            show Eff.Post.Holds _ (Eff.orElse _ env ((parseJsonString response >>= fun value => _ :
              Control W Bool) env _))
            rw [Eff.bind_apply, parseJsonString_apply]
            cases hparsed : parsed env response with
            | error what => exact hcatch what _ ⟨⟨⟨rfl, rfl, rfl, rfl⟩, rfl⟩, rfl⟩
            | ok value =>
              exact ⟨⟨⟨rfl, rfl, rfl, rfl⟩, rfl⟩, _, rfl,
                Answer.streamed (rpcDocument_carries a value) _,
                fun _ => ⟨request, w₁, response, w₂, value, hrequest, hproxy, hcall, hparsed⟩⟩

/-- The service that a command `callRPC` is about answers with JSON. -/
def RpcSucceeds (env : Env W) (m : Machine W) (s p service function arguments : String) : Prop :=
  ∃ part w, FindsParticipant env m s p part w ∧
    PassthroughAnswers env part service function arguments w

/-- **What `callRPC` does**: it answers once, and streams that exactly if the call succeeds. -/
theorem callRPC_wp (a s p service function arguments : String) (env : Env W) (m : Machine W) :
    (withParticipant a s p (callRPCRest a s p service function arguments)).wp env
      ⟨fun b m' => KeepsModes m m' ∧ ¬ LookupThrows env m s ∧
          OnEntry env m s (fun _ => Stays) b m'.registry ∧
          Answers (RpcAnswer (RpcSucceeds env m s p service function arguments) a b) m m',
        fun _ m' => Silent m m' ∧ LookupThrows env m s, fun d _ => Benign d⟩ m := by
  refine withParticipant_wp (fun m' h => ?_) (fun part m' h => ?_) (fun _ _ h h' => ⟨h, h'⟩)
  · exact ⟨h.modes, h.returns, h.registry, h.answers.mono fun _ _ hr => hr.rpcAnswer _⟩
  · refine Eff.wp_mono (callRPCRest_wp a s p service function arguments part env m')
      (fun b m'' h' => ?_) (fun _ _ h' => h'.elim) (fun _ _ h' => h')
    refine ⟨h.modes.trans h'.1.toKeepsModes, h.returns, h.registry.stays h'.1.registry b,
      h.answers (h'.2.mono fun _ r hr => ⟨hr.1, fun hs => ?_⟩)⟩
    exact ⟨part, _, h.finds, hr.2 hs⟩

end FepControl
