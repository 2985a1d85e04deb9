/-
  The commands on the properties of a participant.

  The configuration of a participant is a tree, and the library shows it one node at a time: the
  names of the children of a node, and the value and the type of each.  The source walks it
  recursively, by path, with a callback for every property.  What the callback does is build a JSON
  value or a text, or the same without the values.  Between the walk and the library there is a
  pointer that may be null, which the walk does not check.

  1. **Traversal** -- `traverseProperties` walks the configuration of a participant with a callback
     and a user object.  The callbacks of the source write through pointers, into a `Json::Value` or
     a string stream; here what they write to is a store `σ` that the walk hands on, and the pointer
     to a JSON value is the path of indices that leads to it from the root.

  2. **Depth** -- the recursion ends when the configuration does; `stackDepth` bounds it, and a
     deeper configuration stops with `stackExhausted`.

  3. **Null pointers** -- `getProperties` may answer with null, and the walk does not look.  Whether
     a walk stops for one of the two reasons does not depend on its callback
     (`traverseProperties_alike`), so it can be asked once for all commands (`WalkStops`).

  4. **The silent path** -- `getParticipantPropertyNames` says nothing when a participant has no
     configuration, where the others write an error.
-/
import FepControl.Commands.Participant

namespace FepControl

open Lib

variable {W : Type} {D : Stop → Prop}

/-! ## Accessors of library objects -/

/-- `part->getRPCComponentProxy<IRPCConfiguration>()`. -/
def ParticipantProxy.getConfiguration (part : ParticipantProxy) : Control W (Option Unit) :=
  fep3 (.participant part .getConfiguration)

/-- `conf->getProperties(node)`. -/
def ParticipantProxy.getProperties (part : ParticipantProxy) (node : String) :
    Control W (Option Unit) := fep3 (.participant part (.getProperties node))

/-- `prop->getProperty(name)`. -/
def ParticipantProxy.getProperty (part : ParticipantProxy) (node name : String) :
    Control W String := fep3 (.participant part (.getProperty node name))

/-- `prop->getPropertyType(name)`. -/
def ParticipantProxy.getPropertyType (part : ParticipantProxy) (node name : String) :
    Control W String := fep3 (.participant part (.getPropertyType node name))

/-- `props->getPropertyNames()`. -/
def ParticipantProxy.getPropertyNames (part : ParticipantProxy) (node : String) :
    Control W (List String) := fep3 (.participant part (.getPropertyNames node))

/-- `p->`, which needs `p` to be a pointer to something. -/
def nonNull (p : Option Unit) : Control W Unit :=
  match p with
  | some _ => pure ()
  | none => Eff.stop .nullPointer

/-! ## The walk -/

/-- The path of the children.  For the empty node `find_last_of` gives `npos`, which is what
    `length() - 1` wraps to, so no slash is put before a name at the top. -/
def nextNode (node prop_name : String) : String :=
  let next_node := match node.toList.getLast? with
    | none | some '/' => node
    | some _ => if prop_name != "" then node ++ "/" else node
  next_node ++ prop_name

/-- `for (auto sub_prop: sub_props)`. -/
def forEach {σ : Type} (visit : String → σ → Control W σ) : List String → σ → Control W σ
  | [], store => pure store
  | sub_prop :: sub_props, store => do
      let store ← visit sub_prop store
      forEach visit sub_props store

/-- The callback of a walk: name, value, type, depth, the user object of the parent; it writes to
    the store and gives the user object of the children. -/
abbrev Callback (σ T : Type) := String → String → String → Nat → T → σ → T × σ

/-- The first statement of `traverseProperties`: the start node is only visited if it has a node
    and a name. -/
def visitProperty {σ T : Type} (part : ParticipantProxy) (callback : Callback σ T)
    (node prop_name : String) (user_object : T) (depth : Nat) (store : σ) : Control W (T × σ) := do
  if depth != 0 || (node != "" && prop_name != "") then
    nonNull (← part.getProperties node)
    let value ← part.getProperty node prop_name
    let type ← part.getPropertyType node prop_name
    pure (callback prop_name value type depth user_object store)
  else pure (user_object, store)

/-- `traverseProperties`. -/
def traverseProperties {σ T : Type} (part : ParticipantProxy) (callback : Callback σ T) :
    (fuel : Nat) → (node prop_name : String) → (user_object : T) → (depth : Nat) → σ → Control W σ
  | 0, _, _, _, _, _ => Eff.stop .stackExhausted
  | fuel + 1, node, prop_name, user_object, depth, store => do
      let (result_user_object, store) ←
        visitProperty part callback node prop_name user_object depth store
      let next_node := nextNode node prop_name
      nonNull (← part.getProperties next_node)
      let sub_props ← part.getPropertyNames next_node
      forEach (fun sub_prop store =>
        traverseProperties part callback fuel next_node sub_prop result_user_object (depth + 1)
          store) sub_props store

/-! ## JSON and text -/

/-- The value that a pointer leads to: `sub_properties` and an index, over and over. -/
def Json.follow : List Nat → Json → Json
  | [], value => value
  | i :: path, value =>
      match value.at_ "sub_properties" with
      | .arr elements => Json.follow path (elements.getD i .null)
      | _ => .null

/-- Write through a pointer. -/
def Json.modifyAt (f : Json → Json) : List Nat → Json → Json
  | [], value => f value
  | i :: path, value =>
      match value.at_ "sub_properties" with
      | .arr elements =>
          value.set "sub_properties" (.arr (elements.modify i (Json.modifyAt f path)))
      | _ => value

/-- `&(*parent)["sub_properties"].append(prop)`. -/
def appendSubProperty (prop : Json) (parent : List Nat) (root : Json) : List Nat × Json :=
  let index := match (root.follow parent).at_ "sub_properties" with
    | .arr elements => elements.length
    | _ => 0
  (parent ++ [index], root.modifyAt (fun value =>
    value.set "sub_properties" ((value.at_ "sub_properties").append prop)) parent)

/-- The three members that `formatPropertyJson` sets. -/
def setProperty (name value type : String) (json_value : Json) : Json :=
  ((json_value.set "name" (.str name)).set "value" (.str value)).set "type" (.str type)

/-- The callback of `formatPropertyJson`. -/
def jsonProperty : Callback Json (List Nat) := fun name value type depth parent root =>
  if depth = 0 then (parent, root.modifyAt (setProperty name value type) parent)
  else appendSubProperty (setProperty name value type .null) parent root

/-- The walk from a start node with the depth that the stack allows. -/
def walk {σ T : Type} (part : ParticipantProxy) (callback : Callback σ T)
    (node prop_name : String) (user_object : T) (store : σ) : Control W σ := do
  traverseProperties part callback (← Eff.read).stackDepth node prop_name user_object 0 store

/-- `formatPropertyJson`. -/
def formatPropertyJson (part : ParticipantProxy) (node prop_name : String) : Control W Json := do
  let root ← walk part jsonProperty node prop_name [] .null
  if node = "" ∧ prop_name = "" then pure (root.at_ "sub_properties") else pure root

/-- `std::string(depth * 2, ' ')`. -/
def indentation (depth : Nat) : String := String.ofList (List.replicate (depth * 2) ' ')

/-- The callback of `formatProperty`. -/
def textProperty : Callback String Unit := fun name value _type depth _ ss =>
  ((), ss ++ indentation depth ++ name ++ " : " ++ value ++ "\n")

/-- `formatProperty`; the string it returns is made from `ss.str().c_str()`. -/
def formatProperty (part : ParticipantProxy) (node prop_name : String) : Control W String := do
  let ss ← walk part textProperty node prop_name () ""
  pure (String.ofList (cStr ss))

/-- The JSON callback of `getParticipantPropertyNames`. -/
def jsonPropertyName : Callback Json (List Nat) := fun name _value type _depth parent_json root =>
  appendSubProperty ((Json.null.set "name" (.str name)).set "type" (.str type)) parent_json root

/-- The text callback of `getParticipantPropertyNames`. -/
def textPropertyName : Callback String Unit := fun name _value _type depth _ ss =>
  ((), ss ++ indentation depth ++ name ++ "\n")

/-- `getNodeAndLeafNamefromProperty`: split at the last slash; without one it is all node. -/
def getNodeAndLeafNamefromProperty (prop_path : String) : String × String :=
  let cs := prop_path.toList
  let name := (cs.reverse.takeWhile (· != '/')).reverse
  if name.length = cs.length then (prop_path, "")
  else (String.ofList (cs.take (cs.length - (name.length + 1))), String.ofList name)

/-- The object of the property commands: `action`, `status`, and a value with the participant and
    one more member. -/
def propertyDocument (action participant_name key : String) (value : Json) : Json :=
  setWholeValue ((Json.null.set "participant" (.str participant_name)).set key value)
    ((Json.null.set "action" (.str action)).set "status" (.int CmdStatus.no_error.toInt))

/-! ## The handlers -/

/-- What `getParticipantPropertyNames` does with a configuration. -/
def writePropertyNames (action participant_name : String) (part : ParticipantProxy) :
    Control W Unit := do
  if (← session).json_mode then
    let properties ← walk part jsonPropertyName "" "" [] .null
    let root := propertyDocument action participant_name "participant_properties"
      (properties.at_ "sub_properties")
    writeOutput [.compact root, .text "\n"]
  else
    let ss ← walk part textPropertyName "" "" () ""
    writeOutput [.text "property names :", .text "\n", .text ss, .text "\n"]

/-- `getParticipantPropertyNames`: a participant without configuration is not answered for. -/
def getParticipantPropertyNames (first _last : TokenIterator) : Control W Bool := do
  let action ← first.deref
  let first ← first.next
  let system_name ← first.deref
  let participant_name ← (← first.next).deref
  withParticipant action system_name participant_name fun part =>
    try
      match ← part.getConfiguration with
      | some _ => writePropertyNames action participant_name part
      | none => pure ()
      pure true
    catch e =>
      let exception := "cannot get property names for participant '" ++ participant_name ++ "@" ++
        (← first.deref) ++ "'"
      writeException action exception .participant_error e
      pure false

/-- What `getParticipantProperties` does with a configuration. -/
def writeProperties (action participant_name : String) (part : ParticipantProxy) :
    Control W Bool := do
  if (← session).json_mode then
    let participant_properties ← formatPropertyJson part "" ""
    let output := propertyDocument action participant_name "participant_properties"
      participant_properties
    writeOutput [.compact output, .text "\n"]
    pure true
  else
    let properties ← formatProperty part "" ""
    writeOutput [.text participant_name, .text " : ", .text "\n", .text properties, .text "\n"]
    pure true

/-- `getParticipantProperties`. -/
def getParticipantProperties (first _last : TokenIterator) : Control W Bool := do
  let action ← first.deref
  let first ← first.next
  let system_name ← first.deref
  let participant_name ← (← first.next).deref
  withParticipant action system_name participant_name fun part =>
    try
      match ← part.getConfiguration with
      | some _ => writeProperties action participant_name part
      | none =>
          let error := "participant '" ++ participant_name ++ "@" ++ system_name ++
            "' has no RPC Info"
          writeError action error .rpcobject_error
          pure false
    catch e =>
      let exception := "cannot get properties for participant '" ++ participant_name ++ "@" ++
        system_name ++ "'"
      writeException action exception .participant_error e
      pure false

/-- Append to the used properties; the source looks for the PARTICIPANT's name in them. -/
def useProperty (participant_name property_path : String) (s : Session) : Session :=
  if participant_name ∈ s.used_properties then
    { s with used_properties := s.used_properties ++ [property_path] }
  else s

/-- The members that a node has in the JSON of `getParticipantProperty`. -/
def nodeProperty (node leaf_name : String) (participant_property : Json) : Json :=
  if (node = "" ∨ leaf_name = "") ∧ ¬ (node = "" ∧ leaf_name = "") then
    ((participant_property.set "name" (.str (if node = "" then leaf_name else node))).set "type"
      (.str "node")).set "value" (.str "")
  else participant_property

/-- What `getParticipantProperty` does with a configuration. -/
def writeProperty (action participant_name property_path : String) (part : ParticipantProxy) :
    Control W Bool := do
  let (node, leaf_name) := getNodeAndLeafNamefromProperty property_path
  if (← session).json_mode then
    let participant_property ← formatPropertyJson part node leaf_name
    let output := propertyDocument action participant_name "participant_property"
      (nodeProperty node leaf_name participant_property)
    writeOutput [.compact output, .text "\n"]
    update (useProperty participant_name property_path)
    pure true
  else
    let property ← formatProperty part node leaf_name
    writeOutput [.text property, .text "\n"]
    update (useProperty participant_name property_path)
    pure true

/-- `getParticipantProperty`. -/
def getParticipantProperty (first _last : TokenIterator) : Control W Bool := do
  let action ← first.deref
  let first ← first.next
  let system_name ← first.deref
  let first ← first.next
  let participant_name ← first.deref
  let first ← first.next
  let property_path ← first.deref
  withParticipant action system_name participant_name fun part =>
    try
      match ← part.getConfiguration with
      | some _ => writeProperty action participant_name property_path part
      | none =>
          let error := "participant '" ++ participant_name ++ "@" ++ system_name ++
            "' has no RPC configuration"
          writeError action error .participant_error
          pure false
    catch e =>
      let exception := "cannot get property " ++ property_path ++ " for participant '" ++
        participant_name ++ "@" ++ system_name ++ "'"
      writeException action exception .participant_error e
      pure false

/-- `setParticipantProperty`. -/
def setParticipantProperty (first _last : TokenIterator) : Control W Bool := do
  let action ← first.deref
  let first ← first.next
  let system_name ← first.deref
  let first ← first.next
  let participant_name ← first.deref
  let first ← first.next
  let property_path ← first.deref
  let first ← first.next
  let property_value ← first.deref
  withParticipant action system_name participant_name fun part =>
    try
      match ← part.getConfiguration with
      | some _ =>
          let (node, leaf_name) := getNodeAndLeafNamefromProperty property_path
          match ← part.getProperties node with
          | some _ =>
              let type ← part.getPropertyType node leaf_name
              part.call (.setProperty node leaf_name property_value type)
              update (useProperty participant_name property_path)
              writeNote action "property set"
              pure true
          | none =>
              let error := "participant '" ++ participant_name ++ "@" ++ system_name ++
                "' has no property" ++ node
              writeError action error .participant_error
              pure false
      | none =>
          let error := "participant '" ++ participant_name ++ "@" ++ system_name ++
            "' has no RPC configuration"
          writeError action error .participant_error
          pure false
    catch e =>
      let exception := "cannot set property " ++ property_path ++ " for participant '" ++
        participant_name ++ "@" ++ system_name ++ "'"
      writeException action exception .participant_error e
      pure false

/-! ## What the handlers guarantee -/

theorem Quiet.nonNull : ∀ p : Option Unit, Quiet Benign (nonNull p : Control W Unit)
  | some _ => Quiet.pure ()
  | none => Quiet.stop trivial

theorem Quiet.forEach {σ : Type} {visit : String → σ → Control W σ}
    (h : ∀ sub_prop store, Quiet Benign (visit sub_prop store)) :
    ∀ (sub_props : List String) (store : σ), Quiet Benign (forEach visit sub_props store)
  | [], _ => Quiet.pure _
  | sub_prop :: sub_props, store =>
      (h sub_prop store).bind fun store => Quiet.forEach h sub_props store

theorem Quiet.visitProperty {σ T : Type} (part : ParticipantProxy) (callback : Callback σ T)
    (node prop_name : String) (user_object : T) (depth : Nat) (store : σ) : Quiet Benign
      (visitProperty part callback node prop_name user_object depth store : Control W (T × σ)) := by
  unfold FepControl.visitProperty
  split
  · exact (Quiet.fep3 _).bind fun p => (Quiet.nonNull p).bind fun _ =>
      (Quiet.fep3 _).bind fun _ => (Quiet.fep3 _).bind fun _ => Quiet.pure _
  · exact Quiet.pure _

/-- The walk only calls the library, however deep it goes. -/
theorem Quiet.traverseProperties {σ T : Type} (part : ParticipantProxy)
    (callback : Callback σ T) : ∀ (fuel : Nat) (node prop_name : String) (user_object : T)
    (depth : Nat) (store : σ), Quiet Benign
      (traverseProperties part callback fuel node prop_name user_object depth store :
        Control W σ) := by
  intro fuel
  induction fuel with
  | zero => intro _ _ _ _ _; exact Quiet.stop trivial
  | succ fuel ih =>
    intro node prop_name user_object depth store
    rw [FepControl.traverseProperties]
    refine (Quiet.visitProperty part callback node prop_name user_object depth store).bind
      fun result => ?_
    exact (Quiet.fep3 _).bind fun p => (Quiet.nonNull p).bind fun _ =>
      (Quiet.fep3 _).bind fun sub_props =>
        Quiet.forEach (fun sub_prop store => ih _ _ _ _ _) sub_props _

theorem Quiet.walk {σ T : Type} (part : ParticipantProxy) (callback : Callback σ T)
    (node prop_name : String) (user_object : T) (store : σ) :
    Quiet Benign (walk part callback node prop_name user_object store : Control W σ) :=
  fun env m => Quiet.traverseProperties part callback env.stackDepth node prop_name user_object 0
    store env m

theorem Quiet.formatPropertyJson (part : ParticipantProxy) (node prop_name : String) :
    Quiet Benign (formatPropertyJson part node prop_name : Control W Json) := by
  refine (Quiet.walk part jsonProperty node prop_name [] .null).bind fun root => ?_
  split
  · exact Quiet.pure _
  · exact Quiet.pure _

theorem Quiet.formatProperty (part : ParticipantProxy) (node prop_name : String) :
    Quiet Benign (formatProperty part node prop_name : Control W String) :=
  (Quiet.walk part textProperty node prop_name () "").bind fun _ => Quiet.pure _

theorem propertyDocument_carries (action participant_name key : String) (value : Json) :
    Carries action true (propertyDocument action participant_name key value) :=
  ⟨rfl, ⟨0, rfl, by decide⟩, _, rfl⟩

theorem useProperty_lateral (participant_name property_path : String) :
    Lateral (useProperty participant_name property_path) := by
  intro s
  unfold useProperty
  split
  · exact ⟨rfl, rfl, rfl, rfl⟩
  · exact ⟨rfl, rfl, rfl, rfl⟩

variable {K : Bool → Bool → Response → Prop}

/-- The names are shown in one response. -/
theorem writePropertyNames_body {a : String} (hK : Approves K a) (p : String)
    (part : ParticipantProxy) :
    Body Benign Stays K (do writePropertyNames a p part; pure true : Control W Bool) := by
  rw [writePropertyNames]
  simp only [bind_assoc]
  refine Body.session fun s => ?_
  cases hmode : s.json_mode with
  | true =>
    rw [if_pos rfl]
    simp only [bind_assoc]
    exact Body.bind (Quiet.walk _ _ _ _ _ _) fun _ => (Guarded.write (fun _ => rfl) fun j _ =>
      hK.compact j (propertyDocument_carries a p _ _)).body
  | false =>
    rw [if_neg (by decide)]
    simp only [bind_assoc]
    refine Body.bind (Quiet.walk _ _ _ _ _ _) fun _ => (Guarded.write (fun _ => rfl)
      fun j hj => ?_).body
    rw [hj]; exact hK.text id

/-- And so are the properties. -/
theorem writeProperties_body {a : String} (hK : Approves K a) (p : String)
    (part : ParticipantProxy) :
    Body Benign Stays K (writeProperties a p part : Control W Bool) := by
  refine Body.session fun session => ?_
  cases hmode : session.json_mode with
  | true =>
    exact Body.bind (Quiet.formatPropertyJson _ _ _) fun _ => (Guarded.write (fun _ => rfl)
      fun j _ => hK.compact j (propertyDocument_carries a p _ _)).body
  | false =>
    refine Body.bind (Quiet.formatProperty _ _ _) fun _ => (Guarded.write (fun _ => rfl)
      fun j hj => ?_).body
    rw [hj]; exact hK.text id

theorem getParticipantProperties_onSystem (a s p : String) (last : TokenIterator) :
    OnSystem Benign (Plain a) (fun _ => Stays) s a
      (getParticipantProperties (begin_ [a, s, p]) last : Control W Bool) := by
  have hK := Plain.approves a
  refine OnSystem.tryParticipant hK (by decide) fun part => ?_
  refine Body.bind (Quiet.fep3 _) fun conf => ?_
  cases conf with
  | none => exact (Guarded.error a _ (by decide) _).body
  | some _ => exact writeProperties_body hK p part

/-- And a single property, which is remembered as used by then. -/
theorem writeProperty_body {a : String} (hK : Approves K a) (p path : String)
    (part : ParticipantProxy) :
    Body Benign Stays K (writeProperty a p path part : Control W Bool) := by
  refine Body.session fun session => ?_
  cases hmode : session.json_mode with
  | true =>
    exact Body.bind (Quiet.formatPropertyJson _ _ _) fun _ =>
      (Guarded.write_update (useProperty_lateral p path)
        fun j _ => hK.compact j (propertyDocument_carries a p _ _)).body
  | false =>
    refine Body.bind (Quiet.formatProperty _ _ _) fun _ =>
      (Guarded.write_update (useProperty_lateral p path) fun j hj => ?_).body
    rw [hj]; exact hK.text id

theorem getParticipantProperty_onSystem (a s p path : String) (last : TokenIterator) :
    OnSystem Benign (Plain a) (fun _ => Stays) s a
      (getParticipantProperty (begin_ [a, s, p, path]) last : Control W Bool) := by
  have hK := Plain.approves a
  refine OnSystem.tryParticipant hK (by decide) fun part => ?_
  refine Body.bind (Quiet.fep3 _) fun conf => ?_
  cases conf with
  | none => exact (Guarded.error a _ (by decide) _).body
  | some _ => exact writeProperty_body hK p path part

/-- What `setParticipantProperty` does with the properties of a node. -/
theorem setProperty_body {a : String} (hK : Approves K a) (p path node leaf_name v : String)
    (part : ParticipantProxy) :
    Body D Stays K (do
      let type ← part.getPropertyType node leaf_name
      part.call (.setProperty node leaf_name v type)
      update (useProperty p path)
      writeNote a "property set"
      pure true : Control W Bool) :=
  Body.bind (Quiet.fep3 _) fun _ => Body.bind (Quiet.participantCall part _) fun _ =>
    Body.bind (Quiet.update (useProperty_lateral p path)) fun _ => (Guarded.note hK _).body

theorem setParticipantProperty_onSystem (a s p path v : String) (last : TokenIterator) :
    OnSystem D (Plain a) (fun _ => Stays) s a
      (setParticipantProperty (begin_ [a, s, p, path, v]) last : Control W Bool) := by
  have hK := Plain.approves a
  refine OnSystem.tryParticipant hK (by decide) fun part => ?_
  refine Body.bind (Quiet.fep3 _) fun conf => ?_
  cases conf with
  | none => exact (Guarded.error a _ (by decide) _).body
  | some _ =>
    refine Body.bind (Quiet.fep3 _) fun prop => ?_
    cases prop with
    | none => exact (Guarded.error a _ (by decide) _).body
    | some _ => exact setProperty_body hK p path _ _ v part

/-! ## When a walk stops

  A walk goes the same way whatever its callback makes of what it sees, so where it stops is a
  matter of the configuration: of the participant, the start and the world. -/

section

variable {σ σ' T T' : Type} {R : σ → σ' → Prop} {U : T → T' → Prop}

theorem nonNull_alike (p : Option Unit) :
    Eff.Alike SameWorld Eq (nonNull p : Control W Unit) (nonNull p : Control W Unit) := by
  cases p with
  | none => exact .stop _
  | some _ => exact .pure rfl

/-- Loops over the same names go alike if their rounds do. -/
theorem forEach_alike {visit : String → σ → Control W σ} {visit' : String → σ' → Control W σ'}
    (h : ∀ sub_prop store store', R store store' →
      Eff.Alike SameWorld R (visit sub_prop store) (visit' sub_prop store')) :
    ∀ (sub_props : List String) {store : σ} {store' : σ'}, R store store' →
      Eff.Alike SameWorld R (forEach visit sub_props store) (forEach visit' sub_props store')
  | [], _, _, hR => .pure hR
  | sub_prop :: sub_props, store, store', hR =>
      (h sub_prop store store' hR).bind fun _ _ hR' => forEach_alike h sub_props hR'

/-- The callbacks keep two stores and two user objects related. -/
def Corresponding (R : σ → σ' → Prop) (U : T → T' → Prop) (callback : Callback σ T)
    (callback' : Callback σ' T') : Prop :=
  ∀ name value type depth {user user' store store'}, U user user' → R store store' →
    U (callback name value type depth user store).1 (callback' name value type depth user' store').1
    ∧ R (callback name value type depth user store).2
      (callback' name value type depth user' store').2

variable {callback : Callback σ T} {callback' : Callback σ' T'}

/-- A visit makes the same calls whatever its callback does. -/
theorem visitProperty_alike (h : Corresponding R U callback callback') (part : ParticipantProxy)
    (node prop_name : String) (depth : Nat) {user : T} {user' : T'} {store : σ} {store' : σ'}
    (hU : U user user') (hR : R store store') :
    Eff.Alike SameWorld (fun x x' => U x.1 x'.1 ∧ R x.2 x'.2)
      (visitProperty part callback node prop_name user depth store : Control W (T × σ))
      (visitProperty part callback' node prop_name user' depth store' : Control W (T' × σ')) := by
  unfold visitProperty
  split
  · refine (fep3_alike _).bind fun p _ hp => ?_
    subst hp
    refine (nonNull_alike p).bind fun _ _ _ => (fep3_alike _).bind fun value _ hvalue => ?_
    subst hvalue
    refine (fep3_alike _).bind fun type _ htype => ?_
    subst htype
    exact .pure (h prop_name value type depth hU hR)
  · exact .pure ⟨hU, hR⟩

/-- Two walks with corresponding callbacks go alike. -/
theorem traverseProperties_alike (h : Corresponding R U callback callback')
    (part : ParticipantProxy) (fuel : Nat) : ∀ (node prop_name : String) (depth : Nat)
    {user : T} {user' : T'} {store : σ} {store' : σ'}, U user user' → R store store' →
    Eff.Alike SameWorld R
      (traverseProperties part callback fuel node prop_name user depth store : Control W σ)
      (traverseProperties part callback' fuel node prop_name user' depth store' :
        Control W σ') := by
  induction fuel with
  | zero => intro _ _ _ _ _ _ _ _ _; exact .stop _
  | succ fuel ih =>
    intro node prop_name depth user user' store store' hU hR
    rw [traverseProperties, traverseProperties]
    refine (visitProperty_alike h part node prop_name depth hU hR).bind fun x x' hx => ?_
    refine (fep3_alike _).bind fun p _ hp => ?_
    subst hp
    refine (nonNull_alike p).bind fun _ _ _ => (fep3_alike _).bind fun sub_props _ hprops => ?_
    subst hprops
    exact forEach_alike (fun sub_prop _ _ hR' => ih _ sub_prop (depth + 1) hx.1 hR') sub_props hx.2

end

/-- The callback that does nothing. -/
def ignore : Callback Unit Unit := fun _ _ _ _ _ _ => ((), ())

/-- The walk over the configuration of `part`, started at a node in the world `w`, meets a null
    pointer or runs out of stack. -/
def WalkStops (env : Env W) (part : ParticipantProxy) (node prop_name : String) (w : W) : Prop :=
  Eff.Stops (walk part ignore node prop_name () () : Control W Unit) env (Machine.new false "" w)

/-- Whether a walk stops does not depend on what it is for. -/
theorem walk_stops {σ T : Type} (part : ParticipantProxy) (callback : Callback σ T)
    (node prop_name : String) (user_object : T) (store : σ) (env : Env W) (m : Machine W) :
    Eff.Stops (walk part callback node prop_name user_object store) env m ↔
      WalkStops env part node prop_name m.world := by
  have halike : Eff.Alike SameWorld (fun _ _ => True)
      (traverseProperties part callback env.stackDepth node prop_name user_object 0 store :
        Control W σ)
      (traverseProperties part ignore env.stackDepth node prop_name () 0 ()) :=
    traverseProperties_alike (U := fun _ _ => True) (fun _ _ _ _ _ _ _ _ _ _ => ⟨trivial, trivial⟩)
      part env.stackDepth node prop_name 0 trivial trivial
  exact halike.stops_iff (show SameWorld m (Machine.new false "" m.world) from rfl)

theorem formatPropertyJson_stops (part : ParticipantProxy) (node prop_name : String) (env : Env W)
    (m : Machine W) : Eff.Stops (formatPropertyJson part node prop_name) env m ↔
      WalkStops env part node prop_name m.world := by
  rw [formatPropertyJson, Eff.stops_bind_left, walk_stops]
  intro root m'
  split
  · exact id
  · exact id

theorem formatProperty_stops (part : ParticipantProxy) (node prop_name : String) (env : Env W)
    (m : Machine W) : Eff.Stops (formatProperty part node prop_name) env m ↔
      WalkStops env part node prop_name m.world := by
  rw [formatProperty, Eff.stops_bind_left, walk_stops]
  exact fun _ _ => id

/-- A command on the participant `p` of `s` finds a configuration, and its walk from a node
    stops. -/
def ConfigurationStops (env : Env W) (m : Machine W) (s p node prop_name : String) : Prop :=
  ∃ part w, FindsParticipant env m s p part w ∧ ∃ w',
    env.getConfiguration part w = (.ok (some ()), w') ∧ WalkStops env part node prop_name w'

theorem getConfiguration_ok {env : Env W} {part : ParticipantProxy} {m : Machine W}
    {conf : Option Unit} {w : W} (h : env.getConfiguration part m.world = (.ok conf, w)) :
    part.getConfiguration env m =
      (.ok conf, m.called (.participant part .getConfiguration) false w) := fep3_ok h

theorem getConfiguration_throws {env : Env W} {part : ParticipantProxy} {m : Machine W}
    {e : String} {w : W} (h : env.getConfiguration part m.world = (.error e, w)) :
    part.getConfiguration env m =
      (.throws e, m.called (.participant part .getConfiguration) true w) := fep3_throws h

/-- A handler of a configuration stops where the walk does. -/
theorem configuration_stops {env : Env W} {part : ParticipantProxy} {node prop_name : String}
    {body : Control W Bool} (other : Control W Bool) (catch_ : String → Control W Bool)
    (hbody : ∀ m, Eff.Stops body env m ↔ WalkStops env part node prop_name m.world)
    (hother : ∀ m, ¬ Eff.Stops other env m) (hcatch : ∀ e m, ¬ Eff.Stops (catch_ e) env m)
    (m : Machine W) :
    Eff.Stops (tryCatch (do
      match ← part.getConfiguration with
      | some _ => body
      | none => other) catch_) env m ↔ ∃ w', env.getConfiguration part m.world =
        (.ok (some ()), w') ∧ WalkStops env part node prop_name w' := by
  rw [Eff.stops_tryCatch hcatch]
  unfold Eff.Stops Eff.wp
  rcases hreply : env.getConfiguration part m.world with ⟨e | conf, w⟩
  · rw [Eff.bind_of_throws (getConfiguration_throws hreply)]
    exact iff_of_false id nofun
  · rw [Eff.bind_of_ok (getConfiguration_ok hreply)]
    cases conf with
    | none => exact iff_of_false (hother _) nofun
    | some _ =>
      refine (hbody _).trans ⟨fun h => ⟨w, rfl, h⟩, fun ⟨w', heq, h⟩ => ?_⟩
      cases heq; exact h

theorem writePropertyNames_stops (a p : String) (part : ParticipantProxy) (env : Env W)
    (m : Machine W) : Eff.Stops (do writePropertyNames a p part; pure true : Control W Bool) env m ↔
      WalkStops env part "" "" m.world := by
  rw [Eff.stops_bind_left fun _ _ => id]
  show Eff.Stops (if m.session.json_mode then _ else _ : Control W Unit) env m ↔ _
  split
  · rw [Eff.stops_bind_left fun _ _ => id, walk_stops]
  · rw [Eff.stops_bind_left fun _ _ => id, walk_stops]

theorem getParticipantProperties_stops (a s p : String) (last : TokenIterator) (env : Env W)
    (m : Machine W) : Eff.Stops (getParticipantProperties (begin_ [a, s, p]) last) env m ↔
      ConfigurationStops env m s p "" "" := by
  refine withParticipant_stops (fun part m' => ?_) a
  refine configuration_stops _ _ (fun m₁ => ?_) (fun _ => id) (fun _ _ => id) m'
  show Eff.Stops (if m₁.session.json_mode then _ else _ : Control W Bool) env m₁ ↔ _
  split
  · rw [Eff.stops_bind_left fun _ _ => id, formatPropertyJson_stops]
  · rw [Eff.stops_bind_left fun _ _ => id, formatProperty_stops]

/-- A property is read by a walk from its node. -/
theorem getParticipantProperty_stops (a s p path : String) (last : TokenIterator) (env : Env W)
    (m : Machine W) : Eff.Stops (getParticipantProperty (begin_ [a, s, p, path]) last) env m ↔
      ConfigurationStops env m s p (getNodeAndLeafNamefromProperty path).1
        (getNodeAndLeafNamefromProperty path).2 := by
  refine withParticipant_stops (fun part m' => ?_) a
  refine configuration_stops _ _ (fun m₁ => ?_) (fun _ => id) (fun _ _ => id) m'
  show Eff.Stops (if m₁.session.json_mode then _ else _ : Control W Bool) env m₁ ↔ _
  split
  · exact (Eff.stops_bind_left (fun _ _ => id) m₁).trans (formatPropertyJson_stops _ _ _ env m₁)
  · exact (Eff.stops_bind_left (fun _ _ => id) m₁).trans (formatProperty_stops _ _ _ env m₁)

/-! ## The silent path of `getParticipantPropertyNames` -/

/-- The participant of the command is there, and has no configuration. -/
def Unconfigured (env : Env W) (m : Machine W) (s p : String) : Prop :=
  ∃ part w, FindsParticipant env m s p part w ∧ ∃ w', env.getConfiguration part w = (.ok none, w')

/-- What `getParticipantPropertyNames` does with an exception. -/
def propertyNamesException (a s p e : String) : Control W Bool := do
  writeException a ("cannot get property names for participant '" ++ p ++ "@" ++ s ++ "'")
    .participant_error e
  pure false

/-- What `getParticipantPropertyNames` does with the participant it found. -/
def propertyNamesRest (a s p : String) (part : ParticipantProxy) : Control W Bool :=
  tryCatch
    (do
      match ← part.getConfiguration with
      | some _ => do
          writePropertyNames a p part
          pure true
      | none => pure true)
    (propertyNamesException a s p)

/-- The handler, with what it does with its participant as a function. -/
theorem getParticipantPropertyNames_eq (a s p : String) (last : TokenIterator) :
    (getParticipantPropertyNames (begin_ [a, s, p]) last : Control W Bool) =
      withParticipant a s p (propertyNamesRest a s p) := rfl

theorem getParticipantPropertyNames_stops (a s p : String) (last : TokenIterator) (env : Env W)
    (m : Machine W) : Eff.Stops (getParticipantPropertyNames (begin_ [a, s, p]) last) env m ↔
      ConfigurationStops env m s p "" "" := by
  rw [getParticipantPropertyNames_eq]
  refine withParticipant_stops (fun part m' => ?_) a
  exact configuration_stops _ _ (fun m₁ => writePropertyNames_stops a p part env m₁)
    (fun _ => id) (fun _ _ => id) m'

/-- What `getParticipantPropertyNames` does behind the lookup of the participant. -/
theorem propertyNamesRest_wp (a s p : String) (part : ParticipantProxy) (env : Env W)
    (m : Machine W) : (propertyNamesRest a s p part).wp env
      ⟨fun b m' => Keeps Eq m m' ∧
          ((b = true ∧ m'.written = m.written ∧ ∃ w, env.getConfiguration part m.world =
              (.ok none, w)) ∨
            (Answers (Plain a b) m m' ∧ ∀ w, env.getConfiguration part m.world ≠ (.ok none, w))),
        fun _ _ => False, fun d _ => Benign d⟩ m := by
  have hcatch : ∀ e m₁, Silent m m₁ → (∀ w, env.getConfiguration part m.world ≠ (.ok none, w)) →
      (propertyNamesException a s p e).wp env
        ⟨fun b m' => Keeps Eq m m' ∧
            ((b = true ∧ m'.written = m.written ∧ ∃ w, env.getConfiguration part m.world =
                (.ok none, w)) ∨
              (Answers (Plain a b) m m' ∧ ∀ w, env.getConfiguration part m.world ≠ (.ok none, w))),
          fun _ _ => False, fun d _ => Benign d⟩ m₁ := by
    intro e m₁ hsilent hconf
    have hguarded : Guarded Benign Stays (Plain a)
        (propertyNamesException a s p e : Control W Bool) :=
      Guarded.exception (Plain.approves a) (fun _ => rfl) _ (by decide) e
    refine Eff.wp_mono (hguarded env m₁) (fun b m' h => ?_) (fun _ _ h => h) (fun _ _ h => h)
    have h := hsilent.keeps_answers h
    exact ⟨h.1, .inr ⟨h.2, hconf⟩⟩
  rw [propertyNamesRest, Eff.wp_tryCatch]
  rcases hreply : env.getConfiguration part m.world with ⟨e | conf, w⟩
  · rw [hreply] at hcatch
    unfold Eff.wp
    rw [Eff.bind_of_throws (getConfiguration_throws hreply)]
    exact hcatch e _ ⟨⟨⟨rfl, rfl, rfl, rfl⟩, rfl⟩, rfl⟩ fun _ => nofun
  · have hcalled : Silent m (m.called (.participant part .getConfiguration) false w) :=
      ⟨⟨⟨rfl, rfl, rfl, rfl⟩, rfl⟩, rfl⟩
    rw [hreply] at hcatch
    unfold Eff.wp
    rw [Eff.bind_of_ok (getConfiguration_ok hreply)]
    cases conf with
    | none => exact ⟨hcalled.toKeeps, .inl ⟨rfl, rfl, w, rfl⟩⟩
    | some _ =>
      refine Eff.wp_mono (writePropertyNames_body (Plain.approves a) p part env _)
        (fun b m' h => ?_) (fun e m' h => hcatch e m' (hcalled.trans h) fun _ => nofun)
        (fun _ _ h => h)
      have h := hcalled.keeps_answers h
      exact ⟨h.1, .inr ⟨h.2, fun _ => nofun⟩⟩

/-- **What `getParticipantPropertyNames` does**: it answers as the others do, unless there is no
    configuration; then it says nothing and returns `true`. -/
theorem getParticipantPropertyNames_wp (a s p : String) (last : TokenIterator) (env : Env W)
    (m : Machine W) : (getParticipantPropertyNames (begin_ [a, s, p]) last).wp env
      ⟨fun b m' => KeepsModes m m' ∧ ¬ LookupThrows env m s ∧
          OnEntry env m s (fun _ => Stays) b m'.registry ∧
          (Unconfigured env m s p ∧ b = true ∧ m'.written = m.written ∨
            ¬ Unconfigured env m s p ∧ Answers (Plain a b) m m'),
        fun _ m' => Silent m m' ∧ LookupThrows env m s, fun d _ => Benign d⟩ m := by
  rw [getParticipantPropertyNames_eq]
  refine withParticipant_wp (fun m' h => ?_) (fun part m' h => ?_) (fun _ _ h h' => ⟨h, h'⟩)
  · refine ⟨h.modes, h.returns, h.registry, .inr ⟨?_, h.answers⟩⟩
    exact fun ⟨part, w, hfinds, _⟩ => h.missing part w hfinds
  · refine Eff.wp_mono (propertyNamesRest_wp a s p part env m') (fun b m'' h' => ?_)
      (fun _ _ h' => h'.elim) (fun _ _ h' => h')
    obtain ⟨hkeeps, hcase⟩ := h'
    refine ⟨h.modes.trans hkeeps.toKeepsModes, h.returns, h.registry.stays hkeeps.registry b, ?_⟩
    rcases hcase with ⟨hb, hwritten, w', hconf⟩ | ⟨hanswers, hconf⟩
    · exact .inl ⟨⟨part, _, h.finds, w', hconf⟩, hb, hwritten.trans h.written⟩
    · refine .inr ⟨?_, h.answers hanswers⟩
      rintro ⟨part', w', hfinds, w₁, hconf'⟩
      obtain ⟨rfl, rfl⟩ := h.finds.unique hfinds
      exact hconf w₁ hconf'

end FepControl
