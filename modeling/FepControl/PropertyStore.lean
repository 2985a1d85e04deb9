/-
  Setting a property, and getting it again.

  `setParticipantProperty` and `getParticipantProperty` take the same path, and what one of them has
  set the other should show.  Between them are the library, which addresses a property by the path
  of its node and its own name, and the function `getNodeAndLeafNamefromProperty`, which makes these
  two of the one path on the line.

  1. **setValue** -- a configuration with one value changed: what is at the path has the new value,
     and all else is as it was (`Node.at?_setValue`).  Its names are the same, so a tree that is
     well named remains so.

  2. **Stores** -- a library that keeps a configuration for a participant: it serves it, sets what
     is there, and refuses names that are not there.

  3. **The path** -- both commands take it apart at its last slash.  A path with a slash is a node
     and a name (`getNodeAndLeaf_property`); a path without one is all node, and the name is empty
     (`getNodeAndLeaf_node`).

  4. **The commands** -- each is the lookup of the participant and a rest, and the rest is followed
     through both modes.  What the getter writes is given line by line: the property with its name,
     value and type, and then what is below it (`Reports`); or, at a path without a slash, what is
     below the node, without the property itself (`ReportsNode`).

  5. **setThenGet** -- on a path with a slash, setting changes the one value and getting reports it.
     On a path without one, the setter asks the node for a child without a name, which no node has,
     and fails, and the getter gives the rows below it and the type `node` (`TakenForNode`).
-/
import FepControl.Visits
import FepControl.Renderings
import Mathlib.Data.List.TakeWhile

namespace FepControl

open Lib

variable {W : Type}

/-! ## One value changed -/

/-- The same for what is at a path below a node, or for the node itself. -/
def Node.setValue (v : String) (path : List String) (node : Node) : Node :=
  if path = [] then { node with value := v }
  else { node with sub_properties := node.sub_properties.setValue v path }

/-- What the library shows of a node: value, type and the names below it. -/
def Node.shown (node : Node) : String × String × List String :=
  (node.value, node.type, node.sub_properties.names)

namespace Properties

/-- Setting a value changes no name. -/
theorem setValue_names (v : String) (path : List String) (props : Properties) :
    (props.setValue v path).names = props.names := by
  induction props with
  | nil => cases path <;> rfl
  | cons n value type sub_properties siblings _ ih =>
    cases path with
    | nil => rfl
    | cons name path =>
      rw [setValue]
      split
      · split
        · rfl
        · rfl
      · rw [names, names, ih]

/-- The child on the way to the value is changed, and no other. -/
theorem setValue_child? (v name : String) (path : List String) (props : Properties)
    (x : String) : (props.setValue v (name :: path)).child? x =
      if x = name then (props.child? name).map (Node.setValue v path) else props.child? x := by
  induction props with
  | nil => simp [setValue, child?]
  | cons n value type sub_properties siblings _ ih =>
    rw [setValue]
    by_cases hn : n = name
    · subst hn
      rw [if_pos rfl]
      by_cases hpath : path = []
      · subst hpath
        by_cases hx : x = n
        · subst hx
          simp [child?, Node.setValue]
        · have hx' : ¬ n = x := fun h => hx h.symm
          simp [child?, hx, hx']
      · by_cases hx : x = n
        · subst hx
          simp [child?, Node.setValue, hpath]
        · have hx' : ¬ n = x := fun h => hx h.symm
          simp [child?, hx, hx', hpath]
    · rw [if_neg hn, child?, ih, child?, if_neg hn]
      by_cases hnx : n = x
      · subst hnx
        rw [if_pos rfl, if_neg hn, child?, if_pos rfl]
      · rw [if_neg hnx, child?, if_neg hnx]

/-- So the names remain well formed. -/
theorem WellNamed.setValue {props : Properties} (h : props.WellNamed) (v : String)
    (path : List String) : (props.setValue v path).WellNamed := by
  induction props generalizing path with
  | nil => cases path <;> trivial
  | cons n value type sub_properties siblings ih_sub ih_siblings =>
    obtain ⟨hname, hnodup, hsub, hsiblings⟩ := h
    cases path with
    | nil => exact ⟨hname, hnodup, hsub, hsiblings⟩
    | cons name path =>
      rw [Properties.setValue]
      split
      · split
        · exact ⟨hname, hnodup, hsub, hsiblings⟩
        · exact ⟨hname, hnodup, ih_sub hsub path, hsiblings⟩
      · refine ⟨hname, ?_, hsub, ih_siblings hsiblings _⟩
        rw [setValue_names]
        exact hnodup

end Properties

/-- The node at the path has the new value. -/
theorem Node.at?_setValue_self (v : String) (path : List String) (node : Node) :
    (node.setValue v path).at? path = (node.at? path).map fun n => { n with value := v } := by
  induction path generalizing node with
  | nil => rfl
  | cons name path ih =>
    have hsub : (node.setValue v (name :: path)).sub_properties =
        node.sub_properties.setValue v (name :: path) := rfl
    rw [at?, hsub, Properties.setValue_child?, if_pos rfl, at?]
    cases node.sub_properties.child? name with
    | none => rfl
    | some child => exact ih child

/-- **Everything else is as it was**: of every node the library shows what it showed before, but
    for the value of the one at the path. -/
theorem Node.at?_setValue (v : String) (path : List String) (node : Node) (p : List String) :
    ((node.setValue v path).at? p).map Node.shown =
      if p = path then (node.at? path).map fun n => (v, n.shown.2)
      else (node.at? p).map Node.shown := by
  induction path generalizing node p with
  | nil =>
    cases p with
    | nil => rfl
    | cons x p => rfl
  | cons name path ih =>
    cases p with
    | nil =>
      -- a node above the path keeps its value, and its children their names
      rw [if_neg (List.cons_ne_nil name path).symm]
      show some _ = some _
      unfold Node.shown Node.setValue
      rw [if_neg (List.cons_ne_nil name path)]
      simp only [Properties.setValue_names]
    | cons x p =>
      have hsub : (node.setValue v (name :: path)).sub_properties =
          node.sub_properties.setValue v (name :: path) := rfl
      rw [at?, hsub, Properties.setValue_child?, at?, at?]
      by_cases hx : x = name
      · -- on the way to the path
        subst hx
        rw [if_pos rfl]
        cases node.sub_properties.child? x with
        | none => simp
        | some child =>
          have hrest := ih child p
          simp only [List.cons.injEq, true_and, Option.map_some, Option.bind_some]
          exact hrest
      · -- beside it
        have hne : ¬ x :: p = name :: path := fun h => hx (List.cons.inj h).1
        rw [if_neg hx, if_neg hne]

/-- The configurations differ in the value at this path and in nothing else. -/
def ChangesOnly (path : List String) (v : String) (tree tree' : Properties) : Prop :=
  ∀ p, (tree'.at? p).map Node.shown =
    if p = path then (tree.at? path).map fun n => (v, n.shown.2) else (tree.at? p).map Node.shown

/-- Setting below the root node is setting in the tree. -/
theorem Properties.setValue_root {path : List String} (h : path ≠ []) (v : String)
    (tree : Properties) : (tree.setValue v path).root = tree.root.setValue v path := by
  unfold Node.setValue
  rw [if_neg h]
  rfl

/-- **One value has changed**, and what is at every other path is as before. -/
theorem changesOnly_setValue {path : List String} (h : path ≠ []) (v : String)
    (tree : Properties) : ChangesOnly path v tree (tree.setValue v path) := by
  intro p
  unfold Properties.at?
  rw [Properties.setValue_root h]
  exact Node.at?_setValue v path tree.root p

/-- What is at the path has the new value. -/
theorem Properties.at?_setValue {path : List String} (h : path ≠ []) (v : String)
    {tree : Properties} {node : Node} (hnode : tree.at? path = some node) :
    (tree.setValue v path).at? path = some { node with value := v } := by
  unfold Properties.at? at hnode ⊢
  rw [setValue_root h, Node.at?_setValue_self, hnode]
  rfl

/-! ## The path is taken apart -/

/-- A path of two names or more is a node and a name. -/
theorem getNodeAndLeaf_property {path : List String} (hpath : path ≠ []) {name : String}
    (hname : Segment name) :
    getNodeAndLeafNamefromProperty (joined (path ++ [name])) = (joined path, name) := by
  have hchars := toList_joined_append hpath name
  have hleaf : ((joined (path ++ [name])).toList.reverse.takeWhile (· != '/')).reverse =
      name.toList := by
    rw [hchars, List.reverse_append, List.reverse_cons, List.append_assoc,
      List.takeWhile_append_of_pos]
    · simp
    · intro c hc
      have hslash : c ≠ '/' := fun heq => hname.2 (heq ▸ List.mem_reverse.mp hc)
      simpa using hslash
  unfold getNodeAndLeafNamefromProperty
  simp only
  rw [hleaf]
  have hlength : (joined (path ++ [name])).toList.length =
      (joined path).toList.length + (name.toList.length + 1) := by
    rw [hchars, List.length_append, List.length_cons]
  rw [if_neg (by omega), hlength, Nat.add_sub_cancel, hchars, List.take_left, String.ofList_toList,
    String.ofList_toList]

/-- A path of one name is a node, and the name is empty. -/
theorem getNodeAndLeaf_node {name : String} (hname : Segment name) :
    getNodeAndLeafNamefromProperty name = (name, "") := by
  have hleaf : name.toList.reverse.takeWhile (· != '/') = name.toList.reverse := by
    apply List.takeWhile_eq_self_iff.mpr
    intro c hc
    have hslash : c ≠ '/' := fun heq => hname.2 (heq ▸ List.mem_reverse.mp hc)
    simpa using hslash
  unfold getNodeAndLeafNamefromProperty
  simp only
  rw [hleaf, List.reverse_reverse, if_pos rfl]

/-! ## A library that keeps a configuration -/

/-- What is assumed of the library, for one participant: `config` is its configuration. -/
structure Stores (env : Env W) (config : W → Properties) (part : ParticipantProxy) : Prop where
  configuration : ∀ w, ∃ w', env.getConfiguration part w = (.ok (some ()), w') ∧
    config w' = config w
  serves : ∀ tree : Properties, tree.WellNamed → Serves env (config · = tree) part tree
  refuses : ∀ w path name, (config w).WellNamed → ((config w).at? path).isSome →
    (config w).at? (path ++ [name]) = none →
    ∃ e w', env.fep3 (.participant part (.getPropertyType (joined path) name)) w =
      (.error e, w') ∧ config w' = config w
  sets : ∀ w path name node v, (config w).WellNamed →
    (config w).at? (path ++ [name]) = some node →
    ∃ w', env.fep3 (.participant part (.setProperty (joined path) name v node.type)) w =
      (.ok (), w') ∧ config w' = (config w).setValue v (path ++ [name])

/-! ## Setting -/

/-- What `setParticipantProperty` does with the participant it found. -/
def setPropertyRest (action system_name participant_name property_path property_value : String)
    (part : ParticipantProxy) : Control W Bool :=
  tryCatch
    (do
      match ← part.getConfiguration with
      | some _ =>
          let (node, leaf_name) := getNodeAndLeafNamefromProperty property_path
          match ← part.getProperties node with
          | some _ =>
              let type ← part.getPropertyType node leaf_name
              part.call (.setProperty node leaf_name property_value type)
              update (useProperty participant_name property_path)
              writeNote action "property set"
              pure true
          | none =>
              let error := "participant '" ++ participant_name ++ "@" ++ system_name ++
                "' has no property" ++ node
              writeError action error .participant_error
              pure false
      | none =>
          let error := "participant '" ++ participant_name ++ "@" ++ system_name ++
            "' has no RPC configuration"
          writeError action error .participant_error
          pure false)
    fun e => do
      let exception := "cannot set property " ++ property_path ++ " for participant '" ++
        participant_name ++ "@" ++ system_name ++ "'"
      writeException action exception .participant_error e
      pure false

/-- The setter looks the participant up, and then sets. -/
theorem setParticipantProperty_eq (a s p path v : String) (last : TokenIterator) :
    (setParticipantProperty (begin_ [a, s, p, path, v]) last : Control W Bool) =
      withParticipant a s p (setPropertyRest a s p path v) := rfl

section

variable {env : Env W} {config : W → Properties} {part : ParticipantProxy} {m : Machine W}
  {a s p : String}

/-- The configuration is there, and asking for it changes nothing. -/
theorem Stores.configuration_ends (h : Stores env config part) (tree : Properties) :
    Ends env (config · = tree) (part.getConfiguration) (.ok (some ()))
      [.participant part .getConfiguration] := by
  apply Ends.fep3
  rintro w rfl
  obtain ⟨w', hreply, hconfig⟩ := h.configuration w
  exact ⟨w', hreply, hconfig⟩

/-- A property below a node is set. -/
theorem setPropertyRest_property (h : Stores env config part)
    (hnamed : (config m.world).WellNamed) {path : List String} (hpath : path ≠ [])
    {name : String} {node : Node} (hnode : (config m.world).at? (path ++ [name]) = some node)
    (v : String) :
    ∃ m', setPropertyRest a s p (joined (path ++ [name])) v part env m = (.ok true, m') ∧
      config m'.world = (config m.world).setValue v (path ++ [name]) ∧
      m'.registry = m.registry := by
  have hserves := h.serves _ hnamed
  have hsegments := (Properties.segments_of_at? hnamed hnode).1
  have hname : Segment name := hsegments name (List.mem_append_right _ List.mem_cons_self)
  obtain ⟨parent, hparent⟩ := Properties.parent_of_at? hnode
  -- the library is asked for the node and for the type of the property, and then sets it
  obtain ⟨m₁, hm₁, hw₁, hsession₁, -⟩ := (h.configuration_ends _).returned rfl
  obtain ⟨m₂, hm₂, hw₂, hsession₂, -⟩ :=
    (Ends.fep3 (hserves.properties path parent hparent)).returned hw₁
  obtain ⟨m₃, hm₃, hw₃, hsession₃, -⟩ :=
    (Ends.fep3 (hserves.type path name node hnode)).returned hw₂
  have hasked : part.getProperties (joined path) env m₁ = (.ok (some ()), m₂) := hm₂
  have htype : part.getPropertyType (joined path) name env m₂ = (.ok node.type, m₃) := hm₃
  obtain ⟨w₄, hset, hw₄⟩ := h.sets m₃.world path name node v (by rw [hw₃]; exact hnamed)
    (by rw [hw₃]; exact hnode)
  obtain ⟨m₄, hm₄, hworld₄, hsession₄⟩ : ∃ m₄, part.call
      (.setProperty (joined path) name v node.type) env m₃ = (.ok (), m₄) ∧ m₄.world = w₄ ∧
        m₄.session = m₃.session := ⟨_, Eff.bind_of_ok (fep3_ok hset) _, rfl, rfl⟩
  refine ⟨({ m₄ with session := useProperty p (joined (path ++ [name])) m₄.session }).wrote
    (.note a "property set"), ?_, ?_, ?_⟩
  · unfold setPropertyRest
    rw [Eff.tryCatch_apply, Eff.bind_of_ok hm₁]
    simp only [getNodeAndLeaf_property hpath hname]
    rw [Eff.bind_of_ok hasked]
    simp only
    rw [Eff.bind_of_ok htype, Eff.bind_of_ok hm₄]
    rfl
  · show config m₄.world = _
    rw [hworld₄, hw₄, hw₃]
  · show (useProperty p (joined (path ++ [name])) m₄.session).connected_or_discovered_systems = _
    rw [← (useProperty_lateral p _ m₄.session).2.2.2, hsession₄, hsession₃, hsession₂, hsession₁]

/-- A path without a slash is all node, and its property has no name. -/
theorem setPropertyRest_node (h : Stores env config part) (hnamed : (config m.world).WellNamed)
    {name : String} {node : Node} (hnode : (config m.world).at? [name] = some node) (v : String) :
    ∃ m', setPropertyRest a s p name v part env m = (.ok false, m') ∧
      config m'.world = config m.world ∧ m'.registry = m.registry ∧
      Answers (Plain a false) m m' := by
  have hserves := h.serves _ hnamed
  obtain ⟨hsegments, hbelow⟩ := Properties.segments_of_at? hnamed hnode
  have hname : Segment name := hsegments name List.mem_cons_self
  -- no property below the node has the empty name
  have hunnamed : (config m.world).at? ([name] ++ [""]) = none := by
    have hchild : (config m.world).at? ([name] ++ [""]) = node.sub_properties.child? "" :=
      Node.at?_child hnode ""
    rw [hchild]
    cases hempty : node.sub_properties.child? "" with
    | none => rfl
    | some child => exact absurd rfl (hbelow.child hempty).1.1
  obtain ⟨m₁, hm₁, hw₁, hsession₁, hwritten₁⟩ := (h.configuration_ends _).returned rfl
  obtain ⟨m₂, hm₂, hw₂, hsession₂, hwritten₂⟩ :=
    (Ends.fep3 (hserves.properties [name] node hnode)).returned hw₁
  obtain ⟨e, w₃, hrefused, hw₃⟩ := h.refuses m₂.world [name] "" (by rw [hw₂]; exact hnamed)
    (by rw [hw₂, hnode]; rfl) (by rw [hw₂]; exact hunnamed)
  rw [joined_singleton] at hm₂ hrefused
  have hasked : part.getProperties name env m₁ = (.ok (some ()), m₂) := hm₂
  have htype : part.getPropertyType name "" env m₂ =
      (.throws e, m₂.called (.participant part (.getPropertyType name "")) true w₃) :=
    fep3_throws hrefused
  have hthrows : (do
      let type ← part.getPropertyType name ""
      part.call (.setProperty name "" v type)
      update (useProperty p name)
      writeNote a "property set"
      pure true : Control W Bool) env m₂ = _ := Eff.bind_of_throws htype _
  obtain ⟨r, hr⟩ : ∃ r, r = Response.exception a ("cannot set property " ++ name ++
    " for participant '" ++ p ++ "@" ++ s ++ "'") .participant_error e := ⟨_, rfl⟩
  have hplain : ∀ j, Plain a false j r := by
    intro j
    rw [hr]
    exact Plain.exception a _ (by decide) e j
  refine ⟨(m₂.called (.participant part (.getPropertyType name "")) true w₃).wrote r, ?_, ?_, ?_,
    ?_⟩
  · unfold setPropertyRest
    rw [Eff.tryCatch_apply, Eff.bind_of_ok hm₁]
    simp only [getNodeAndLeaf_node hname]
    rw [Eff.bind_of_ok hasked]
    simp only
    rw [hthrows, hr]
    rfl
  · exact hw₃.trans hw₂
  · show m₂.session.connected_or_discovered_systems = _
    rw [hsession₂, hsession₁]
  · refine ⟨r, ?_, hplain _⟩
    show m₂.written ++ [⟨m₂.session.json_mode, _⟩] = _
    rw [hwritten₂, hwritten₁, hsession₂, hsession₁]

end

/-! ## Getting -/

/-- What `getParticipantProperty` does with the participant it found. -/
def getPropertyRest (action system_name participant_name property_path : String)
    (part : ParticipantProxy) : Control W Bool :=
  tryCatch
    (do
      match ← part.getConfiguration with
      | some _ => writeProperty action participant_name property_path part
      | none =>
          let error := "participant '" ++ participant_name ++ "@" ++ system_name ++
            "' has no RPC configuration"
          writeError action error .participant_error
          pure false)
    fun e => do
      let exception := "cannot get property " ++ property_path ++ " for participant '" ++
        participant_name ++ "@" ++ system_name ++ "'"
      writeException action exception .participant_error e
      pure false

/-- The getter looks the participant up, and then writes. -/
theorem getParticipantProperty_eq (a s p path : String) (last : TokenIterator) :
    (getParticipantProperty (begin_ [a, s, p, path]) last : Control W Bool) =
      withParticipant a s p (getPropertyRest a s p path) := rfl

/-- The answer of `getParticipantProperty` gives the property of this name this value: in the JSON
    object, or on the first line of the text. -/
def Reports (json_mode : Bool) (output : Output) (name v : String) : Prop :=
  if json_mode then
    ∃ document, output = [.compact document, .text "\n"] ∧
      ((document.at_ "value").at_ "participant_property").at_ "name" = .str name ∧
      ((document.at_ "value").at_ "participant_property").at_ "value" = .str v
  else ∃ below, output = [.text (Row.line ⟨0, name, v⟩ ++ below), .text "\n"]

/-- The answer of `getParticipantProperty` shows what is below a node, and nothing of the node
    itself: in the JSON object it has its path for a name, the type `node` and no value, and in the
    text it has no line. -/
def ReportsNode (json_mode : Bool) (output : Output) (path : String) (below : List Row) : Prop :=
  if json_mode then
    ∃ document property, output = [.compact document, .text "\n"] ∧
      (document.at_ "value").at_ "participant_property" = property ∧
      property.at_ "name" = .str path ∧ property.at_ "type" = .str "node" ∧
      property.at_ "value" = .str "" ∧ property.flatten = ⟨0, path, ""⟩ :: below
  else output = [.text (outline Row.line below), .text "\n"]

section

variable {env : Env W} {I : W → Prop} {part : ParticipantProxy}
  {node prop_name value type : String} {children : Properties}

/-- The JSON value of a property that is shown itself. -/
theorem formatPropertyJson_property (h : Shows env I part node prop_name value type children)
    (hnode : node ≠ "") (hprop : prop_name ≠ "") (hdeep : children.height < env.stackDepth) :
    ∃ json cs, Ends env I (formatPropertyJson part node prop_name) (.ok json) cs ∧
      json.at_ "name" = .str prop_name ∧ json.at_ "value" = .str value := by
  obtain ⟨cs, hwalk⟩ := walk_ends jsonProperty h [] .null
  rw [if_pos hdeep, foldFrom_json] at hwalk
  have hstart := startObject_isParent node prop_name value type
  have hobject : startObject node prop_name value type = propertyObject prop_name value type :=
    if_pos ⟨hnode, hprop⟩
  have hmember : ∀ key v, key ≠ "sub_properties" →
      (propertyObject prop_name value type).get? key = some v →
      (Json.appendAll (children.toJson propertyObject)
        (startObject node prop_name value type)).at_ key = v := by
    intro key v hkey hv
    unfold Json.at_
    rw [hstart.get?_appendAll _ hkey, hobject, hv]
    rfl
  refine ⟨_, cs ++ [], ?_, hmember "name" _ (by decide) rfl, hmember "value" _ (by decide) rfl⟩
  unfold formatPropertyJson
  refine hwalk.bind ?_
  rw [if_neg fun h => hnode h.1]
  exact Ends.pure _

/-- The text of a property that is shown itself. -/
theorem formatProperty_property (h : Shows env I part node prop_name value type children)
    (hnode : node ≠ "") (hprop : prop_name ≠ "") (hdeep : children.height < env.stackDepth)
    (hname : NulFree prop_name) (hvalue : NulFree value) :
    ∃ below cs, Ends env I (formatProperty part node prop_name)
      (.ok (Row.line ⟨0, prop_name, value⟩ ++ below)) cs := by
  obtain ⟨cs, hwalk⟩ := walk_ends textProperty h () ""
  rw [if_pos hdeep, foldFrom_text textProperty_line, rowsFrom, if_pos ⟨hnode, hprop⟩,
    outline_cons] at hwalk
  have hline : NulFree (Row.line ⟨0, prop_name, value⟩) := (Row.nulFree_line _).mpr ⟨hname, hvalue⟩
  have hcut : cStr (Row.line ⟨0, prop_name, value⟩ ++ outline Row.line (children.rows 1)) =
      (Row.line ⟨0, prop_name, value⟩).toList ++ cStr (outline Row.line (children.rows 1)) := by
    unfold cStr
    rw [String.toList_append, List.takeWhile_append_of_pos]
    intro c hc
    have hnul : c ≠ '\x00' := fun heq => hline (heq ▸ hc)
    simpa using hnul
  refine ⟨String.ofList (cStr (outline Row.line (children.rows 1))), cs ++ [], ?_⟩
  refine hwalk.bind ?_
  rw [hcut, String.ofList_append, String.ofList_toList]
  exact Ends.pure _

/-- The JSON value of a node: what is below it is in it, and no name. -/
theorem formatPropertyJson_node (h : Shows env I part node "" value type children)
    (hnode : node ≠ "") (hdeep : children.height < env.stackDepth) :
    ∃ json cs, Ends env I (formatPropertyJson part node "") (.ok json) cs ∧ json.IsParent ∧
      rowsOfElements 1 (json.at_ "sub_properties").elements = children.rows 1 := by
  obtain ⟨cs, hwalk⟩ := walk_ends jsonProperty h [] .null
  rw [if_pos hdeep, foldFrom_json] at hwalk
  have hstart := startObject_isParent node "" value type
  have hnull : startObject node "" value type = .null := if_neg fun h => h.2 rfl
  have hparent := hstart.appendAll (children.toJson propertyObject)
  have hunnamed : (Json.appendAll (children.toJson propertyObject)
      (startObject node "" value type)).get? "name" = none := by
    rw [hstart.get?_appendAll _ (show "name" ≠ "sub_properties" by decide), hnull]
    rfl
  have hrows := flatten_json node "" value type children
  rw [if_neg fun h => hnode h.1, hparent.flatten_unnamed hunnamed, rowsFrom,
    if_neg fun h => h.2 rfl] at hrows
  refine ⟨_, cs ++ [], ?_, hparent, hrows⟩
  unfold formatPropertyJson
  refine hwalk.bind ?_
  rw [if_neg fun h => hnode h.1]
  exact Ends.pure _

/-- The text of a node: the lines of what is below it. -/
theorem formatProperty_node (h : Shows env I part node "" value type children)
    (hdeep : children.height < env.stackDepth)
    (hnul : ∀ row ∈ children.rows 1, NulFree row.name ∧ NulFree row.value) :
    ∃ cs, Ends env I (formatProperty part node "")
      (.ok (outline Row.line (children.rows 1))) cs := by
  obtain ⟨cs, hwalk⟩ := walk_ends textProperty h () ""
  rw [if_pos hdeep, foldFrom_text textProperty_line, rowsFrom, if_neg fun h => h.2 rfl] at hwalk
  refine ⟨cs ++ [], hwalk.bind ?_⟩
  rw [(ofList_cStr _).mpr ((nulFree_outline _).mpr hnul)]
  exact Ends.pure _

/-- The members that the getter adds to the JSON value of a node. -/
theorem nodeProperty_reports {json : Json} (hparent : json.IsParent) (hnode : node ≠ "") :
    (nodeProperty node "" json).at_ "name" = .str node ∧
      (nodeProperty node "" json).at_ "type" = .str "node" ∧
      (nodeProperty node "" json).at_ "value" = .str "" ∧
      (nodeProperty node "" json).flatten =
        ⟨0, node, ""⟩ :: rowsOfElements 1 (json.at_ "sub_properties").elements := by
  have hobject₁ := Json.isObject_set "name" (.str node) json hparent.object
  have hobject₂ := Json.isObject_set "type" (.str "node") _ hobject₁
  have hadds : nodeProperty node "" json =
      ((json.set "name" (.str node)).set "type" (.str "node")).set "value" (.str "") := by
    unfold nodeProperty
    rw [if_pos ⟨.inr rfl, fun h => hnode h.1⟩, if_neg hnode]
  have hname : (nodeProperty node "" json).get? "name" = some (.str node) := by
    rw [hadds, Json.get?_set _ _ _ _ hobject₂, if_neg (by decide), Json.get?_set _ _ _ _ hobject₁,
      if_neg (by decide), Json.get?_set _ _ _ _ hparent.object, if_pos rfl]
  have hvalue : (nodeProperty node "" json).get? "value" = some (.str "") := by
    rw [hadds, Json.get?_set _ _ _ _ hobject₂, if_pos rfl]
  have htype : (nodeProperty node "" json).at_ "type" = .str "node" := by
    rw [hadds, Json.at_set _ _ _ hobject₂, if_neg (by decide), Json.at_set _ _ _ hobject₁,
      if_pos rfl]
  have hbelow : (nodeProperty node "" json).at_ "sub_properties" = json.at_ "sub_properties" := by
    rw [hadds, Json.at_set _ _ _ hobject₂, if_neg (by decide), Json.at_set _ _ _ hobject₁,
      if_neg (by decide), Json.at_set _ _ _ hparent.object, if_neg (by decide)]
  refine ⟨?_, htype, ?_, ?_⟩
  · rw [Json.at_, hname]
    rfl
  · rw [Json.at_, hvalue]
    rfl
  · rw [Json.flatten_named hname, hvalue, hbelow]
    rfl

end

section

variable {env : Env W} {config : W → Properties} {part : ParticipantProxy} {m : Machine W}
  {a s p : String}

/-- The getter succeeds if what it writes can be read. -/
theorem getPropertyRest_of_ok {path : String} {m₁ m₂ : Machine W}
    (hconf : part.getConfiguration env m = (.ok (some ()), m₁))
    (hwrites : writeProperty a p path part env m₁ = (.ok true, m₂)) :
    getPropertyRest a s p path part env m = (.ok true, m₂) := by
  unfold getPropertyRest
  rw [Eff.tryCatch_apply, Eff.bind_of_ok hconf]
  simp only
  rw [hwrites]
  rfl

/-- The answer of the getter in JSON mode. -/
theorem getPropertyRest_json (h : Stores env config part) {path node leaf_name : String}
    (hsplit : getNodeAndLeafNamefromProperty path = (node, leaf_name))
    (hmode : m.session.json_mode = true) {json : Json} {cs : List Call}
    (hends : Ends env (config · = config m.world) (formatPropertyJson part node leaf_name)
      (.ok json)
      cs) :
    ∃ m', getPropertyRest a s p path part env m = (.ok true, m') ∧
      m'.written = m.written ++ [⟨true, .output [.compact (propertyDocument a p
        "participant_property" (nodeProperty node leaf_name json)), .text "\n"]⟩] := by
  obtain ⟨m₁, hm₁, hw₁, hsession₁, hwritten₁⟩ := (h.configuration_ends _).returned rfl
  obtain ⟨m₂, hm₂, -, hsession₂, hwritten₂⟩ := hends.returned hw₁
  obtain ⟨r, hr⟩ : ∃ r, r = Response.output [.compact (propertyDocument a p "participant_property"
    (nodeProperty node leaf_name json)), .text "\n"] := ⟨_, rfl⟩
  refine ⟨{ m₂.wrote r with session := useProperty p path m₂.session },
    getPropertyRest_of_ok hm₁ ?_, ?_⟩
  · unfold writeProperty
    simp only [hsplit]
    show (if m₁.session.json_mode then _ else _ : Control W Bool) env m₁ = _
    rw [hsession₁, hmode, if_pos rfl, Eff.bind_of_ok hm₂, hr]
    rfl
  · show m₂.written ++ [⟨m₂.session.json_mode, r⟩] = _
    rw [hwritten₂, hwritten₁, hsession₂, hsession₁, hmode, hr]

/-- The answer of the getter in text mode. -/
theorem getPropertyRest_text (h : Stores env config part) {path node leaf_name : String}
    (hsplit : getNodeAndLeafNamefromProperty path = (node, leaf_name))
    (hmode : m.session.json_mode = false) {text : String} {cs : List Call}
    (hends : Ends env (config · = config m.world) (formatProperty part node leaf_name) (.ok text)
      cs) :
    ∃ m', getPropertyRest a s p path part env m = (.ok true, m') ∧
      m'.written = m.written ++ [⟨false, .output [.text text, .text "\n"]⟩] := by
  obtain ⟨m₁, hm₁, hw₁, hsession₁, hwritten₁⟩ := (h.configuration_ends _).returned rfl
  obtain ⟨m₂, hm₂, -, hsession₂, hwritten₂⟩ := hends.returned hw₁
  refine ⟨{ m₂.wrote (.output [.text text, .text "\n"]) with
    session := useProperty p path m₂.session }, getPropertyRest_of_ok hm₁ ?_, ?_⟩
  · unfold writeProperty
    simp only [hsplit]
    show (if m₁.session.json_mode then _ else _ : Control W Bool) env m₁ = _
    rw [hsession₁, hmode, if_neg Bool.false_ne_true, Eff.bind_of_ok hm₂]
    rfl
  · show m₂.written ++ [⟨m₂.session.json_mode, _⟩] = _
    rw [hwritten₂, hwritten₁, hsession₂, hsession₁, hmode]

/-- What the getter does with a property below a node. -/
theorem getPropertyRest_property (h : Stores env config part)
    (hnamed : (config m.world).WellNamed) {path : List String} (hpath : path ≠ [])
    {name : String} {node : Node} (hnode : (config m.world).at? (path ++ [name]) = some node)
    (hdeep : node.sub_properties.height < env.stackDepth)
    (hnul : m.session.json_mode = false → NulFree name ∧ NulFree node.value) :
    ∃ m' output, getPropertyRest a s p (joined (path ++ [name])) part env m = (.ok true, m') ∧
      m'.written = m.written ++ [⟨m.session.json_mode, .output output⟩] ∧
      Reports m.session.json_mode output name node.value := by
  have hexists : (Start.property path name).Exists (config m.world) node := ⟨hpath, hnode⟩
  obtain ⟨hsegments, -⟩ := hexists.segments hnamed
  have hname : Segment name := hsegments name (List.mem_append_right _ List.mem_cons_self)
  have hshows : Shows env (config · = config m.world) part (joined path) name node.value node.type
      node.sub_properties := (h.serves _ hnamed).shows hnamed hexists
  have hnonempty : joined path ≠ "" := by
    intro hempty
    exact hpath ((joined_eq_empty fun x hx => hsegments x (List.mem_append_left _ hx)).mp hempty)
  have hsplit := getNodeAndLeaf_property hpath hname
  unfold Reports
  cases hmode : m.session.json_mode with
  | true =>
    obtain ⟨json, cs, hends, hjname, hjvalue⟩ :=
      formatPropertyJson_property hshows hnonempty hname.1 hdeep
    obtain ⟨m', hrun, hwritten⟩ :=
      getPropertyRest_json h hsplit hmode hends (a := a) (s := s) (p := p)
    have hnodeProperty : nodeProperty (joined path) name json = json := by
      unfold nodeProperty
      rw [if_neg]
      rintro ⟨hempty | hempty, -⟩
      · exact hnonempty hempty
      · exact hname.1 hempty
    rw [hnodeProperty] at hwritten
    exact ⟨m', _, hrun, hwritten, (if_pos rfl).mpr ⟨_, rfl, hjname, hjvalue⟩⟩
  | false =>
    obtain ⟨hnname, hnvalue⟩ := hnul hmode
    obtain ⟨below, cs, hends⟩ :=
      formatProperty_property hshows hnonempty hname.1 hdeep hnname hnvalue
    obtain ⟨m', hrun, hwritten⟩ :=
      getPropertyRest_text h hsplit hmode hends (a := a) (s := s) (p := p)
    exact ⟨m', _, hrun, hwritten, (if_neg Bool.false_ne_true).mpr ⟨below, rfl⟩⟩

/-- What it does with a path without a slash, which is that of a node. -/
theorem getPropertyRest_node (h : Stores env config part) (hnamed : (config m.world).WellNamed)
    {name : String} {node : Node} (hnode : (config m.world).at? [name] = some node)
    (hdeep : node.sub_properties.height < env.stackDepth)
    (hnul : m.session.json_mode = false →
      ∀ row ∈ node.sub_properties.rows 1, NulFree row.name ∧ NulFree row.value) :
    ∃ m' output, getPropertyRest a s p name part env m = (.ok true, m') ∧
      m'.written = m.written ++ [⟨m.session.json_mode, .output output⟩] ∧
      ReportsNode m.session.json_mode output name (node.sub_properties.rows 1) := by
  have hexists : (Start.node [name]).Exists (config m.world) node := ⟨List.cons_ne_nil _ _, hnode⟩
  obtain ⟨hsegments, -⟩ := hexists.segments hnamed
  have hname : Segment name := hsegments name List.mem_cons_self
  have hshows := (h.serves _ hnamed).shows hnamed hexists
  have hstart : (Start.node [name]).node_ = name := joined_singleton name
  rw [hstart] at hshows
  have hsplit := getNodeAndLeaf_node hname
  unfold ReportsNode
  cases hmode : m.session.json_mode with
  | true =>
    obtain ⟨json, cs, hends, hparent, hrows⟩ := formatPropertyJson_node hshows hname.1 hdeep
    obtain ⟨m', hrun, hwritten⟩ :=
      getPropertyRest_json h hsplit hmode hends (a := a) (s := s) (p := p)
    obtain ⟨hjname, hjtype, hjvalue, hflatten⟩ := nodeProperty_reports hparent hname.1
    rw [hrows] at hflatten
    exact ⟨m', _, hrun, hwritten,
      (if_pos rfl).mpr ⟨_, _, rfl, rfl, hjname, hjtype, hjvalue, hflatten⟩⟩
  | false =>
    obtain ⟨cs, hends⟩ := formatProperty_node hshows hdeep (hnul hmode)
    obtain ⟨m', hrun, hwritten⟩ :=
      getPropertyRest_text h hsplit hmode hends (a := a) (s := s) (p := p)
    exact ⟨m', _, hrun, hwritten, (if_neg Bool.false_ne_true).mpr rfl⟩

end

/-! ## Set, then get -/

section

variable {env : Env W} {config : W → Properties} {part : ParticipantProxy} {m : Machine W}
  {s p : String}

/-- Setting the property at `path` succeeds and changes its value alone; and from then on, as long
    as the configuration is this one, getting it gives the value, in every machine that is
    `readable`. -/
def SetThenGet (env : Env W) (config : W → Properties) (part : ParticipantProxy) (m : Machine W)
    (s p : String) (path : List String) (v : String) (readable : Machine W → Prop) : Prop :=
  ∀ a last, ∃ m',
    setParticipantProperty (begin_ [a, s, p, joined path, v]) last env m = (.ok true, m') ∧
    ChangesOnly path v (config m.world) (config m'.world) ∧ Reaches env config m' s p part ∧
    ∀ m₁ : Machine W, config m₁.world = config m'.world → Reaches env config m₁ s p part →
      readable m₁ → ∀ a last, ∃ m₂ output,
        getParticipantProperty (begin_ [a, s, p, joined path]) last env m₁ = (.ok true, m₂) ∧
        m₂.written = m₁.written ++ [⟨m₁.session.json_mode, .output output⟩] ∧
        Reports m₁.session.json_mode output (path.getLast?.getD "") v

/-- The path is taken for that of a node, by both commands: setting it fails with an error, and the
    configuration is as it was; getting it shows what is below the node, in every machine that is
    `readable`. -/
def TakenForNode (env : Env W) (config : W → Properties) (part : ParticipantProxy) (m : Machine W)
    (s p : String) (path : List String) (v : String) (below : List Row)
    (readable : Machine W → Prop) : Prop :=
  ∀ a last, ∃ m',
    setParticipantProperty (begin_ [a, s, p, joined path, v]) last env m = (.ok false, m') ∧
    config m'.world = config m.world ∧ Answers (Plain a false) m m' ∧
    Reaches env config m' s p part ∧
    ∀ m₁ : Machine W, config m₁.world = config m'.world → Reaches env config m₁ s p part →
      readable m₁ → ∀ a last, ∃ m₂ output,
        getParticipantProperty (begin_ [a, s, p, joined path]) last env m₁ = (.ok true, m₂) ∧
        m₂.written = m₁.written ++ [⟨m₁.session.json_mode, .output output⟩] ∧
        ReportsNode m₁.session.json_mode output (joined path) below

/-- **A path without a slash is taken for a node**: nothing is set, and the rows below are shown. -/
theorem takenForNode (h : Stores env config part) (hreaches : Reaches env config m s p part)
    (hnamed : (config m.world).WellNamed) {name : String} {node : Node}
    (hnode : (config m.world).at? [name] = some node) (v : String) :
    TakenForNode env config part m s p [name] v (node.sub_properties.rows 1) fun m₁ =>
      node.sub_properties.height < env.stackDepth ∧ (m₁.session.json_mode = false →
        ∀ row ∈ node.sub_properties.rows 1, NulFree row.name ∧ NulFree row.value) := by
  intro a last
  rw [joined_singleton]
  obtain ⟨m₁, hm₁, hconfig, hwritten, hmodes, hagain⟩ :=
    hreaches.withParticipant a (setPropertyRest a s p name v)
  have hnamed₁ : (config m₁.world).WellNamed := hconfig.symm ▸ hnamed
  have hnode₁ : (config m₁.world).at? [name] = some node := hconfig.symm ▸ hnode
  obtain ⟨m', hm', hkept, hregistry, r, hr, hplain⟩ := setPropertyRest_node h hnamed₁ hnode₁ v
  rw [setParticipantProperty_eq]
  refine ⟨m', hm₁.trans hm', hkept.trans hconfig, ⟨r, ?_, ?_⟩, hagain m' hregistry, ?_⟩
  · rw [hr, hwritten, hmodes.json_mode]
  · rw [← hmodes.json_mode]
    exact hplain
  · -- any later session, in either mode, that sees this configuration
    intro m₂ hconfig₂ hreaches₂ hreadable a' last'
    obtain ⟨hdeep, hnul⟩ := hreadable
    obtain ⟨m₃, hm₃, hconfig₃, hwritten₃, hmodes₃, -⟩ :=
      hreaches₂.withParticipant a' (getPropertyRest a' s p name)
    have hnow : config m₃.world = config m.world := by
      rw [hconfig₃, hconfig₂, hkept, hconfig]
    rw [← hmodes₃.json_mode] at hnul
    obtain ⟨m₄, output, hm₄, hwritten₄, hreports⟩ :=
      getPropertyRest_node h (hnow.symm ▸ hnamed) (hnow.symm ▸ hnode) hdeep hnul
    rw [hmodes₃.json_mode] at hwritten₄ hreports
    rw [getParticipantProperty_eq]
    exact ⟨m₄, output, hm₃.trans hm₄, by rw [hwritten₄, hwritten₃], hreports⟩

/-- **A path with a slash**: the value is set, and shown. -/
theorem setThenGet_property (h : Stores env config part) (hreaches : Reaches env config m s p part)
    (hnamed : (config m.world).WellNamed) {path : List String} (hpath : path ≠ [])
    {name : String} {node : Node} (hnode : (config m.world).at? (path ++ [name]) = some node)
    (v : String) :
    SetThenGet env config part m s p (path ++ [name]) v fun m₁ =>
      node.sub_properties.height < env.stackDepth ∧
        (m₁.session.json_mode = false → NulFree name ∧ NulFree v) := by
  intro a last
  have hne : path ++ [name] ≠ [] := List.append_ne_nil_of_right_ne_nil _ (List.cons_ne_nil _ _)
  obtain ⟨m₁, hm₁, hconfig, -, -, hagain⟩ :=
    hreaches.withParticipant a (setPropertyRest a s p (joined (path ++ [name])) v)
  have hnamed₁ : (config m₁.world).WellNamed := hconfig.symm ▸ hnamed
  have hnode₁ : (config m₁.world).at? (path ++ [name]) = some node := hconfig.symm ▸ hnode
  obtain ⟨m', hm', hset, hregistry⟩ := setPropertyRest_property h hnamed₁ hpath hnode₁ v
  rw [setParticipantProperty_eq]
  refine ⟨m', hm₁.trans hm', ?_, hagain m' hregistry, ?_⟩
  · rw [hset, hconfig]
    exact changesOnly_setValue hne v _
  · -- any later session, in either mode, that sees this configuration
    intro m₂ hconfig₂ hreaches₂ hreadable a' last'
    obtain ⟨hdeep, hnul⟩ := hreadable
    obtain ⟨m₃, hm₃, hconfig₃, hwritten₃, hmodes₃, -⟩ :=
      hreaches₂.withParticipant a' (getPropertyRest a' s p (joined (path ++ [name])))
    have hnow : config m₃.world = (config m.world).setValue v (path ++ [name]) := by
      rw [hconfig₃, hconfig₂, hset, hconfig]
    have hnamed₃ : (config m₃.world).WellNamed := hnow.symm ▸ hnamed.setValue v _
    have hnode₃ : (config m₃.world).at? (path ++ [name]) = some { node with value := v } :=
      hnow.symm ▸ Properties.at?_setValue hne v hnode
    rw [← hmodes₃.json_mode] at hnul
    obtain ⟨m₄, output, hm₄, hwritten₄, hreports⟩ :=
      getPropertyRest_property h hnamed₃ hpath hnode₃ hdeep hnul
    rw [hmodes₃.json_mode] at hwritten₄ hreports
    have hlast : (path ++ [name]).getLast?.getD "" = name := by
      rw [List.getLast?_concat, Option.getD_some]
    rw [getParticipantProperty_eq, hlast]
    exact ⟨m₄, output, hm₃.trans hm₄, by rw [hwritten₄, hwritten₃], hreports⟩

/-- **A property below a node is set and read back; one at the top is not set.**  The setter
    succeeds on a path with two names or more, changes this value and no other, and the getter then
    reports the value: in JSON, and in text where name and value have no NUL.  A path with one name
    is the path of a node for both commands: setting it is refused, and getting it shows what is
    below the node, under the type `node`. -/
theorem setThenGet (hstores : Stores env config part) (hreaches : Reaches env config m s p part)
    (hnamed : (config m.world).WellNamed) {path : List String} (hpath : path ≠ []) {node : Node}
    (hnode : (config m.world).at? path = some node) (v : String) :
    if 2 ≤ path.length then
      SetThenGet env config part m s p path v fun m₁ =>
        node.sub_properties.height < env.stackDepth ∧
          (m₁.session.json_mode = false → NulFree (path.getLast?.getD "") ∧ NulFree v)
    else
      TakenForNode env config part m s p path v (node.sub_properties.rows 1) fun m₁ =>
        node.sub_properties.height < env.stackDepth ∧ (m₁.session.json_mode = false →
          ∀ row ∈ node.sub_properties.rows 1, NulFree row.name ∧ NulFree row.value) := by
  rcases List.eq_nil_or_concat path with rfl | ⟨init, name, rfl⟩
  · exact absurd rfl hpath
  rw [List.concat_eq_append] at hnode ⊢
  by_cases hinit : init = []
  · subst hinit
    rw [if_neg (by simp)]
    exact takenForNode hstores hreaches hnamed hnode v
  · have hlength : 2 ≤ (init ++ [name]).length := by
      have hpos := List.length_pos_iff.mpr hinit
      rw [List.length_append, List.length_singleton]
      omega
    have hlast : (init ++ [name]).getLast?.getD "" = name := by
      rw [List.getLast?_concat, Option.getD_some]
    rw [if_pos hlength, hlast]
    exact setThenGet_property hstores hreaches hnamed hinit hnode v

end

/-- The library of the examples keeps what it is given. -/
theorem storing_stores (part : ParticipantProxy) : Stores Env.storing id part where
  configuration w := ⟨w, rfl, rfl⟩
  serves tree hnamed := storing_serves hnamed part
  refuses w path name hnamed hpath hnone := by
    obtain ⟨n, hn⟩ := Option.isSome_iff_exists.mp hpath
    have hsegments : segments (joined path) = path :=
      segments_joined (Properties.segments_of_at? hnamed hn).1
    have hnone' : w.at? (segments (joined path) ++ [name]) = none := by
      rw [hsegments]
      exact hnone
    refine ⟨"unknown property", w, ?_, rfl⟩
    show (orUnknown ((w.at? (segments (joined path) ++ [name])).map Node.type), w) = _
    rw [hnone']
    rfl
  sets w path name node v hnamed hnode := by
    have hsegments : segments (joined path) = path := by
      refine segments_joined fun x hx => ?_
      exact (Properties.segments_of_at? hnamed hnode).1 x (List.mem_append_left _ hx)
    refine ⟨w.setValue v (path ++ [name]), ?_, rfl⟩
    have hnode : w.at? (path ++ [name]) = some node := hnode
    show w.store v (segments (joined path) ++ [name]) = _
    rw [hsegments, Properties.store, hnode]
    rfl

/-- A session in text mode that discovers what it is asked about, before a participant with this
    configuration. -/
def Machine.configured (tree : Properties) : Machine Properties :=
  { Machine.new false "" tree with
    session := { Session.new false with auto_discovery_of_systems := true } }

/-- Its one participant is reached through the registry. -/
theorem configured_reaches (tree : Properties) :
    Reaches Env.storing id (.configured tree) "sys" "part" ⟨"sys", "part", true⟩ :=
  ⟨⟨0, "sys", [], 0⟩, ⟨tree, .discovered (w := tree) rfl rfl rfl rfl rfl, rfl⟩,
    fun w => ⟨w, rfl, rfl⟩⟩

/-- The property `step_size` of `clock` is set to another value; `clock` itself is taken for a
    node. -/
theorem setThenGet_clock :
    (SetThenGet Env.storing id ⟨"sys", "part", true⟩ (.configured clockConfiguration) "sys" "part"
      ["clock", "step_size"] "20" fun m₁ => 1 < Env.storing.stackDepth ∧
        (m₁.session.json_mode = false → NulFree "step_size" ∧ NulFree "20")) ∧
    TakenForNode Env.storing id ⟨"sys", "part", true⟩ (.configured clockConfiguration) "sys" "part"
      ["clock"] "on" [⟨1, "step_size", "100"⟩, ⟨2, "unit", "ms"⟩] fun m₁ =>
        2 < Env.storing.stackDepth ∧ (m₁.session.json_mode = false →
          ∀ row ∈ ([⟨1, "step_size", "100"⟩, ⟨2, "unit", "ms"⟩] : List Row),
            NulFree row.name ∧ NulFree row.value) := by
  have hproperty : clockConfiguration.at? ["clock", "step_size"] =
    some ⟨"100", "int", .cons "unit" "ms" "string" .nil .nil⟩ := rfl
  have hnode : clockConfiguration.at? ["clock"] = some ⟨"", "node", .cons "step_size" "100" "int"
    (.cons "unit" "ms" "string" .nil .nil) .nil⟩ := rfl
  constructor
  · exact setThenGet (storing_stores _) (configured_reaches clockConfiguration)
      clockConfiguration_wellNamed (List.cons_ne_nil _ _) hproperty "20"
  · exact setThenGet (storing_stores _) (configured_reaches clockConfiguration)
      clockConfiguration_wellNamed (List.cons_ne_nil _ _) hnode "on"

/-- The node `clock` has a value too, but it cannot be set. -/
theorem not_setThenGet_clock :
    Stores Env.storing id ⟨"sys", "part", true⟩ ∧
      Reaches Env.storing id (.configured clockConfiguration) "sys" "part"
        ⟨"sys", "part", true⟩ ∧
      clockConfiguration.WellNamed ∧ (clockConfiguration.at? ["clock"]).isSome ∧
      ¬ SetThenGet Env.storing id ⟨"sys", "part", true⟩ (.configured clockConfiguration) "sys"
        "part" ["clock"] "on" fun _ => True := by
  refine ⟨storing_stores _, configured_reaches _, clockConfiguration_wellNamed, rfl, fun h => ?_⟩
  obtain ⟨m', hset, -⟩ := h "setParticipantProperty" (end_ [])
  have hnode : clockConfiguration.at? ["clock"] = some ⟨"", "node", .cons "step_size" "100" "int"
    (.cons "unit" "ms" "string" .nil .nil) .nil⟩ := rfl
  obtain ⟨m₁, hfails, -⟩ := takenForNode (storing_stores _) (configured_reaches clockConfiguration)
    clockConfiguration_wellNamed hnode "on" "setParticipantProperty" (end_ [])
  rw [hfails] at hset
  cases hset

end FepControl
