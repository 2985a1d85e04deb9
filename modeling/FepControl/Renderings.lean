/-
  The four renderings of a configuration.

  The properties of a participant are shown in four ways: `formatPropertyJson` and `formatProperty`
  are behind `getParticipantProperty`, with values, and `getParticipantPropertyNames` writes the
  names alone, in one mode as JSON and in the other as text.  They are four walks with four
  callbacks, and should differ in form only.

  1. **Configured** -- the library answers as a configuration tree says: a participant whose
     configuration does not change while it is rendered.

  2. **The walk** -- what `Traversal` says of a walk, in every world (`walk_always`).  A tree that
     is deeper than the stack allows is no case for the comparison: none of the four comes back.

  3. **The callbacks** -- the two that write text add a line for each row (`textProperty_line`,
     `textPropertyName_line`), the two that write JSON an object with the name and, for one of them,
     the value (`Describes`).

  4. **RenderingsAgree** -- the rows of the value that `formatPropertyJson` returns are the lines
     that `formatProperty` returns, and without their values those of both renderings of
     `getParticipantPropertyNames`.

  5. **renderingsAgree_iff** -- `formatProperty` returns what is before the first NUL, since it
     makes a string of `c_str()`.  So they agree exactly where no name and no value holds one.
-/
import FepControl.Traversal

namespace FepControl

open Lib

variable {W : Type}

/-! ## Configurations -/

/-- The call is answered with `reply` in every world. -/
def Replies (env : Env W) (c : Call) (reply : c.Reply) : Prop :=
  ∀ w, (env.fep3 c w).1 = .ok reply

/-- The library has these properties below the node at `path`, and below them what they have. -/
def Members (env : Env W) (part : ParticipantProxy) : String → Properties → Prop
  | _, .nil => True
  | path, .cons name value type sub_properties siblings =>
      name ≠ "" ∧ Replies env (.participant part (.getProperty path name)) value ∧
        Replies env (.participant part (.getPropertyType path name)) type ∧
        Replies env (.participant part (.getProperties (childPath path name))) (some ()) ∧
        Replies env (.participant part (.getPropertyNames (childPath path name)))
          sub_properties.names ∧
        Members env part (childPath path name) sub_properties ∧ Members env part path siblings

/-- The library has this tree below the node at `path`. -/
structure Served (env : Env W) (part : ParticipantProxy) (path : String) (props : Properties) :
    Prop where
  properties : Replies env (.participant part (.getProperties path)) (some ())
  names : Replies env (.participant part (.getPropertyNames path)) props.names
  members : Members env part path props

/-- The configuration that a rendering from a start node sees: the value and the type of the
    property it starts at, if it is one, and the tree below. -/
structure Configured (env : Env W) (part : ParticipantProxy) (node prop_name value type : String)
    (children : Properties) : Prop where
  configuration : Replies env (.participant part .getConfiguration) (some ())
  properties : node ≠ "" → prop_name ≠ "" →
    Replies env (.participant part (.getProperties node)) (some ())
  value : node ≠ "" → prop_name ≠ "" →
    Replies env (.participant part (.getProperty node prop_name)) value
  type : node ≠ "" → prop_name ≠ "" →
    Replies env (.participant part (.getPropertyType node prop_name)) type
  served : Served env part (startPath node prop_name) children

/-! ## The walk -/

section

variable {σ T : Type} {env : Env W} {part : ParticipantProxy}

/-- What the library always replies, it replies in every set of worlds. -/
theorem Replies.repliesIn {c : Call} {reply : c.Reply} (h : Replies env c reply) :
    RepliesIn env (fun _ => True) c reply := by
  intro w _
  have hreply := h w
  rcases hfep3 : env.fep3 c w with ⟨_ | _, w'⟩
  · rw [hfep3] at hreply; cases hreply
  · rw [hfep3] at hreply; cases hreply; exact ⟨w', rfl, trivial⟩

/-- A call that is always answered in one way. -/
theorem Replies.always {c : Call} {reply : c.Reply} (h : Replies env c reply) :
    Eff.Always env (fep3 c : Control W c.Reply) (.ok reply) := (Ends.fep3 h.repliesIn).always

/-- What is below a property, as the walk asks for it. -/
theorem Members.lists {path : String} {props : Properties} (h : Members env part path props) :
    Lists env (fun _ => True) part path props := by
  induction props generalizing path with
  | nil => trivial
  | cons name value type sub_properties siblings ih_sub ih_siblings =>
    obtain ⟨hname, hvalue, htype, hchild, hnames, hsub, hsiblings⟩ := h
    exact ⟨hname, hvalue.repliesIn, htype.repliesIn, hchild.repliesIn, hnames.repliesIn,
      ih_sub hsub, ih_siblings hsiblings⟩

/-- So the library shows the configuration from this start. -/
theorem Configured.shows {node prop_name value type : String} {children : Properties}
    (h : Configured env part node prop_name value type children) :
    Shows env (fun _ => True) part node prop_name value type children where
  properties hnode hprop := (h.properties hnode hprop).repliesIn
  value hnode hprop := (h.value hnode hprop).repliesIn
  type hnode hprop := (h.type hnode hprop).repliesIn
  own := h.served.properties.repliesIn
  names := h.served.names.repliesIn
  below := h.served.members.lists

/-- **The walk visits the configuration once, in preorder.** -/
theorem walk_always (callback : Callback σ T) {node prop_name value type : String}
    {children : Properties} (h : Configured env part node prop_name value type children)
    (user_object : T) (store : σ) :
    Eff.Always env (walk part callback node prop_name user_object store : Control W σ)
      (if children.height < env.stackDepth then
          .ok (foldFrom callback node prop_name value type children user_object store)
        else .stops .stackExhausted) := by
  obtain ⟨cs, hends⟩ := walk_ends callback h.shows user_object store
  exact hends.always

end

/-! ## What the callbacks make of the configuration -/

/-- The rows of what a rendering sees. -/
def rowsFrom (node prop_name value : String) (children : Properties) : List Row :=
  if node ≠ "" ∧ prop_name ≠ "" then ⟨0, prop_name, value⟩ :: children.rows 1 else children.rows 1

/-- A line of `formatProperty`. -/
def Row.line (row : Row) : String :=
  indentation row.depth ++ row.name ++ " : " ++ row.value ++ "\n"

/-- A line of `getParticipantPropertyNames`. -/
def Row.nameLine (row : Row) : String := indentation row.depth ++ row.name ++ "\n"

/-- A row without its value. -/
def Row.unvalued (row : Row) : Nat × String := (row.depth, row.name)

/-- **A callback that writes lines writes the outline of the rows.** -/
theorem foldFrom_text {callback : Callback String Unit} {line : Row → String}
    (hcallback : ∀ name value type depth ss,
      callback name value type depth () ss = ((), ss ++ line ⟨depth, name, value⟩))
    (node prop_name value type : String) (children : Properties) :
    foldFrom callback node prop_name value type children () "" =
      outline line (rowsFrom node prop_name value children) := by
  unfold foldFrom rowsFrom
  split
  · rw [hcallback, outline_cons]
    simp only
    rw [Properties.fold_eq_outline hcallback, String.empty_append]
  · rw [Properties.fold_eq_outline hcallback, String.empty_append]

/-- The line of a property. -/
theorem textProperty_line (name value type : String) (depth : Nat) (ss : String) :
    textProperty name value type depth () ss = ((), ss ++ Row.line ⟨depth, name, value⟩) := by
  rw [textProperty, Row.line]
  simp only [String.append_assoc]

/-- The line of a name. -/
theorem textPropertyName_line (name value type : String) (depth : Nat) (ss : String) :
    textPropertyName name value type depth () ss =
      ((), ss ++ Row.nameLine ⟨depth, name, value⟩) := by
  rw [textPropertyName, Row.nameLine]
  simp only [String.append_assoc]

/-- The object of a property in the JSON of `formatPropertyJson`. -/
def propertyObject (name value type : String) : Json := setProperty name value type .null

/-- The object of a property has its name and its value. -/
theorem propertyObject_describes : Describes propertyObject id where
  parent _ _ _ := ⟨trivial, .inl rfl⟩
  childless _ _ _ := rfl
  named _ _ _ := rfl
  valued _ _ _ := rfl

/-- The object of a property in the JSON of `getParticipantPropertyNames`. -/
def propertyNameObject (name _value type : String) : Json :=
  (Json.null.set "name" (.str name)).set "type" (.str type)

/-- The object of a name has no value. -/
theorem propertyNameObject_describes : Describes propertyNameObject fun _ => "" where
  parent _ _ _ := ⟨trivial, .inl rfl⟩
  childless _ _ _ := rfl
  named _ _ _ := rfl
  valued _ _ _ := rfl

/-- What is below a value, flattened. -/
theorem Json.IsParent.flatten_below {value : Json} (h : value.IsParent) :
    (value.at_ "sub_properties").flatten =
      rowsOfElements 1 (value.at_ "sub_properties").elements := by
  rcases h.below with hnull | ⟨es, harr⟩
  · rw [hnull]
    simp only [Json.flatten, rowsBelow, Json.elements, rowsOfElements]
  · rw [harr]
    simp only [Json.flatten, rowsBelow, Json.elements]

/-- The rows of an object with a name: its own, and those below. -/
theorem Json.flatten_named {value name : Json} (h : value.get? "name" = some name) :
    value.flatten = ⟨0, textOf (some name), textOf (value.get? "value")⟩ ::
      rowsOfElements 1 (value.at_ "sub_properties").elements := by
  have hrows := rowsOf_eq h 0
  cases value with
  | obj members =>
    have hname : members.lookup "name" = some name := h
    rw [rowsOf, hname] at hrows
    rw [Json.flatten, hname]
    exact hrows
  | null | bool | int | real | str | arr => cases h

/-- An object without a name, which the walk starts with at the root, has those below. -/
theorem Json.IsParent.flatten_unnamed {value : Json} (hparent : value.IsParent)
    (h : value.get? "name" = none) :
    value.flatten = rowsOfElements 1 (value.at_ "sub_properties").elements := by
  rw [← hparent.flatten_below]
  cases value with
  | obj members =>
    have hname : members.lookup "name" = none := h
    rw [Json.flatten, hname]
    simp only [List.nil_append]
    rw [Json.rowsOfMembers_eq]
    rcases hparent.below with hnull | ⟨es, harr⟩
    · rw [hnull]; simp only [Json.flatten]
    · rw [harr]; simp only [Json.flatten]
  | null => rfl
  | bool | int | real | str | arr => exact hparent.object.elim

/-- The value that `formatPropertyJson` starts with, once the start node is visited. -/
def startObject (node prop_name value type : String) : Json :=
  if node ≠ "" ∧ prop_name ≠ "" then propertyObject prop_name value type else .null

/-- The properties below the start are appended to it. -/
theorem startObject_isParent (node prop_name value type : String) :
    (startObject node prop_name value type).IsParent := by
  unfold startObject
  split
  · exact propertyObject_describes.parent _ _ _
  · exact ⟨trivial, .inl rfl⟩

/-- **The callback for JSON builds the tree** below the object of the start. -/
theorem foldFrom_json (node prop_name value type : String) (children : Properties) :
    foldFrom jsonProperty node prop_name value type children [] .null =
      Json.appendAll (children.toJson propertyObject) (startObject node prop_name value type) := by
  have hcallback : ∀ name value type depth parent root, depth ≠ 0 →
      jsonProperty name value type depth parent root =
        appendSubProperty (propertyObject name value type) parent root := by
    intro name value type depth parent root hdepth
    rw [jsonProperty, if_neg hdepth, propertyObject]
  have hchildren := fun start hstart => children.fold_eq_appendAt propertyObject_describes hcallback
    [] 1 start Nat.one_ne_zero trivial hstart
  have hparent := startObject_isParent node prop_name value type
  unfold foldFrom startObject at *
  split
  · rename_i hstart
    rw [if_pos hstart] at hparent
    exact (hchildren _ hparent).trans (Json.appendAt_nil _ _)
  · rename_i hstart
    rw [if_neg hstart] at hparent
    exact (hchildren _ hparent).trans (Json.appendAt_nil _ _)

/-- **The flattening of the JSON value** gives the rows of what was rendered. -/
theorem flatten_json (node prop_name value type : String) (children : Properties) :
    (if node = "" ∧ prop_name = "" then
      (Json.appendAll (children.toJson propertyObject)
        (startObject node prop_name value type)).at_ "sub_properties"
      else Json.appendAll (children.toJson propertyObject)
        (startObject node prop_name value type)).flatten =
      rowsFrom node prop_name value children := by
  have hstart := startObject_isParent node prop_name value type
  have hparent := hstart.appendAll (children.toJson propertyObject)
  -- below the start there is one element for each child, whichever object the start is
  have hrows : rowsOfElements 1 ((Json.appendAll (children.toJson propertyObject)
      (startObject node prop_name value type)).at_ "sub_properties").elements =
        children.rows 1 := by
    have hnothing : ((startObject node prop_name value type).at_ "sub_properties").elements =
        [] := by
      unfold startObject
      split
      · exact propertyObject_describes.childless _ _ _
      · rfl
    rw [hstart.elements_appendAll, hnothing, List.nil_append,
      children.rowsOfElements_toJson propertyObject_describes]
    exact List.map_id _
  have hname := hstart.get?_appendAll (children.toJson propertyObject)
    (show "name" ≠ "sub_properties" by decide)
  have hvalue := hstart.get?_appendAll (children.toJson propertyObject)
    (show "value" ≠ "sub_properties" by decide)
  unfold rowsFrom
  by_cases hvisited : node ≠ "" ∧ prop_name ≠ ""
  · -- the start is a property itself: its row comes first
    rw [if_neg fun h => hvisited.1 h.1, if_pos hvisited]
    unfold startObject at hname hvalue
    rw [if_pos hvisited] at hname hvalue
    unfold startObject at hrows ⊢
    rw [if_pos hvisited] at hrows ⊢
    rw [Json.flatten_named (hname.trans (propertyObject_describes.named _ _ _)), hvalue,
      propertyObject_describes.valued, hrows]
    rfl
  · rw [if_neg hvisited]
    -- the start was not visited: only what is below it is rendered
    have hunnamed : (startObject node prop_name value type).get? "name" = none := by
      unfold startObject
      rw [if_neg hvisited]
      rfl
    split
    · rw [hparent.flatten_below, hrows]
    · rw [hparent.flatten_unnamed (hname.trans hunnamed), hrows]

/-! ## The renderings -/

section

variable {env : Env W} {part : ParticipantProxy} {node prop_name value type : String}
  {children : Properties}

/-- What `formatPropertyJson` returns, in every world. -/
theorem formatPropertyJson_always (h : Configured env part node prop_name value type children) :
    ∃ json, json.flatten = rowsFrom node prop_name value children ∧
      Eff.Always env (formatPropertyJson part node prop_name : Control W Json)
        (if children.height < env.stackDepth then .ok json else .stops .stackExhausted) := by
  refine ⟨_, flatten_json node prop_name value type children, ?_⟩
  refine (walk_always jsonProperty h [] .null).bind_if ?_
  rw [foldFrom_json]
  split
  · exact Eff.Always.pure _ _
  · exact Eff.Always.pure _ _

/-- What `formatProperty` returns, in every world. -/
theorem formatProperty_always (h : Configured env part node prop_name value type children) :
    Eff.Always env (formatProperty part node prop_name : Control W String)
      (if children.height < env.stackDepth then
          .ok (String.ofList (cStr (outline Row.line (rowsFrom node prop_name value children))))
        else .stops .stackExhausted) := by
  refine (walk_always textProperty h () "").bind_if ?_
  rw [foldFrom_text textProperty_line]
  exact Eff.Always.pure _ _

/-- A silent computation that returns a known value. -/
theorem Quiet.ok {α : Type} {c : Control W α} {D : Stop → Prop} {a : α} (hquiet : Quiet D c)
    (h : Eff.Always env c (.ok a)) (m : Machine W) : ∃ m', c env m = (.ok a, m') ∧ Silent m m' := by
  obtain ⟨m', hm'⟩ := h.eq m
  exact ⟨m', hm', Eff.wp_ok (hquiet env m) hm'⟩

/-- What `getParticipantPropertyNames` writes lists these rows without their values. -/
def ListsNames (json_mode : Bool) (output : Output) (rows : List Row) : Prop :=
  if json_mode then
    ∃ document, output = [.compact document, .text "\n"] ∧
      ((document.at_ "value").at_ "participant_properties").flatten.map Row.unvalued =
        rows.map Row.unvalued
  else
    output =
      [.text "property names :", .text "\n", .text (outline Row.nameLine rows), .text "\n"]

/-- What is written of the names, in the mode of the session. -/
theorem writePropertyNames_ok (h : Configured env part "" "" value type children)
    (hdeep : children.height < env.stackDepth) (a p : String) (m : Machine W) :
    ∃ m' output, writePropertyNames a p part env m = (.ok (), m') ∧
      m'.written = m.written ++ [⟨m.session.json_mode, .output output⟩] ∧
      ListsNames m.session.json_mode output (children.rows 1) := by
  have hstart : ¬ ("" ≠ "" ∧ "" ≠ "") := fun h => h.1 rfl
  unfold ListsNames
  cases hmode : m.session.json_mode with
  | true =>
    -- the document is filled from `null`, by the visits below the root only
    have hnull : Json.null.IsParent := ⟨trivial, .inl rfl⟩
    have hfold : children.fold jsonPropertyName [] 1 .null =
        Json.appendAll (children.toJson propertyNameObject) .null :=
      children.fold_eq_appendAt propertyNameObject_describes (fun _ _ _ _ _ _ _ => rfl) [] 1
        .null Nat.one_ne_zero trivial hnull
    have hwalk := walk_always jsonPropertyName h [] .null
    rw [if_pos hdeep, foldFrom, if_neg hstart, hfold] at hwalk
    obtain ⟨m₁, hm₁, hsilent⟩ := (Quiet.walk part jsonPropertyName "" "" [] .null).ok hwalk m
    obtain ⟨document, hdocument⟩ : ∃ document, document =
        propertyDocument a p "participant_properties"
          ((Json.appendAll (children.toJson propertyNameObject) .null).at_ "sub_properties") :=
      ⟨_, rfl⟩
    have hlisted : (document.at_ "value").at_ "participant_properties" =
        (Json.appendAll (children.toJson propertyNameObject) .null).at_ "sub_properties" := by
      rw [hdocument]
      rfl
    refine ⟨m₁.wrote (.output [.compact document, .text "\n"]),
      [.compact document, .text "\n"], ?_, ?_, ?_⟩
    · show (if m.session.json_mode then _ else _ : Control W Unit) env m = _
      rw [hmode, if_pos rfl, Eff.bind_of_ok hm₁, hdocument]
      rfl
    · show m₁.written ++ [⟨m₁.session.json_mode, _⟩] = _
      rw [hsilent.written, hsilent.json_mode, hmode]
    · rw [if_pos rfl]
      refine ⟨document, rfl, ?_⟩
      -- names only: the rows are compared without their values
      rw [hlisted, (hnull.appendAll _).flatten_below, hnull.elements_appendAll]
      show (rowsOfElements 1 (children.toJson propertyNameObject)).map Row.unvalued = _
      rw [children.rowsOfElements_toJson propertyNameObject_describes, List.map_map]
      rfl
  | false =>
    have hwalk := walk_always textPropertyName h () ""
    rw [if_pos hdeep, foldFrom_text textPropertyName_line, rowsFrom, if_neg hstart] at hwalk
    obtain ⟨m₁, hm₁, hsilent⟩ := (Quiet.walk part textPropertyName "" "" () "").ok hwalk m
    refine ⟨m₁.wrote (.output [.text "property names :", .text "\n",
      .text (outline Row.nameLine (children.rows 1)), .text "\n"]),
      [.text "property names :", .text "\n", .text (outline Row.nameLine (children.rows 1)),
        .text "\n"], ?_, ?_, ?_⟩
    · show (if m.session.json_mode then _ else _ : Control W Unit) env m = _
      rw [hmode, if_neg Bool.false_ne_true, Eff.bind_of_ok hm₁]
      rfl
    · show m₁.written ++ [⟨m₁.session.json_mode, _⟩] = _
      rw [hsilent.written, hsilent.json_mode, hmode]
    · rw [if_neg Bool.false_ne_true]

/-- The same behind the lookup of the participant. -/
theorem getParticipantPropertyNames_ok (h : Configured env part "" "" value type children)
    (hdeep : children.height < env.stackDepth) (a : String) {s p : String} (last : TokenIterator)
    {m : Machine W} {w : W} (hfinds : FindsParticipant env m s p part w) :
    ∃ m' output, getParticipantPropertyNames (begin_ [a, s, p]) last env m = (.ok true, m') ∧
      m'.written = m.written ++ [⟨m.session.json_mode, .output output⟩] ∧
      ListsNames m.session.json_mode output (children.rows 1) := by
  have hwp : (getParticipantPropertyNames (begin_ [a, s, p]) last).wp env
      ⟨fun b m' => b = true ∧ ∃ output,
          m'.written = m.written ++ [⟨m.session.json_mode, .output output⟩] ∧
          ListsNames m.session.json_mode output (children.rows 1),
        fun _ _ => False, fun _ _ => False⟩ m := by
    rw [getParticipantPropertyNames_eq]
    refine withParticipant_wp (fun m' h' => absurd hfinds (h'.missing part w))
      (fun part' m' h' => ?_) (fun _ _ _ hthrows => ?_)
    · obtain ⟨rfl, -⟩ := hfinds.unique h'.finds
      obtain ⟨m₁, hm₁, hsilent⟩ := (Quiet.fep3 (D := Benign) _).ok h.configuration.always m'
      obtain ⟨m₂, output, hm₂, hwritten, hlists⟩ := writePropertyNames_ok h hdeep a p m₁
      -- finding the participant wrote nothing and kept the mode
      have hmode : m₁.session.json_mode = m.session.json_mode :=
        hsilent.json_mode.trans h'.modes.json_mode
      rw [hmode] at hwritten hlists
      rw [hsilent.written, h'.written] at hwritten
      have hbody : propertyNamesRest a s p part' env m' = (.ok true, m₂) := by
        have hconf : part'.getConfiguration env m' = (.ok (some ()), m₁) := hm₁
        unfold propertyNamesRest
        rw [Eff.tryCatch_apply, Eff.bind_of_ok hconf]
        show Eff.orElse _ env ((writePropertyNames a p part' >>= fun _ => pure true) env m₁) = _
        rw [Eff.bind_of_ok hm₂]
        rfl
      unfold Eff.wp
      rw [hbody]
      exact ⟨rfl, output, hwritten, hlists⟩
    · obtain ⟨_, _, hfound, -⟩ := hfinds
      exact hfound.not_throws hthrows
  unfold Eff.wp at hwp
  generalize getParticipantPropertyNames (begin_ [a, s, p]) last env m = x at hwp ⊢
  rcases x with ⟨b | e | d, m'⟩
  · obtain ⟨rfl, output, hwritten, hlists⟩ := hwp
    exact ⟨m', output, rfl, hwritten, hlists⟩
  · exact hwp.elim
  · exact hwp.elim

end

/-! ## Strings without NUL -/

/-- A string is free of NULs if its parts are. -/
theorem nulFree_append (s t : String) : NulFree (s ++ t) ↔ NulFree s ∧ NulFree t := by
  unfold NulFree
  rw [String.toList_append, List.mem_append, not_or]

/-- Indentation is. -/
theorem nulFree_indentation (depth : Nat) : NulFree (indentation depth) := by
  unfold NulFree indentation
  rw [String.toList_ofList]
  intro h
  exact absurd (List.eq_of_mem_replicate h) (by decide)

/-- A line is if its name and its value are. -/
theorem Row.nulFree_line (row : Row) : NulFree row.line ↔ NulFree row.name ∧ NulFree row.value := by
  have hcolon : NulFree " : " := by decide
  have hnewline : NulFree "\n" := by decide
  unfold Row.line
  simp only [nulFree_append, nulFree_indentation, hcolon, hnewline, true_and, and_true]

/-- An outline is if its rows are. -/
theorem nulFree_outline (rows : List Row) :
    NulFree (outline Row.line rows) ↔ ∀ row ∈ rows, NulFree row.name ∧ NulFree row.value := by
  induction rows with
  | nil => exact iff_of_true (by decide) (fun _ h => absurd h List.not_mem_nil)
  | cons row rows ih =>
    rw [outline_cons, nulFree_append, ih, row.nulFree_line, List.forall_mem_cons]

/-- A string survives the way through a C string if it holds no NUL. -/
theorem ofList_cStr (s : String) : String.ofList (cStr s) = s ↔ NulFree s := by
  constructor
  · intro h hnul
    have hcut : cStr s = s.toList := by
      rw [← String.toList_ofList (l := cStr s), h]
    have hall := List.all_eq_true.mp (List.all_takeWhile (l := s.toList) (p := (· != '\x00')))
    exact absurd (hall _ (hcut ▸ hnul)) (by decide)
  · intro h
    rw [cStr_of_nulFree h, String.ofList_toList]

/-! ## The renderings agree -/

/-- From `m`, every rendering from the start node lists these rows: `formatProperty` writes a line
    for each, and from the root so does `getParticipantPropertyNames`, without the values, whatever
    system and participant it is asked for that it finds `part` under. -/
structure Listed (env : Env W) (m : Machine W) (part : ParticipantProxy) (node prop_name : String)
    (rows : List Row) : Prop where
  text : ∃ m', formatProperty part node prop_name env m = (.ok (outline Row.line rows), m')
  names : node = "" → prop_name = "" → ∀ a s p last w, FindsParticipant env m s p part w →
    ∃ m' output, getParticipantPropertyNames (begin_ [a, s, p]) last env m = (.ok true, m') ∧
      m'.written = m.written ++ [⟨m.session.json_mode, .output output⟩] ∧
      ListsNames m.session.json_mode output rows

/-- **All renderings describe the same tree**: the rows of the JSON value are those of the other
    renderings. -/
def RenderingsAgree (env : Env W) (m : Machine W) (part : ParticipantProxy)
    (node prop_name : String) : Prop :=
  ∃ json m', formatPropertyJson part node prop_name env m = (.ok json, m') ∧
    Listed env m part node prop_name json.flatten

section

variable {env : Env W} {part : ParticipantProxy} {node prop_name value type : String}
  {children : Properties}

/-- Renderings that agree have returned, and what they return has come through a C string. -/
theorem RenderingsAgree.nulFree {m : Machine W}
    (hagree : RenderingsAgree env m part node prop_name)
    (h : Configured env part node prop_name value type children) :
    children.height < env.stackDepth ∧
      ∀ row ∈ rowsFrom node prop_name value children, NulFree row.name ∧ NulFree row.value := by
  obtain ⟨json, m', hjson, ⟨m'', htext⟩, -⟩ := hagree
  obtain ⟨json', hflatten, hrendered⟩ := formatPropertyJson_always h
  have hwritten := formatProperty_always h m
  have hrendered := hrendered m
  rw [hjson] at hrendered
  rw [htext] at hwritten
  by_cases hdeep : children.height < env.stackDepth
  · rw [if_pos hdeep] at hrendered hwritten
    obtain rfl := Outcome.ok.inj hrendered
    have hcut := Outcome.ok.inj hwritten
    rw [hflatten] at hcut
    exact ⟨hdeep, (nulFree_outline _).mp ((ofList_cStr _).mp hcut.symm)⟩
  · rw [if_neg hdeep] at hrendered
    cases hrendered

/-- **Without a NUL the renderings agree.** -/
theorem RenderingsAgree.of_nulFree (h : Configured env part node prop_name value type children)
    (hdeep : children.height < env.stackDepth)
    (hnul : ∀ row ∈ rowsFrom node prop_name value children, NulFree row.name ∧ NulFree row.value)
    (m : Machine W) : RenderingsAgree env m part node prop_name := by
  obtain ⟨json, hflatten, hrendered⟩ := formatPropertyJson_always h
  have hwritten := formatProperty_always h
  rw [if_pos hdeep] at hrendered hwritten
  rw [(ofList_cStr _).mpr ((nulFree_outline _).mpr hnul), ← hflatten] at hwritten
  obtain ⟨m', hjson⟩ := hrendered.eq m
  refine ⟨json, m', hjson, hwritten.eq m, ?_⟩
  rintro rfl rfl a s p last w hfinds
  rw [hflatten, rowsFrom, if_neg fun h => h.1 rfl]
  exact getParticipantPropertyNames_ok h hdeep a last hfinds

/-- **The renderings of a configuration agree exactly where the stack is deep enough for it and no
    name and no value in it holds a NUL**: `formatProperty` makes its result from a C string. -/
theorem renderingsAgree_iff (h : Configured env part node prop_name value type children)
    (m : Machine W) : RenderingsAgree env m part node prop_name ↔
      children.height < env.stackDepth ∧
        ∀ row ∈ rowsFrom node prop_name value children, NulFree row.name ∧ NulFree row.value :=
  ⟨fun hagree => hagree.nulFree h, fun ⟨hdeep, hnul⟩ => .of_nulFree h hdeep hnul m⟩

end

/-- A library whose participants have these properties; their values depend on the name only. -/
def Env.configured (names : String → List String) (values : String → String) : Env Unit :=
  { Env.answering with fep3 := fun
      | .participant _ (.getPropertyNames node), w => (.ok (names node), w)
      | .participant _ (.getProperty _ name), w => (.ok (values name), w)
      | c, w => (c.reply, w) }

/-- The names of a configuration with a node `clock` and a property `step_size` below it. -/
def clockNames (node : String) : List String :=
  if node = "" then ["clock"] else if node = "clock" then ["step_size"] else []

/-- The same configuration as a tree. -/
def clockTree (values : String → String) : Properties :=
  .cons "clock" (values "clock") "" (.cons "step_size" (values "step_size") "" .nil .nil) .nil

/-- The clock is configured so, whatever its values are. -/
theorem configured_clock (values : String → String) (part : ParticipantProxy) :
    Configured (Env.configured clockNames values) part "" "" "" "" (clockTree values) where
  configuration _ := rfl
  properties h := absurd rfl h
  value h := absurd rfl h
  type h := absurd rfl h
  served := by
    have hclock : childPath (startPath "" "") "clock" = "clock" := by decide
    have hstep_size : childPath "clock" "step_size" = "clock/step_size" := by decide
    refine ⟨fun _ => rfl, fun _ => rfl, ?_⟩
    unfold clockTree Members
    rw [hclock]
    refine ⟨by decide, fun _ => rfl, fun _ => rfl, fun _ => rfl, fun _ => rfl, ?_, trivial⟩
    unfold Members
    rw [hstep_size]
    exact ⟨by decide, fun _ => rfl, fun _ => rfl, fun _ => rfl, fun _ => rfl, trivial, trivial⟩

/-- A session that discovers what it is asked about. -/
def Machine.discovering (json_mode : Bool) : Machine Unit :=
  { Machine.new json_mode "" () with
    session := { Session.new json_mode with auto_discovery_of_systems := true } }

/-- A configuration without NUL, of a participant that the command finds. -/
theorem renderingsAgree_clock :
    FindsParticipant (Env.configured clockNames id) (.discovering true) "sys" "part"
        ⟨"sys", "part", true⟩ () ∧
      RenderingsAgree (Env.configured clockNames id) (.discovering true) ⟨"sys", "part", true⟩
        "" "" :=
  ⟨⟨⟨0, "sys", [], 0⟩, (), .discovered (w := ()) rfl rfl rfl rfl rfl, rfl⟩,
    (renderingsAgree_iff (configured_clock id _) _).mpr ⟨by decide, by decide⟩⟩

/-- A value that starts with a NUL: the JSON value has it, and the text ends before it. -/
theorem not_renderingsAgree :
    Configured (Env.configured clockNames fun _ => "\x00") ⟨"sys", "part", true⟩ "" "" "" ""
        (clockTree fun _ => "\x00") ∧
      ¬ RenderingsAgree (Env.configured clockNames fun _ => "\x00") (.discovering true)
        ⟨"sys", "part", true⟩ "" "" := by
  refine ⟨configured_clock _ _, fun hagree => ?_⟩
  obtain ⟨-, hnul⟩ := hagree.nulFree (configured_clock _ _)
  exact absurd hnul (by decide)

end FepControl
