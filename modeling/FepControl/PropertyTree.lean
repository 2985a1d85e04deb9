/-
  Configuration trees.

  A configuration is a tree of properties, and the tool shows it as JSON or as indented text.  All
  of its renderings come from one walk, `traverseProperties`, with different callbacks: a callback
  is given a property and what the call for its parent has returned, and adds to a result.  The
  trees here are the common meaning of these renderings.

  1. **Properties** -- the properties below a node of a configuration, in the order in which the
     library names them.  `rows` lists them in preorder: a line of an outline is a depth, a name and
     a value.

  2. **fold** -- what a callback of `traverseProperties` makes of the properties below a node.  It
     is a recursion over the tree, and so is the induction about every callback.

  3. **JSON** -- the callbacks that write JSON append every property to `sub_properties` of its
     parent, which they find through a pointer.  A pointer is modelled by the list of indices that
     leads from the root to the value (`follow`, `HasPath`), and appending behind it by `modifyAt`.
     The walk appends at the end of the value that it has written last, so appending one by one is
     appending whole subtrees (`Properties.fold_eq_appendAt`).  The nested value that comes out has
     the same rows (`rowsOfElements_toJson`).

  4. **Text** -- the callbacks that write text add one line for each property, so what they write is
     the outline of the rows (`Properties.fold_eq_outline`).
-/
import FepControl.Commands.Property

namespace FepControl

open Lib

/-! ## Trees -/

/-- The properties below a node: a first one with what is below it, and the others. -/
inductive Properties where
  | nil
  | cons (name value type : String) (sub_properties siblings : Properties)

/-- A line of an outline. -/
structure Row where
  depth : Nat
  name : String
  value : String
  deriving DecidableEq, Repr

namespace Properties

/-- What `getPropertyNames` answers at the node. -/
def names : Properties → List String
  | nil => []
  | cons name _ _ _ siblings => name :: siblings.names

/-- How deep the properties lie. -/
def height : Properties → Nat
  | nil => 0
  | cons _ _ _ sub_properties siblings => max (sub_properties.height + 1) siblings.height

/-- The properties in preorder, those at the node at this depth. -/
def rows : Nat → Properties → List Row
  | _, nil => []
  | depth, cons name value _ sub_properties siblings =>
      ⟨depth, name, value⟩ :: (sub_properties.rows (depth + 1) ++ siblings.rows depth)

/-- The callback for every property, in preorder; the user object is that of the parent. -/
def fold {σ T : Type} (callback : Callback σ T) : T → Nat → Properties → σ → σ
  | _, _, nil, store => store
  | user_object, depth, cons name value type sub_properties siblings, store =>
      let visited := callback name value type depth user_object store
      siblings.fold callback user_object depth
        (sub_properties.fold callback visited.1 (depth + 1) visited.2)

end Properties

/-! ## Rows of a JSON value -/

/-- The text of a member. -/
def textOf : Option Json → String
  | some (.str text) => text
  | _ => ""

mutual

/-- The rows of a property. -/
def rowsOf (depth : Nat) : Json → List Row
  | .obj members =>
      ⟨depth, textOf (members.lookup "name"), textOf (members.lookup "value")⟩ ::
        rowsOfMembers (depth + 1) members
  | _ => []

/-- The rows of the properties in `sub_properties`. -/
def rowsOfMembers (depth : Nat) : List (String × Json) → List Row
  | [] => []
  | (key, value) :: members =>
      if key = "sub_properties" then rowsBelow depth value else rowsOfMembers depth members

/-- The rows of an array of properties. -/
def rowsBelow (depth : Nat) : Json → List Row
  | .arr elements => rowsOfElements depth elements
  | _ => []

/-- The rows of the values of an array. -/
def rowsOfElements (depth : Nat) : List Json → List Row
  | [] => []
  | value :: elements => rowsOf depth value ++ rowsOfElements depth elements

end

/-- **The flattening of a rendered property**: of an array, the rows of its properties; of an
    object, its own row, if it has a name, and the rows of its `sub_properties`. -/
def Json.flatten : Json → List Row
  | .obj members =>
      (match members.lookup "name" with
        | some name => [⟨0, textOf (some name), textOf (members.lookup "value")⟩]
        | none => []) ++ rowsOfMembers 1 members
  | value => rowsBelow 1 value

/-! ## Values with `sub_properties` -/

namespace Json

/-- Only the member `sub_properties` has rows. -/
theorem rowsOfMembers_eq (depth : Nat) (members : List (String × Json)) :
    rowsOfMembers depth members = rowsBelow depth ((Json.obj members).at_ "sub_properties") := by
  induction members with
  | nil => rfl
  | cons member members ih =>
    obtain ⟨key, value⟩ := member
    unfold at_ get? at ih ⊢
    simp only at ih ⊢
    rw [rowsOfMembers, Assoc.lookup_cons]
    by_cases hkey : key = "sub_properties"
    · rw [if_pos hkey, if_pos hkey.symm]
      rfl
    · rw [if_neg hkey, if_neg (Ne.symm hkey), ih]

/-- The elements of an array. -/
def elements : Json → List Json
  | .arr elements => elements
  | _ => []

/-- A value that properties can be put below. -/
structure IsParent (value : Json) : Prop where
  object : value.IsObject
  below : value.at_ "sub_properties" = .null ∨ ∃ es, value.at_ "sub_properties" = .arr es

/-- `value["sub_properties"].append(prop)`. -/
def appendBelow (value prop : Json) : Json :=
  value.set "sub_properties" ((value.at_ "sub_properties").append prop)

/-- Setting a member changes this member alone. -/
theorem at_set (key k : String) (v : Json) {value : Json} (h : value.IsObject) :
    (value.set key v).at_ k = if k = key then v else value.at_ k := by
  unfold at_
  rw [get?_set key k v value h]
  split
  · rfl
  · rfl

/-- What has an array as a member is an object. -/
theorem isObject_of_at {value : Json} {key : String} {es : List Json}
    (h : value.at_ key = .arr es) : value.IsObject := by
  cases value with
  | obj members => trivial
  | null => trivial
  | bool | int | real | str | arr => cases h

/-- A member that is set twice. -/
theorem set_set (key : String) (v v' : Json) {value : Json} (h : value.IsObject) :
    (value.set key v).set key v' = value.set key v' := by
  have hassign : ∀ members : List (String × Json),
      Assoc.assign key v' (Assoc.assign key v members) = Assoc.assign key v' members := by
    intro members
    induction members with
    | nil => simp [Assoc.assign]
    | cons member members ih =>
      obtain ⟨k, w⟩ := member
      rw [Assoc.assign, Assoc.assign]
      split
      · rw [Assoc.assign, if_pos rfl]
      · rename_i hne
        split
        · rw [Assoc.assign, if_pos rfl]
        · rename_i hlt
          rw [Assoc.assign, if_neg hne, if_neg hlt, ih]
  cases value with
  | null => exact congrArg Json.obj (hassign [])
  | obj members => exact congrArg Json.obj (hassign members)
  | bool | int | real | str | arr => exact h.elim

/-- Appending to the array. -/
theorem IsParent.append {value : Json} (h : value.IsParent) (prop : Json) :
    (value.at_ "sub_properties").append prop =
      .arr ((value.at_ "sub_properties").elements ++ [prop]) := by
  rcases h.below with hnull | ⟨es, harr⟩
  · rw [hnull]
    rfl
  · rw [harr]
    rfl

/-- The array has one element more. -/
theorem IsParent.at_appendBelow {value : Json} (h : value.IsParent) (prop : Json) :
    (value.appendBelow prop).at_ "sub_properties" =
      .arr ((value.at_ "sub_properties").elements ++ [prop]) := by
  rw [appendBelow, at_set _ _ _ h.object, if_pos rfl, h.append]

/-- What has been appended to can be appended to. -/
theorem IsParent.appendBelow {value : Json} (h : value.IsParent) (prop : Json) :
    (value.appendBelow prop).IsParent :=
  ⟨isObject_set _ _ _ h.object, .inr ⟨_, h.at_appendBelow prop⟩⟩

/-- Appending leaves the other members alone. -/
theorem IsParent.get?_appendBelow {value : Json} (h : value.IsParent) (prop : Json) {key : String}
    (hkey : key ≠ "sub_properties") : (value.appendBelow prop).get? key = value.get? key := by
  rw [Json.appendBelow, get?_set _ _ _ _ h.object, if_neg hkey]

/-! ## Pointers -/

/-- The pointer leads somewhere. -/
def HasPath : List Nat → Json → Prop
  | [], _ => True
  | i :: path, value => ∃ es e, value.at_ "sub_properties" = .arr es ∧ es[i]? = some e ∧
      HasPath path e

/-- The first index of a pointer leads to an element. -/
theorem follow_cons {i : Nat} {path : List Nat} {value e : Json} {es : List Json}
    (hes : value.at_ "sub_properties" = .arr es) (he : es[i]? = some e) :
    follow (i :: path) value = follow path e := by
  rw [follow, hes]
  simp only
  rw [List.getD_eq_getElem?_getD, he]
  rfl

/-- A pointer in two parts leads somewhere if both do. -/
theorem hasPath_append (path path' : List Nat) (value : Json) :
    HasPath (path ++ path') value ↔ HasPath path value ∧ HasPath path' (follow path value) := by
  induction path generalizing value with
  | nil => exact ⟨fun h => ⟨trivial, h⟩, fun h => h.2⟩
  | cons i path ih =>
    constructor
    · rintro ⟨es, e, hes, he, h⟩
      obtain ⟨hpath, hpath'⟩ := (ih e).mp h
      exact ⟨⟨es, e, hes, he, hpath⟩, by rw [follow_cons hes he]; exact hpath'⟩
    · rintro ⟨⟨es, e, hes, he, hpath⟩, hpath'⟩
      rw [follow_cons hes he] at hpath'
      exact ⟨es, e, hes, he, (ih e).mpr ⟨hpath, hpath'⟩⟩

/-- Following a pointer in two parts. -/
theorem follow_append {path : List Nat} (path' : List Nat) {value : Json}
    (h : HasPath path value) : follow (path ++ path') value = follow path' (follow path value) := by
  induction path generalizing value with
  | nil => rfl
  | cons i path ih =>
    obtain ⟨es, e, hes, he, hpath⟩ := h
    rw [List.cons_append, follow_cons hes he, follow_cons hes he, ih hpath]

/-- Changing what a pointer in two parts leads to. -/
theorem modifyAt_append (f : Json → Json) (path path' : List Nat) (value : Json) :
    modifyAt f (path ++ path') value = modifyAt (modifyAt f path') path value := by
  induction path generalizing value with
  | nil => rfl
  | cons i path ih =>
    have hpath : modifyAt f (path ++ path') = modifyAt (modifyAt f path') path := funext ih
    rw [List.cons_append, modifyAt, modifyAt, hpath]

/-- Two writes through one pointer. -/
theorem modifyAt_modifyAt (f g : Json → Json) (path : List Nat) (value : Json) :
    modifyAt g path (modifyAt f path value) = modifyAt (fun v => g (f v)) path value := by
  induction path generalizing value with
  | nil => rfl
  | cons i path ih =>
    have hpath : (fun v => modifyAt g path (modifyAt f path v)) =
        modifyAt (fun v => g (f v)) path := funext ih
    cases hes : value.at_ "sub_properties" with
    | arr es =>
      have hobject := isObject_of_at hes
      have hwritten : (value.set "sub_properties" (.arr (es.modify i (modifyAt f path)))).at_
          "sub_properties" = .arr (es.modify i (modifyAt f path)) := by
        rw [at_set _ _ _ hobject, if_pos rfl]
      have hmodify : (es.modify i (modifyAt f path)).modify i (modifyAt g path) =
          es.modify i (modifyAt (fun v => g (f v)) path) := by
        rw [List.modify_modify_eq, ← hpath]
        rfl
      have hvalue : modifyAt f (i :: path) value =
          value.set "sub_properties" (.arr (es.modify i (modifyAt f path))) := by
        rw [modifyAt, hes]
      rw [hvalue, modifyAt, hwritten, modifyAt, hes]
      simp only
      rw [set_set _ _ _ hobject, hmodify]
    | null | bool | int | real | str | obj => simp only [modifyAt, hes]

/-- Writing through a pointer concerns the value that it leads to. -/
theorem modifyAt_congr {f g : Json → Json} {path : List Nat} {value : Json}
    (h : HasPath path value) (hfg : f (follow path value) = g (follow path value)) :
    modifyAt f path value = modifyAt g path value := by
  induction path generalizing value with
  | nil => exact hfg
  | cons i path ih =>
    obtain ⟨es, e, hes, he, hpath⟩ := h
    rw [follow_cons hes he] at hfg
    rw [modifyAt, modifyAt, hes]
    simp only
    congr 2
    apply List.ext_getElem?
    intro j
    rw [List.getElem?_modify, List.getElem?_modify]
    by_cases hj : i = j
    · subst hj
      rw [he]
      simp only [if_pos]
      exact congrArg some (ih hpath hfg)
    · simp [hj]

/-- The pointer leads to the changed value. -/
theorem hasPath_modifyAt {f : Json → Json} {path : List Nat} {value : Json}
    (h : HasPath path value) : HasPath path (modifyAt f path value) ∧
      follow path (modifyAt f path value) = f (follow path value) := by
  induction path generalizing value with
  | nil => exact ⟨trivial, rfl⟩
  | cons i path ih =>
    obtain ⟨es, e, hes, he, hpath⟩ := h
    obtain ⟨hpath', hfollow⟩ := ih hpath
    have hvalue : modifyAt f (i :: path) value =
        value.set "sub_properties" (.arr (es.modify i (modifyAt f path))) := by
      rw [modifyAt, hes]
    have hes' : (modifyAt f (i :: path) value).at_ "sub_properties" =
        .arr (es.modify i (modifyAt f path)) := by
      rw [hvalue, at_set _ _ _ (isObject_of_at hes), if_pos rfl]
    have he' : (es.modify i (modifyAt f path))[i]? = some (modifyAt f path e) := by
      rw [List.getElem?_modify, he]
      simp
    exact ⟨⟨_, _, hes', he', hpath'⟩, by rw [follow_cons hes' he', follow_cons hes he, hfollow]⟩

/-! ## Appending -/

/-- Properties that are put below a value, one after the other. -/
def appendAll (es : List Json) (value : Json) : Json := es.foldl Json.appendBelow value

/-- What has been appended to can be appended to, again and again. -/
theorem IsParent.appendAll {value : Json} (h : value.IsParent) (es : List Json) :
    (appendAll es value).IsParent := by
  induction es generalizing value with
  | nil => exact h
  | cons e es ih => exact ih (h.appendBelow e)

/-- The elements come in order. -/
theorem IsParent.elements_appendAll {value : Json} (h : value.IsParent) (es : List Json) :
    ((Json.appendAll es value).at_ "sub_properties").elements =
      (value.at_ "sub_properties").elements ++ es := by
  induction es generalizing value with
  | nil => exact (List.append_nil _).symm
  | cons e es ih =>
    have hrest := ih (h.appendBelow e)
    rw [h.at_appendBelow e] at hrest
    rw [Json.appendAll, List.foldl_cons]
    exact hrest.trans (List.append_assoc _ _ _)

/-- The other members are as before. -/
theorem IsParent.get?_appendAll {value : Json} (h : value.IsParent) (es : List Json) {key : String}
    (hkey : key ≠ "sub_properties") : (Json.appendAll es value).get? key = value.get? key := by
  induction es generalizing value with
  | nil => rfl
  | cons e es ih => exact (ih (h.appendBelow e)).trans (h.get?_appendBelow e hkey)

/-- The same through a pointer. -/
def appendAt (path : List Nat) (es : List Json) (root : Json) : Json :=
  es.foldl (fun root e => modifyAt (fun value => value.appendBelow e) path root) root

/-- The empty pointer leads to the root. -/
theorem appendAt_nil (es : List Json) (root : Json) : appendAt [] es root = appendAll es root := rfl

/-- What is written to the last element that was put below a value. -/
theorem IsParent.modifyAt_last {value : Json} (h : value.IsParent) (f : Json → Json) (e : Json) :
    modifyAt f [(value.at_ "sub_properties").elements.length] (value.appendBelow e) =
      value.appendBelow (f e) := by
  have hmodify : ((value.at_ "sub_properties").elements ++ [e]).modify
      (value.at_ "sub_properties").elements.length (modifyAt f []) =
        (value.at_ "sub_properties").elements ++ [f e] := by
    rw [List.modify_eq_take_cons_drop (by simp)]
    simp [modifyAt]
  rw [modifyAt, h.at_appendBelow e]
  simp only
  rw [hmodify, Json.appendBelow, set_set _ _ _ h.object, Json.appendBelow, h.append]

/-- What is put below the last element is there when that element is put below its parent. -/
theorem appendAt_last {path : List Nat} {root : Json} (hpath : HasPath path root)
    (hparent : (follow path root).IsParent) (es : List Json) (e : Json) :
    appendAt (path ++ [((follow path root).at_ "sub_properties").elements.length]) es
        (modifyAt (fun value => value.appendBelow e) path root) =
      modifyAt (fun value => value.appendBelow (appendAll es e)) path root := by
  induction es generalizing e with
  | nil => rfl
  | cons x es ih =>
    rw [appendAt, List.foldl_cons, modifyAt_append, modifyAt_modifyAt]
    rw [modifyAt_congr (g := fun value => value.appendBelow (e.appendBelow x)) hpath
      (hparent.modifyAt_last _ e)]
    exact ih (e.appendBelow x)

end Json

/-! ## The callbacks that write JSON -/

/-- The elements that such a callback makes of the properties below a node. -/
def Properties.toJson (object : String → String → String → Json) : Properties → List Json
  | nil => []
  | cons name value type sub_properties siblings =>
      Json.appendAll (sub_properties.toJson object) (object name value type) ::
        siblings.toJson object

/-- Such an object has a name, and a value or none, and nothing below it yet. -/
structure Describes (object : String → String → String → Json) (valued : String → String) :
    Prop where
  parent : ∀ name value type, (object name value type).IsParent
  childless : ∀ name value type,
    ((object name value type).at_ "sub_properties").elements = []
  named : ∀ name value type, (object name value type).get? "name" = some (.str name)
  valued : ∀ name value type, textOf ((object name value type).get? "value") = valued value

/-- **The pointer to the parent does its work**: what the callback writes for the properties below
    a node is one array below the value of the node, with what is below a property in that
    property. -/
theorem Properties.fold_eq_appendAt {callback : Callback Json (List Nat)}
    {object : String → String → String → Json} {valued : String → String}
    (hobject : Describes object valued)
    (hcallback : ∀ name value type depth parent root, depth ≠ 0 →
      callback name value type depth parent root =
        appendSubProperty (object name value type) parent root)
    (props : Properties) : ∀ (path : List Nat) (depth : Nat) (root : Json), depth ≠ 0 →
      Json.HasPath path root → (Json.follow path root).IsParent →
      props.fold callback path depth root = Json.appendAt path (props.toJson object) root := by
  -- on the tree, for every path: it says where in the document the siblings go
  induction props with
  | nil => intro _ _ _ _ _ _; rfl
  | cons name value type sub_properties siblings ih_sub ih_siblings =>
    intro path depth root hdepth hpath hparent
    have hvisited : callback name value type depth path root =
        (path ++ [((root.follow path).at_ "sub_properties").elements.length],
          Json.modifyAt (fun v => v.appendBelow (object name value type)) path root) := by
      rw [hcallback _ _ _ _ _ _ hdepth, appendSubProperty]
      rcases hparent.below with hnull | ⟨es, harr⟩
      · rw [hnull]; rfl
      · rw [harr]; rfl
    obtain ⟨hpath', hfollow⟩ := Json.hasPath_modifyAt (f := fun v =>
      v.appendBelow (object name value type)) hpath
    -- the callback hands on the path of the element that it has just appended
    have hlast : Json.HasPath (path ++ [((root.follow path).at_ "sub_properties").elements.length])
        (Json.modifyAt (fun v => v.appendBelow (object name value type)) path root) := by
      refine (Json.hasPath_append _ _ _).mpr ⟨hpath', ?_⟩
      rw [hfollow]
      exact ⟨_, object name value type, hparent.at_appendBelow _, by simp, trivial⟩
    have hobj : Json.follow (path ++ [((root.follow path).at_ "sub_properties").elements.length])
        (Json.modifyAt (fun v => v.appendBelow (object name value type)) path root) =
          object name value type := by
      rw [Json.follow_append _ hpath', hfollow,
        Json.follow_cons (hparent.at_appendBelow _) (e := object name value type) (by simp)]
      rfl
    obtain ⟨hpath'', hfollow'⟩ := Json.hasPath_modifyAt (f := fun v =>
      v.appendBelow (Json.appendAll (sub_properties.toJson object) (object name value type))) hpath
    rw [Properties.fold, hvisited]
    simp only
    rw [ih_sub _ (depth + 1) _ (Nat.succ_ne_zero depth) hlast (by
        rw [hobj]; exact hobject.parent _ _ _), Json.appendAt_last hpath hparent]
    refine (ih_siblings path depth _ hdepth hpath'' ?_).trans rfl
    rw [hfollow']
    exact hparent.appendBelow _

/-- The rows of a value with a name. -/
theorem rowsOf_eq {value name : Json} (h : value.get? "name" = some name) (depth : Nat) :
    rowsOf depth value = ⟨depth, textOf (some name), textOf (value.get? "value")⟩ ::
      rowsOfElements (depth + 1) (value.at_ "sub_properties").elements := by
  cases value with
  | obj members =>
    have hname : members.lookup "name" = some name := h
    have hbelow : ∀ v : Json, rowsBelow (depth + 1) v = rowsOfElements (depth + 1) v.elements := by
      intro v
      cases v <;> simp only [rowsBelow, Json.elements, rowsOfElements]
    rw [rowsOf, hname, Json.rowsOfMembers_eq, hbelow]
    rfl
  | null | bool | int | real | str | arr => cases h

/-- **The rows of what the callback wrote** are those of the properties. -/
theorem Properties.rowsOfElements_toJson {object : String → String → String → Json}
    {valued : String → String} (hobject : Describes object valued) (props : Properties) :
    ∀ depth, rowsOfElements depth (props.toJson object) =
      (props.rows depth).map fun row => { row with value := valued row.value } := by
  induction props with
  | nil => intro depth; rfl
  | cons name value type sub_properties siblings ih_sub ih_siblings =>
    intro depth
    have hparent := hobject.parent name value type
    have hname : (Json.appendAll (sub_properties.toJson object) (object name value type)).get?
        "name" = some (.str name) := by
      rw [hparent.get?_appendAll _ (by decide), hobject.named]
    have hvalue : textOf ((Json.appendAll (sub_properties.toJson object)
        (object name value type)).get? "value") = valued value := by
      rw [hparent.get?_appendAll _ (by decide), hobject.valued]
    have hbelow : ((Json.appendAll (sub_properties.toJson object) (object name value type)).at_
        "sub_properties").elements = sub_properties.toJson object := by
      rw [hparent.elements_appendAll, hobject.childless, List.nil_append]
    rw [Properties.toJson, rowsOfElements, rowsOf_eq hname, hvalue, hbelow, ih_sub, ih_siblings,
      Properties.rows, List.map_cons, List.map_append]
    rfl

/-! ## The callbacks that write text -/

/-- The lines of an outline, one after the other. -/
def outline (line : Row → String) (rows : List Row) : String := String.join (rows.map line)

theorem outline_nil (line : Row → String) : outline line [] = "" := rfl

theorem outline_cons (line : Row → String) (row : Row) (rows : List Row) :
    outline line (row :: rows) = line row ++ outline line rows := by
  rw [outline, List.map_cons, String.join_cons, outline]

/-- Outlines are written one after the other. -/
theorem outline_append (line : Row → String) (rows rows' : List Row) :
    outline line (rows ++ rows') = outline line rows ++ outline line rows' := by
  induction rows with
  | nil => rw [List.nil_append, outline_nil, String.empty_append]
  | cons row rows ih =>
    rw [List.cons_append, outline_cons, outline_cons, ih, String.append_assoc]

/-- A callback that writes a line for every property writes the outline. -/
theorem Properties.fold_eq_outline {callback : Callback String Unit} {line : Row → String}
    (hcallback : ∀ name value type depth ss,
      callback name value type depth () ss = ((), ss ++ line ⟨depth, name, value⟩))
    (props : Properties) : ∀ (depth : Nat) (ss : String),
      props.fold callback () depth ss = ss ++ outline line (props.rows depth) := by
  induction props with
  | nil => intro _ _; exact String.append_empty.symm
  | cons name value type sub_properties siblings ih_sub ih_siblings =>
    intro depth ss
    rw [Properties.fold, hcallback, Properties.rows, outline_cons, outline_append]
    simp only
    rw [ih_sub, ih_siblings, String.append_assoc, String.append_assoc]

end FepControl
