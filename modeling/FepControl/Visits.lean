/-
  What a walk over a configuration visits.

  `Traversal` says that a callback sees what a recursion over the tree makes it see.  Here the same
  is said without the recursion: there is a list of visits, with a path for each, and the callback
  is called for the members of that list in order.  So every property is visited once, and a parent
  before what is below it.

  1. **Nodes** -- a node of a configuration is found by the list of names that leads to it.  Names
     are not empty, have no slash, and are distinct below one node (`WellNamed`).

  2. **Serves** -- the library addresses nodes by their names joined with slashes, and says nothing
     of any other path.  Since names have no slash, different nodes have different paths
     (`childPath_joined`).

  3. **Visits** -- the properties below a node in preorder, each with its path from there.
     `callEach` makes one call of a callback for each; the user object is what the call for the
     parent gave.

  4. **Every property once** -- the paths of the visits are distinct, and they are the paths at
     which there is something (`Properties.visits_nodup`, `Properties.mem_visits`).

  5. **Starts** -- a walk is started at the root, at a property, which is visited itself, or at a
     node, which is not (`Start`, `Start.own`).

  6. **The walk** -- `traverseProperties` makes these calls and no others, in this order, and
     addresses the library by the paths of the visits (`traverseProperties_visits`).
-/
import FepControl.Traversal
import FepControl.Lib.SlashPath

namespace FepControl

open Lib

variable {W : Type}

/-! ## Nodes -/

/-- A node of a configuration: a property, or the root. -/
structure Node where
  value : String
  type : String
  sub_properties : Properties

namespace Properties

/-- The property of this name. -/
def child? (name : String) : Properties → Option Node
  | nil => none
  | cons n value type sub_properties siblings =>
      if n = name then some ⟨value, type, sub_properties⟩ else siblings.child? name

/-- The configuration as a node. -/
def root (tree : Properties) : Node := ⟨"", "", tree⟩

/-- Names are not empty, have no slash, and no two siblings have one name. -/
def WellNamed : Properties → Prop
  | nil => True
  | cons name _ _ sub_properties siblings =>
      Segment name ∧ name ∉ siblings.names ∧ sub_properties.WellNamed ∧ siblings.WellNamed

end Properties

/-- The node that a path leads to. -/
def Node.at? : Node → List String → Option Node
  | node, [] => some node
  | node, name :: path => (node.sub_properties.child? name).bind fun child => child.at? path

/-- The node of a configuration at a path. -/
def Properties.at? (tree : Properties) (path : List String) : Option Node := tree.root.at? path

/-- A path in two parts. -/
theorem Node.at?_append (path path' : List String) (node : Node) :
    node.at? (path ++ path') = (node.at? path).bind fun n => n.at? path' := by
  induction path generalizing node with
  | nil => rfl
  | cons name path ih =>
    rw [List.cons_append, at?, at?, Option.bind_assoc]
    congr 1
    funext child
    exact ih child

/-- A path, and one name more. -/
theorem Node.at?_child {node n : Node} {path : List String} (h : node.at? path = some n)
    (name : String) : node.at? (path ++ [name]) = n.sub_properties.child? name := by
  rw [at?_append, h]
  show (n.sub_properties.child? name).bind some = _
  cases n.sub_properties.child? name with
  | none => rfl
  | some _ => rfl

namespace Properties

/-- There is a child of each name, and of no other. -/
theorem child?_isSome {name : String} (props : Properties) :
    (props.child? name).isSome ↔ name ∈ props.names := by
  induction props with
  | nil => simp [child?, names]
  | cons n value type sub_properties siblings _ ih =>
    rw [child?, names]
    by_cases h : n = name
    · simp [h]
    · have hne : ¬ name = n := fun heq => h heq.symm
      simp [h, hne, ih]

/-- A child has a good name, and good names below it. -/
theorem WellNamed.child {props : Properties} (h : props.WellNamed) {name : String} {n : Node}
    (hn : props.child? name = some n) : Segment name ∧ n.sub_properties.WellNamed := by
  induction props with
  | nil => cases hn
  | cons n' value type sub_properties siblings _ ih =>
    obtain ⟨hname, -, hsub, hsiblings⟩ := h
    rw [child?] at hn
    split at hn
    · rename_i heq
      cases hn
      exact ⟨heq ▸ hname, hsub⟩
    · exact ih hsiblings hn

end Properties

/-- Every name on a path that leads somewhere can stand between slashes. -/
theorem Node.segments_of_at? {node : Node} (h : node.sub_properties.WellNamed)
    {path : List String} {n : Node} (hn : node.at? path = some n) :
    (∀ name ∈ path, Segment name) ∧ n.sub_properties.WellNamed := by
  induction path generalizing node with
  | nil =>
    cases hn
    exact ⟨fun _ hname => absurd hname List.not_mem_nil, h⟩
  | cons name path ih =>
    rw [at?] at hn
    cases hchild : node.sub_properties.child? name with
    | none => rw [hchild] at hn; cases hn
    | some child =>
      rw [hchild] at hn
      obtain ⟨hname, hbelow⟩ := h.child hchild
      obtain ⟨hpath, hn'⟩ := ih hbelow hn
      exact ⟨List.forall_mem_cons.mpr ⟨hname, hpath⟩, hn'⟩

/-- So has everything that a path leads to. -/
theorem Properties.segments_of_at? {tree : Properties} (h : tree.WellNamed) {path : List String}
    {n : Node} (hn : tree.at? path = some n) :
    (∀ name ∈ path, Segment name) ∧ n.sub_properties.WellNamed := by
  have hroot : tree.root.sub_properties.WellNamed := h
  exact Node.segments_of_at? hroot hn

/-- The node above a property is there too. -/
theorem Properties.parent_of_at? {tree : Properties} {path : List String} {name : String} {n : Node}
    (h : tree.at? (path ++ [name]) = some n) : ∃ parent, tree.at? path = some parent := by
  have hsplit : (tree.at? path).bind (fun node => node.at? [name]) = some n :=
    (Node.at?_append path [name] tree.root).symm.trans h
  cases hparent : tree.at? path with
  | none => rw [hparent] at hsplit; cases hsplit
  | some parent => exact ⟨parent, rfl⟩

/-! ## A library that serves a configuration -/

/-- In the worlds of `I` the library answers for this configuration: a node is addressed by its
    names, joined with slashes, and the root by the empty string. -/
structure Serves (env : Env W) (I : W → Prop) (part : ParticipantProxy) (tree : Properties) :
    Prop where
  properties : ∀ path node, tree.at? path = some node →
    RepliesIn env I (.participant part (.getProperties (joined path))) (some ())
  names : ∀ path node, tree.at? path = some node →
    RepliesIn env I (.participant part (.getPropertyNames (joined path))) node.sub_properties.names
  value : ∀ path name node, tree.at? (path ++ [name]) = some node →
    RepliesIn env I (.participant part (.getProperty (joined path) name)) node.value
  type : ∀ path name node, tree.at? (path ++ [name]) = some node →
    RepliesIn env I (.participant part (.getPropertyType (joined path) name)) node.type

/-- The path of a child is made as the walk makes it. -/
theorem childPath_joined {path : List String} (h : ∀ name ∈ path, Segment name) (name : String) :
    childPath (joined path) name = joined (path ++ [name]) := by
  unfold childPath
  by_cases hnil : path = []
  · subst hnil
    rw [joined_nil, if_pos (.inl rfl), List.nil_append, joined_singleton, String.empty_append]
  · have hslash : ¬ (joined path = "" ∨ (joined path).toList.getLast? = some '/') := by
      rintro (hempty | hlast)
      · exact hnil ((joined_eq_empty h).mp hempty)
      · exact getLast?_joined_ne h hlast
    rw [if_neg hslash, joined_append_singleton hnil]

section

variable {env : Env W} {I : W → Prop} {part : ParticipantProxy} {tree : Properties}

/-- What the library serves below a node, in the order of the names. -/
theorem Serves.lists (h : Serves env I part tree) {props : Properties} (hprops : props.WellNamed)
    {path : List String} (hpath : ∀ name ∈ path, Segment name)
    (hchild : ∀ name n, props.child? name = some n → tree.at? (path ++ [name]) = some n) :
    Lists env I part (joined path) props := by
  -- on the tree; `hchild` says where in the configuration the properties are
  induction props generalizing path with
  | nil => trivial
  | cons name value type sub_properties siblings ih_sub ih_siblings =>
    obtain ⟨hname, hnodup, hsub, hsiblings⟩ := hprops
    have hfound : tree.at? (path ++ [name]) = some ⟨value, type, sub_properties⟩ := by
      apply hchild
      rw [Properties.child?, if_pos rfl]
    have hpath' : ∀ n ∈ path ++ [name], Segment n :=
      List.forall_mem_append.mpr ⟨hpath, List.forall_mem_singleton.mpr hname⟩
    rw [Lists, childPath_joined hpath]
    refine ⟨hname.1, h.value _ _ _ hfound, h.type _ _ _ hfound, h.properties _ _ hfound,
      h.names _ _ hfound, ?_, ?_⟩
    · -- below the property: its own children
      refine ih_sub hsub hpath' fun n node hn => ?_
      rw [← hn]
      exact Node.at?_child hfound n
    · -- beside it: a sibling has another name
      refine ih_siblings hsiblings hpath fun n node hn => ?_
      apply hchild
      have hne : name ≠ n := by
        rintro rfl
        have hsome : (siblings.child? name).isSome := by
          rw [hn]
          rfl
        exact hnodup ((Properties.child?_isSome siblings).mp hsome)
      rw [Properties.child?, if_neg hne]
      exact hn

end

/-! ## Visits -/

/-- A property that a walk shows to its callback: its path from the start of the walk, and what
    the callback is told of it. -/
structure Visit where
  path : List String
  name : String
  value : String
  type : String
  deriving DecidableEq, Repr

/-- How far the property is from the start. -/
def Visit.depth (v : Visit) : Nat := v.path.length

/-- The properties in preorder, those of a node at this path from the start. -/
def Properties.visits : List String → Properties → List Visit
  | _, .nil => []
  | path, .cons name value type sub_properties siblings =>
      ⟨path ++ [name], name, value, type⟩ ::
        (sub_properties.visits (path ++ [name]) ++ siblings.visits path)

section

variable {σ T : Type}

/-- One call of the callback.  `results` is what the calls so far gave, under the paths they were
    made for; the parent of a property has its path without the last name. -/
def callOne (callback : Callback σ T) (s : (List String → T) × σ) (v : Visit) :
    (List String → T) × σ :=
  let called := callback v.name v.value v.type v.depth (s.1 v.path.dropLast) s.2
  (Function.update s.1 v.path called.1, called.2)

/-- One call of the callback for each visit, in their order. -/
def callEach (callback : Callback σ T) (visits : List Visit) (s : (List String → T) × σ) :
    (List String → T) × σ := visits.foldl (callOne callback) s

/-- Calls for one list of visits, and then for another. -/
theorem callEach_append (callback : Callback σ T) (vs vs' : List Visit)
    (s : (List String → T) × σ) :
    callEach callback (vs ++ vs') s = callEach callback vs' (callEach callback vs s) :=
  List.foldl_append

/-- The walk over the properties of a node is one call for each, and leaves the results for the
    node and for what is above it alone. -/
theorem Properties.fold_eq_callEach (callback : Callback σ T) (props : Properties) :
    ∀ (path : List String) (results : List String → T) (store : σ),
      (callEach callback (props.visits path) (results, store)).2 =
          props.fold callback (results path) (path.length + 1) store ∧
        ∀ p : List String, p.length ≤ path.length →
          (callEach callback (props.visits path) (results, store)).1 p = results p := by
  induction props with
  | nil =>
    intro path results store
    exact ⟨rfl, fun _ _ => rfl⟩
  | cons name value type sub_properties siblings ih_sub ih_siblings =>
    intro path results store
    have hdrop : (path ++ [name]).dropLast = path := List.dropLast_concat
    have hlength : (path ++ [name]).length = path.length + 1 := by
      rw [List.length_append, List.length_singleton]
    obtain ⟨called, hcalled⟩ : ∃ called, called =
      callback name value type (path.length + 1) (results path) store := ⟨_, rfl⟩
    have hone : callOne callback (results, store) ⟨path ++ [name], name, value, type⟩ =
        (Function.update results (path ++ [name]) called.1, called.2) := by
      unfold callOne Visit.depth
      simp only [hdrop, hlength, ← hcalled]
    -- the own result is under a longer path, so the parent's is still there
    have hown : ∀ p : List String, p.length ≤ path.length →
        Function.update results (path ++ [name]) called.1 p = results p := by
      intro p hp
      apply Function.update_of_ne
      rintro rfl
      omega
    obtain ⟨hsub, hkept⟩ := ih_sub (path ++ [name])
      (Function.update results (path ++ [name]) called.1) called.2
    rw [Function.update_self, hlength] at hsub
    obtain ⟨results', hresults'⟩ : ∃ s, s = callEach callback (sub_properties.visits
      (path ++ [name])) (Function.update results (path ++ [name]) called.1, called.2) := ⟨_, rfl⟩
    rw [← hresults'] at hsub hkept
    have hkept' : ∀ p : List String, p.length ≤ path.length → results'.1 p = results p := by
      intro p hp
      rw [hkept p (by omega), hown p hp]
    obtain ⟨hsiblings, hkept''⟩ := ih_siblings path results'.1 results'.2
    have hall : callEach callback
        ((Properties.cons name value type sub_properties siblings).visits path) (results, store) =
          callEach callback (siblings.visits path) (results'.1, results'.2) := by
      rw [Properties.visits, callEach, List.foldl_cons, hone, ← callEach, callEach_append,
        ← hresults']
    rw [hall]
    constructor
    · rw [hsiblings, hkept' path le_rfl, hsub, Properties.fold, ← hcalled]
    · intro p hp
      rw [hkept'' p hp, hkept' p hp]

end

/-! ## Every property once -/

/-- The path of a visit goes on with one of the names. -/
theorem Properties.visits_path {props : Properties} {path : List String} {v : Visit}
    (hv : v ∈ props.visits path) : ∃ name below, v.path = path ++ name :: below ∧
      name ∈ props.names := by
  induction props generalizing path with
  | nil => cases hv
  | cons name value type sub_properties siblings ih_sub ih_siblings =>
    rw [Properties.visits, List.mem_cons, List.mem_append] at hv
    rcases hv with rfl | hv | hv
    · exact ⟨name, [], rfl, List.mem_cons_self⟩
    · obtain ⟨name', below, hpath, -⟩ := ih_sub hv
      refine ⟨name, name' :: below, ?_, List.mem_cons_self⟩
      rw [hpath, List.append_assoc]
      rfl
    · obtain ⟨name', below, hpath, hname'⟩ := ih_siblings hv
      exact ⟨name', below, hpath, List.mem_cons_of_mem _ hname'⟩

/-- No property is visited twice. -/
theorem Properties.visits_nodup {props : Properties} (h : props.WellNamed) (path : List String) :
    ((props.visits path).map Visit.path).Nodup := by
  induction props generalizing path with
  | nil => exact List.nodup_nil
  | cons name value type sub_properties siblings ih_sub ih_siblings =>
    obtain ⟨-, hnodup, hsub, hsiblings⟩ := h
    rw [Properties.visits, List.map_cons, List.map_append, List.nodup_cons, List.nodup_append]
    refine ⟨?_, ih_sub hsub _, ih_siblings hsiblings _, ?_⟩
    · intro hmem
      rcases List.mem_append.mp hmem with hmem | hmem
      · -- what is below the property has a longer path
        obtain ⟨v, hv, heq⟩ := List.mem_map.mp hmem
        obtain ⟨name', below, hpath, -⟩ := visits_path hv
        rw [hpath] at heq
        have hlength := congrArg List.length heq
        simp only [List.length_append, List.length_cons] at hlength
        omega
      · -- a sibling has another name
        obtain ⟨v, hv, heq⟩ := List.mem_map.mp hmem
        obtain ⟨name', below, hpath, hname'⟩ := visits_path hv
        rw [hpath, List.append_cancel_left_eq] at heq
        obtain rfl := (List.cons.inj heq).1
        exact hnodup hname'
    · rintro p hp p' hp' rfl
      obtain ⟨v, hv, heq⟩ := List.mem_map.mp hp
      obtain ⟨v', hv', heq'⟩ := List.mem_map.mp hp'
      obtain ⟨name₁, below, hpath, -⟩ := visits_path hv
      obtain ⟨name₂, below', hpath', hname₂⟩ := visits_path hv'
      rw [← heq', hpath', hpath, List.append_assoc, List.append_cancel_left_eq] at heq
      obtain rfl := (List.cons.inj heq).1
      exact hnodup hname₂

/-- A path from a list of properties goes into the first property, or on to its siblings. -/
theorem Properties.at?_root_cons (name value type : String) (sub_properties siblings : Properties)
    (name' : String) (below : List String) :
    (cons name value type sub_properties siblings).root.at? (name' :: below) =
      if name = name' then Node.at? ⟨value, type, sub_properties⟩ below
      else siblings.root.at? (name' :: below) := by
  rw [Node.at?]
  show ((cons name value type sub_properties siblings).child? name').bind _ = _
  rw [child?]
  split
  · rfl
  · rfl

/-- The value and the type of a node do not matter below it. -/
theorem Node.at?_of_ne_nil (n : Node) {below : List String} (hne : below ≠ []) :
    n.at? below = n.sub_properties.root.at? below := by
  cases below with
  | nil => exact absurd rfl hne
  | cons name below => rfl

/-- A path that leads somewhere begins with one of the names. -/
theorem Properties.mem_names_of_at? {props : Properties} {name : String} {below : List String}
    {n : Node} (h : props.root.at? (name :: below) = some n) : name ∈ props.names := by
  rw [Node.at?] at h
  apply (child?_isSome props).mp
  show (props.root.sub_properties.child? name).isSome
  cases hchild : props.root.sub_properties.child? name with
  | none => rw [hchild] at h; cases h
  | some _ => rfl

/-- **What is visited is what is there**, with its own name, value and type. -/
theorem Properties.mem_visits {props : Properties} (h : props.WellNamed) (path : List String)
    (v : Visit) : v ∈ props.visits path ↔ ∃ below n, v.path = path ++ below ∧
      below.getLast? = some v.name ∧ props.root.at? below = some n ∧ v.value = n.value ∧
      v.type = n.type := by
  induction props generalizing path with
  | nil =>
    constructor
    · intro hv
      cases hv
    · rintro ⟨below, n, -, hlast, hn, -⟩
      cases below with
      | nil => cases hlast
      | cons name below => cases hn
  | cons name value type sub_properties siblings ih_sub ih_siblings =>
    obtain ⟨-, hnodup, hsub, hsiblings⟩ := h
    rw [Properties.visits, List.mem_cons, List.mem_append, ih_sub hsub, ih_siblings hsiblings]
    have hat := at?_root_cons name value type sub_properties siblings
    constructor
    · rintro (rfl | ⟨below, n, hpath, hlast, hn, hdata⟩ | ⟨below, n, hpath, hlast, hn, hdata⟩)
      · -- the property itself
        refine ⟨[name], ⟨value, type, sub_properties⟩, rfl, rfl, ?_, rfl, rfl⟩
        rw [hat, if_pos rfl]
        rfl
      · -- one below it
        have hne : below ≠ [] := by
          rintro rfl
          cases hlast
        refine ⟨name :: below, n, ?_, ?_, ?_, hdata⟩
        · rw [hpath, List.append_assoc]
          rfl
        · rw [List.getLast?_cons_of_ne_nil hne, hlast]
        · rw [hat, if_pos rfl, Node.at?_of_ne_nil _ hne, hn]
      · -- a sibling or one below it
        refine ⟨below, n, hpath, hlast, ?_, hdata⟩
        cases below with
        | nil => cases hlast
        | cons name' below =>
          have hne : name ≠ name' := by
            rintro rfl
            exact hnodup (mem_names_of_at? hn)
          rw [hat, if_neg hne, hn]
    · rintro ⟨below, n, hpath, hlast, hn, hvalue, htype⟩
      cases below with
      | nil => cases hlast
      | cons name' below =>
        rw [hat] at hn
        split at hn
        · rename_i heq
          subst heq
          by_cases hne : below = []
          · -- the property itself
            subst hne
            cases hn
            cases hlast
            left
            obtain ⟨vpath, vname, vvalue, vtype⟩ := v
            simp_all
          · -- one below it
            right
            left
            refine ⟨below, n, ?_, ?_, ?_, hvalue, htype⟩
            · rw [hpath, List.append_assoc]
              rfl
            · rw [← hlast, List.getLast?_cons_of_ne_nil hne]
            · rw [← hn, Node.at?_of_ne_nil ⟨value, type, sub_properties⟩ hne]
        · right
          right
          exact ⟨name' :: below, n, hpath, hlast, hn, hvalue, htype⟩

/-! ## The walk from a start -/

/-- Where a walk can start. -/
inductive Start where
  /-- without node and name -/
  | root
  /-- at a property, given by the path of its parent and its name -/
  | property (parent : List String) (name : String)
  /-- at a node, given by its path alone -/
  | node (path : List String)
  deriving DecidableEq, Repr

namespace Start

/-- The argument `node`. -/
def node_ : Start → String
  | root => ""
  | property parent _ => joined parent
  | node path => joined path

/-- The argument `prop_name`. -/
def prop_name : Start → String
  | property _ name => name
  | root | node _ => ""

/-- The path of the node that the walk starts at. -/
def path : Start → List String
  | root => []
  | property parent name => parent ++ [name]
  | node path => path

/-- The start is in the configuration; only the root has an empty path. -/
def Exists (tree : Properties) : Start → Node → Prop
  | root, n => n = tree.root
  | property parent name, n => parent ≠ [] ∧ tree.at? (parent ++ [name]) = some n
  | node path, n => path ≠ [] ∧ tree.at? path = some n

/-- The start itself is only visited as a property. -/
def own (n : Node) : Start → List Visit
  | property _ name => [⟨[], name, n.value, n.type⟩]
  | root | node _ => []

/-- What is visited. -/
def visits (start : Start) (n : Node) : List Visit := start.own n ++ n.sub_properties.visits []

/-- A visit of this walk: the start itself, if it is a property, or a property below it. -/
def Visits (start : Start) (n : Node) (v : Visit) : Prop :=
  (if v.path = [] then ∃ parent, start = .property parent v.name
    else v.path.getLast? = some v.name) ∧
  ∃ n', n.at? v.path = some n' ∧ v.value = n'.value ∧ v.type = n'.type

end Start

/-- The calls for a visit: of the parent, for its value and type; of the property itself, for the
    names below it. -/
def visitCalls (part : ParticipantProxy) (base : List String) (v : Visit) : List Call :=
  propertyCalls part (joined (base ++ v.path).dropLast) v.name ++
    nodeCalls part (joined (base ++ v.path))

/-- The calls of the walk: those for each visit, and before them, if the start is not visited,
    those for its names. -/
def Start.calls (part : ParticipantProxy) (start : Start) (n : Node) : List Call :=
  (if start.own n = [] then nodeCalls part (joined start.path) else []) ++
    (start.visits n).flatMap (visitCalls part start.path)

/-- **The calls of the library, visit by visit.** -/
theorem Properties.calls_eq {part : ParticipantProxy} {props : Properties}
    (h : props.WellNamed) {base : List String} (hbase : ∀ name ∈ base, Segment name) :
    ∀ path : List String, (∀ name ∈ path, Segment name) →
      props.calls part (joined (base ++ path)) =
        (props.visits path).flatMap (visitCalls part base) := by
  induction props with
  | nil =>
    intro path _
    rfl
  | cons name value type sub_properties siblings ih_sub ih_siblings =>
    intro path hpath
    obtain ⟨hname, -, hsub, hsiblings⟩ := h
    have hall : ∀ n ∈ base ++ path, Segment n := List.forall_mem_append.mpr ⟨hbase, hpath⟩
    have hpath' : ∀ n ∈ path ++ [name], Segment n :=
      List.forall_mem_append.mpr ⟨hpath, List.forall_mem_singleton.mpr hname⟩
    have hparent : (base ++ (path ++ [name])).dropLast = base ++ path := by
      rw [← List.append_assoc, List.dropLast_concat]
    rw [calls, visits, List.flatMap_cons, List.flatMap_append, ih_siblings hsiblings path hpath,
      childPath_joined hall, List.append_assoc base path [name], ih_sub hsub _ hpath', visitCalls,
      hparent]
    simp only [List.append_assoc]

section

variable {env : Env W} {I : W → Prop} {part : ParticipantProxy} {tree : Properties}
  {start : Start} {n : Node}

/-- There is a node at the path of the start. -/
theorem Start.Exists.at? (h : start.Exists tree n) : tree.at? start.path = some n := by
  cases start with
  | root =>
    cases h
    rfl
  | property parent name => exact h.2
  | node path => exact h.2

/-- The names on the path of a start can stand between slashes, and so can those below it. -/
theorem Start.Exists.segments (h : start.Exists tree n) (hnamed : tree.WellNamed) :
    (∀ name ∈ start.path, Segment name) ∧ n.sub_properties.WellNamed :=
  Properties.segments_of_at? hnamed h.at?

/-- The walk shows its start to the callback where the start is a property. -/
theorem Start.Exists.startPath (h : start.Exists tree n) (hnamed : tree.WellNamed) :
    startPath start.node_ start.prop_name = joined start.path ∧
      (start.node_ ≠ "" ∧ start.prop_name ≠ "" ↔ ∃ parent name, start = .property parent name) := by
  obtain ⟨hpath, -⟩ := h.segments hnamed
  unfold FepControl.startPath
  cases start with
  | root => exact ⟨rfl, fun h => absurd rfl h.1, fun ⟨_, _, h⟩ => by cases h⟩
  | property parent name =>
    have hparent : ∀ x ∈ parent, Segment x := fun x hx => hpath x (List.mem_append_left _ hx)
    have hname : Segment name := hpath name (List.mem_append_right _ List.mem_cons_self)
    refine ⟨?_, fun _ => ⟨parent, name, rfl⟩, fun _ => ⟨?_, hname.1⟩⟩
    · show (if name = "" then _ else childPath (joined parent) name) = _
      rw [if_neg hname.1, childPath_joined hparent]
      rfl
    · intro hempty
      exact h.1 ((joined_eq_empty hparent).mp hempty)
  | node path => exact ⟨rfl, fun h => absurd rfl h.2, fun ⟨_, _, h⟩ => by cases h⟩

/-- What a library that serves the configuration shows from a start in it. -/
theorem Serves.shows (h : Serves env I part tree) (hnamed : tree.WellNamed)
    (hstart : start.Exists tree n) :
    Shows env I part start.node_ start.prop_name n.value n.type n.sub_properties := by
  obtain ⟨hpath, hbelow⟩ := hstart.segments hnamed
  obtain ⟨hown, hvisited⟩ := hstart.startPath hnamed
  have hat := hstart.at?
  have hproperty : ∀ parent name, start = .property parent name →
      (∃ node, tree.at? parent = some node) ∧ tree.at? (parent ++ [name]) = some n := by
    rintro parent name rfl
    exact ⟨Properties.parent_of_at? hat, hat⟩
  refine ⟨?_, ?_, ?_, ?_, ?_, ?_⟩
  · intro hnode hprop
    obtain ⟨parent, name, rfl⟩ := hvisited.mp ⟨hnode, hprop⟩
    obtain ⟨⟨node, hparent⟩, -⟩ := hproperty parent name rfl
    exact h.properties _ _ hparent
  · intro hnode hprop
    obtain ⟨parent, name, rfl⟩ := hvisited.mp ⟨hnode, hprop⟩
    exact h.value _ _ _ hat
  · intro hnode hprop
    obtain ⟨parent, name, rfl⟩ := hvisited.mp ⟨hnode, hprop⟩
    exact h.type _ _ _ hat
  · rw [hown]
    exact h.properties _ _ hat
  · rw [hown]
    exact h.names _ _ hat
  · rw [hown]
    refine h.lists hbelow hpath fun name child hchild => ?_
    rw [← hchild]
    exact Node.at?_child hat name

/-- The calls of the walk are those for its visits. -/
theorem callsFrom_eq (hstart : start.Exists tree n) (hnamed : tree.WellNamed) :
    callsFrom part start.node_ start.prop_name n.sub_properties = start.calls part n := by
  obtain ⟨hpath, hbelow⟩ := hstart.segments hnamed
  obtain ⟨hown, hvisited⟩ := hstart.startPath hnamed
  have hcalls : n.sub_properties.calls part (joined start.path) =
      (n.sub_properties.visits []).flatMap (visitCalls part start.path) := by
    have h : n.sub_properties.calls part (joined (start.path ++ [])) = _ :=
      Properties.calls_eq hbelow hpath [] fun _ hname => absurd hname List.not_mem_nil
    rwa [List.append_nil] at h
  unfold callsFrom Start.calls Start.visits
  rw [hown, hcalls, List.flatMap_append]
  cases start with
  | root => rfl
  | property parent name =>
    have howned : (Start.property parent name).own n = [⟨[], name, n.value, n.type⟩] := rfl
    rw [if_pos (hvisited.mpr ⟨parent, name, rfl⟩), howned, if_neg (List.cons_ne_nil _ _),
      List.nil_append]
    have hvisit : visitCalls part (Start.property parent name).path ⟨[], name, n.value, n.type⟩ =
        propertyCalls part (joined parent) name ++
          nodeCalls part (joined (Start.property parent name).path) := by
      unfold visitCalls
      rw [List.append_nil]
      show propertyCalls part (joined (parent ++ [name]).dropLast) name ++ _ = _
      rw [List.dropLast_concat]
    rw [List.flatMap_cons, List.flatMap_nil, List.append_nil, hvisit, List.append_assoc]
    rfl
  | node path =>
    rw [if_neg fun h => absurd (hvisited.mp h) (by rintro ⟨_, _, h⟩; cases h)]
    rfl

/-- The walk makes one call of the callback for each visit. -/
theorem foldFrom_eq {σ T : Type} (hstart : start.Exists tree n) (hnamed : tree.WellNamed)
    (callback : Callback σ T) (user_object : T) (store : σ) :
    foldFrom callback start.node_ start.prop_name n.value n.type n.sub_properties user_object
        store =
      (callEach callback (start.visits n) (fun _ => user_object, store)).2 := by
  obtain ⟨-, hvisited⟩ := hstart.startPath hnamed
  unfold foldFrom Start.visits
  rw [callEach_append]
  cases start with
  | property parent name =>
    rw [if_pos (hvisited.mpr ⟨parent, name, rfl⟩)]
    exact ((n.sub_properties.fold_eq_callEach callback [] _ _).1.trans (by
      rw [Function.update_self]
      rfl)).symm
  | root | node path =>
    rw [if_neg fun h => absurd (hvisited.mp h) (by rintro ⟨_, _, h⟩; cases h)]
    exact (n.sub_properties.fold_eq_callEach callback [] (fun _ => user_object) store).1.symm

/-- No property is visited twice, from any start. -/
theorem Start.visits_nodup (start : Start) (h : n.sub_properties.WellNamed) :
    ((start.visits n).map Visit.path).Nodup := by
  have hbelow := Properties.visits_nodup h []
  cases start with
  | property parent name =>
    rw [Start.visits, List.map_append, List.nodup_append]
    refine ⟨List.pairwise_singleton _ _, hbelow, ?_⟩
    rintro p hp p' hp' rfl
    obtain rfl := List.mem_singleton.mp hp
    obtain ⟨v, hv, heq⟩ := List.mem_map.mp hp'
    obtain ⟨name', below, hpath, -⟩ := Properties.visits_path hv
    rw [heq] at hpath
    cases hpath
  | root | node path => exact hbelow

/-- **The walk visits the start, if it is a property, and what is below it, and nothing else.** -/
theorem Start.mem_visits (start : Start) (h : n.sub_properties.WellNamed) (v : Visit) :
    v ∈ start.visits n ↔ start.Visits n v := by
  have hbelow := Properties.mem_visits h [] v
  have hat : ∀ path, path ≠ [] → n.at? path = n.sub_properties.root.at? path := by
    intro path hne
    cases path with
    | nil => exact absurd rfl hne
    | cons name path => rfl
  unfold Start.visits Start.Visits
  rw [List.mem_append, hbelow]
  by_cases hpath : v.path = []
  · rw [if_pos hpath, hpath]
    have hnot : ¬ ∃ below n', ([] : List String) = [] ++ below ∧ below.getLast? = some v.name ∧
        n.sub_properties.root.at? below = some n' ∧ v.value = n'.value ∧ v.type = n'.type := by
      rintro ⟨below, n', hnil, hlast, -⟩
      rw [List.nil_append] at hnil
      rw [← hnil] at hlast
      cases hlast
    have hself : ∀ n', n.at? [] = some n' ↔ n' = n := by
      intro n'
      rw [Node.at?, Option.some.injEq]
      exact eq_comm
    simp only [hnot, or_false, hself, exists_eq_left]
    obtain ⟨path, name, value, type⟩ := v
    cases start with
    | property parent name' =>
      simp only at hpath
      simp [Start.own, hpath]
      tauto
    | root | node p => simp [Start.own]
  · rw [if_neg hpath]
    have hown : v ∉ start.own n := by
      intro hv
      cases start with
      | property parent name' =>
        rw [List.mem_singleton.mp hv] at hpath
        exact hpath rfl
      | root | node p => cases hv
    constructor
    · rintro (hv | ⟨below, n', hbelow, hlast, hn', hdata⟩)
      · exact absurd hv hown
      · rw [List.nil_append] at hbelow
        subst hbelow
        exact ⟨hlast, n', by rw [hat _ hpath, hn'], hdata⟩
    · rintro ⟨hlast, n', hn', hdata⟩
      exact .inr ⟨v.path, n', rfl, hlast, by rw [← hat _ hpath, hn'], hdata⟩

/-- Every path that the walk asks for is the path of a node, as it should be written. -/
theorem Start.calls_clean (hstart : start.Exists tree n) (hnamed : tree.WellNamed) {node : String}
    (hnode : Call.participant part (.getProperties node) ∈ start.calls part n) :
    ∃ path, (tree.at? path).isSome ∧ node = joined path ∧ Clean node := by
  have hclean : ∀ path, (tree.at? path).isSome → node = joined path →
      ∃ path, (tree.at? path).isSome ∧ node = joined path ∧ Clean node := by
    intro path hpath heq
    refine ⟨path, hpath, heq, ?_⟩
    obtain ⟨n', hn'⟩ := Option.isSome_iff_exists.mp hpath
    rw [heq]
    exact clean_joined (Properties.segments_of_at? hnamed hn').1
  have hat := hstart.at?
  unfold Start.calls at hnode
  rcases List.mem_append.mp hnode with hnode | hnode
  · -- the start is asked for its names
    split at hnode
    · simp only [nodeCalls, List.mem_cons, Call.participant.injEq, List.not_mem_nil, or_false,
        ParticipantCall.getProperties.injEq, true_and, reduceCtorEq, and_false] at hnode
      exact hclean start.path (by rw [hat]; rfl) hnode
    · cases hnode
  · -- a visit asks for the parent and for the property itself
    obtain ⟨v, hv, hcall⟩ := List.mem_flatMap.mp hnode
    obtain ⟨-, n', hn', -⟩ := (start.mem_visits (hstart.segments hnamed).2 v).mp hv
    have hown : tree.at? (start.path ++ v.path) = some n' := by
      have happend := Node.at?_append start.path v.path tree.root
      have hstarted : tree.root.at? start.path = some n := hat
      rw [hstarted] at happend
      exact happend.trans hn'
    have hparent : (tree.at? (start.path ++ v.path).dropLast).isSome := by
      rcases List.eq_nil_or_concat (start.path ++ v.path) with hnil | ⟨init, name, hinit⟩
      · rw [hnil]
        rfl
      · rw [hinit, List.concat_eq_append, List.dropLast_concat]
        rw [hinit, List.concat_eq_append] at hown
        obtain ⟨parent, hparent⟩ := Properties.parent_of_at? hown
        rw [hparent]
        rfl
    simp only [visitCalls, propertyCalls, nodeCalls, List.cons_append, List.nil_append,
      List.mem_cons, Call.participant.injEq, ParticipantCall.getProperties.injEq, true_and,
      reduceCtorEq, and_false, false_or, List.not_mem_nil, or_false] at hcall
    rcases hcall with hcall | hcall
    · exact hclean _ hparent hcall
    · exact hclean _ (by rw [hown]; rfl) hcall

/-- **A walk visits every property below its start once, in preorder, under its own path.**  With
    enough stack it makes one call of the callback for each visit, with the result of the call for
    the parent as user object, and these library calls; no visit is made twice, they are those of
    the start, if it is a property, and of all that is below it, and every node is asked for at its
    names joined with slashes. -/
theorem traverseProperties_visits (hnamed : tree.WellNamed) (hserves : Serves env I part tree)
    (hstart : start.Exists tree n) :
    (∃ bound, ∀ fuel ≥ bound, ∀ {σ T : Type} (callback : Callback σ T) (user_object : T)
      (store : σ) (m : Machine W), I m.world → ∃ w, I w ∧
        traverseProperties part callback fuel start.node_ start.prop_name user_object 0 store
            env m =
          (.ok (callEach callback (start.visits n) (fun _ => user_object, store)).2,
            { m with world := w, calls := m.calls ++ (start.calls part n).map (·, false) })) ∧
    ((start.visits n).map Visit.path).Nodup ∧ (∀ v, v ∈ start.visits n ↔ start.Visits n v) ∧
    ∀ node, Call.participant part (.getProperties node) ∈ start.calls part n →
      ∃ path, (tree.at? path).isSome ∧ node = joined path ∧ Clean node := by
  have hbelow := (hstart.segments hnamed).2
  refine ⟨⟨n.sub_properties.height + 1, ?_⟩, start.visits_nodup hbelow, start.mem_visits hbelow,
    fun node hnode => Start.calls_clean hstart hnamed hnode⟩
  intro fuel hfuel σ T callback user_object store m hm
  obtain ⟨cs, hcs, hends⟩ := traverseProperties_ends callback (hserves.shows hnamed hstart)
    user_object fuel store
  have hdeep : n.sub_properties.height < fuel := hfuel
  rw [if_pos hdeep, foldFrom_eq hstart hnamed, hcs hdeep, callsFrom_eq hstart hnamed] at hends
  exact hends m hm

end

/-! ## A library that stores a configuration -/

/-- Give the property at a path this value. -/
def Properties.setValue (v : String) : List String → Properties → Properties
  | _, .nil => .nil
  | [], props => props
  | name :: path, .cons n value type sub_properties siblings =>
      if n = name then
        if path = [] then .cons n v type sub_properties siblings
        else .cons n value type (sub_properties.setValue v path) siblings
      else .cons n value type sub_properties (siblings.setValue v (name :: path))

/-- What the library answers about a property that is not there. -/
def orUnknown {α : Type} : Option α → Except String α
  | some a => .ok a
  | none => .error "unknown property"

/-- What it does about setting one. -/
def Properties.store (v : String) (path : List String) (tree : Properties) :
    Except String Unit × Properties :=
  match tree.at? path with
  | some _ => (.ok (), tree.setValue v path)
  | none => (.error "unknown property", tree)

/-- A library whose participants have one configuration, which is its world. -/
def Env.storing : Env Properties := .over fun
  | .participant _ (.getProperties node), tree =>
      (.ok ((tree.at? (segments node)).map fun _ => ()), tree)
  | .participant _ (.getPropertyNames node), tree =>
      (orUnknown ((tree.at? (segments node)).map fun n => n.sub_properties.names), tree)
  | .participant _ (.getProperty node name), tree =>
      (orUnknown ((tree.at? (segments node ++ [name])).map Node.value), tree)
  | .participant _ (.getPropertyType node name), tree =>
      (orUnknown ((tree.at? (segments node ++ [name])).map Node.type), tree)
  | .participant _ (.setProperty node name value _), tree =>
      tree.store value (segments node ++ [name])
  | c, tree => (c.reply, tree)

/-- Such a library serves every configuration. -/
theorem storing_serves {tree : Properties} (hnamed : tree.WellNamed) (part : ParticipantProxy) :
    Serves Env.storing (· = tree) part tree := by
  have hsegments : ∀ path node, tree.at? path = some node → segments (joined path) = path := by
    intro path node hnode
    exact segments_joined (Properties.segments_of_at? hnamed hnode).1
  have hparent : ∀ path name node, tree.at? (path ++ [name]) = some node →
      segments (joined path) = path := by
    intro path name node hnode
    refine segments_joined fun x hx => ?_
    exact (Properties.segments_of_at? hnamed hnode).1 x (List.mem_append_left _ hx)
  refine ⟨?_, ?_, ?_, ?_⟩
  · rintro path node hnode w rfl
    refine ⟨w, ?_, rfl⟩
    show (Except.ok ((w.at? (segments (joined path))).map fun _ => ()), w) = _
    rw [hsegments path node hnode, hnode]
    rfl
  · rintro path node hnode w rfl
    refine ⟨w, ?_, rfl⟩
    show (orUnknown ((w.at? (segments (joined path))).map fun n => n.sub_properties.names), w) = _
    rw [hsegments path node hnode, hnode]
    rfl
  · rintro path name node hnode w rfl
    refine ⟨w, ?_, rfl⟩
    show (orUnknown ((w.at? (segments (joined path) ++ [name])).map Node.value), w) = _
    rw [hparent path name node hnode, hnode]
    rfl
  · rintro path name node hnode w rfl
    refine ⟨w, ?_, rfl⟩
    show (orUnknown ((w.at? (segments (joined path) ++ [name])).map Node.type), w) = _
    rw [hparent path name node hnode, hnode]
    rfl

/-- A node `clock` with a property `step_size` and, below that, a property `unit`. -/
def clockConfiguration : Properties :=
  .cons "clock" "" "node" (.cons "step_size" "100" "int" (.cons "unit" "ms" "string" .nil .nil)
    .nil) .nil

/-- The names of the clock are well formed. -/
theorem clockConfiguration_wellNamed : clockConfiguration.WellNamed := by
  unfold clockConfiguration
  simp only [Properties.WellNamed, Properties.names]
  decide

/-- A walk from the property `step_size` of `clock`. -/
theorem traverseProperties_visits_clock :
    (∃ bound, ∀ fuel ≥ bound, ∀ {σ T : Type} (callback : Callback σ T) (user_object : T)
      (store : σ) (m : Machine Properties), m.world = clockConfiguration →
      ∃ w, w = clockConfiguration ∧
        traverseProperties ⟨"sys", "part", true⟩ callback fuel "clock" "step_size" user_object 0
            store Env.storing m =
          (.ok (callEach callback [⟨[], "step_size", "100", "int"⟩,
              ⟨["unit"], "unit", "ms", "string"⟩] (fun _ => user_object, store)).2,
            { m with
              world := w
              calls := m.calls ++ ((Start.property ["clock"] "step_size").calls
                ⟨"sys", "part", true⟩ ⟨"100", "int", .cons "unit" "ms" "string" .nil .nil⟩).map
                  (·, false) })) :=
  have hexists : (Start.property ["clock"] "step_size").Exists clockConfiguration
    ⟨"100", "int", .cons "unit" "ms" "string" .nil .nil⟩ := ⟨by decide, rfl⟩
  (traverseProperties_visits clockConfiguration_wellNamed
    (storing_serves clockConfiguration_wellNamed _) hexists).1

end FepControl
