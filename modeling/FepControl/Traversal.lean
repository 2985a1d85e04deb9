/-
  What `traverseProperties` does with a library that answers as a configuration says.

  The walk asks the library for everything: for the properties of a node, for their names, their
  values and their types, each in a call of its own, and each call may change the world behind the
  library.  Here this is put together once, for any callback, so that the modules on the renderings
  and on the visits speak of trees alone.

  1. **RepliesIn, Ends** -- the answers hold in a set of worlds that the calls do not leave.  From
     such a world a part of a handler makes a known list of calls, ends in a known way, and changes
     nothing of the machine but the world.  The parts compose (`Ends.bind`), and the calls are added
     up.

  2. **Paths** -- a child is addressed by the path of its node, a slash and its name, and without
     the slash below the root (`childPath`, `nextNode_child`).

  3. **Shows** -- the library shows this configuration from a start: below each property is what the
     tree has below it, at the path that the library makes of its name.

  4. **The walk** -- the callback sees what `Properties.fold` sees.  The recursion is as deep as the
     tree, so a tree that is deeper than the stack allows ends the process
     (`traverseProperties_ends`).  The induction is on the tree; the loop over the names of a node
     has a lemma of its own (`forEach_ends`).
-/
import FepControl.PropertyTree

namespace FepControl

open Lib

variable {W : Type}

/-! ## Parts of a handler that only read -/

/-- In the worlds of `I` the call is answered with `reply`, and leads to a world of `I`. -/
def RepliesIn (env : Env W) (I : W → Prop) (c : Call) (reply : c.Reply) : Prop :=
  ∀ w, I w → ∃ w', env.fep3 c w = (.ok reply, w') ∧ I w'

/-- From the worlds of `I` the computation makes the calls `cs`, none of which throws, ends as `o`
    says, and changes nothing but the world. -/
def Ends (env : Env W) (I : W → Prop) {α : Type} (c : Control W α) (o : Outcome String Stop α)
    (cs : List Call) : Prop :=
  ∀ m : Machine W, I m.world → ∃ w, I w ∧
    c env m = (o, { m with world := w, calls := m.calls ++ cs.map (·, false) })

namespace Ends

variable {env : Env W} {I : W → Prop} {α β : Type}

/-- Returning makes no call. -/
theorem pure (a : α) : Ends env I (Pure.pure a) (.ok a) [] := by
  intro m hm
  refine ⟨m.world, hm, ?_⟩
  rw [List.map_nil, List.append_nil]
  rfl

/-- Ending the process makes no call. -/
theorem stop (d : Stop) : Ends env I (Eff.stop d : Control W α) (.stops d) [] := by
  intro m hm
  refine ⟨m.world, hm, ?_⟩
  rw [List.map_nil, List.append_nil]
  rfl

/-- One call, and its reply. -/
theorem fep3 {c : Call} {reply : c.Reply} (h : RepliesIn env I c reply) :
    Ends env I (FepControl.fep3 c) (.ok reply) [c] := by
  intro m hm
  obtain ⟨w, hreply, hw⟩ := h m.world hm
  exact ⟨w, hw, fep3_ok hreply⟩

/-- Two parts, one after the other: the calls are added up. -/
theorem bind {c : Control W α} {a : α} {f : α → Control W β} {o : Outcome String Stop β}
    {cs cs' : List Call} (hc : Ends env I c (.ok a) cs) (hf : Ends env I (f a) o cs') :
    Ends env I (c >>= f) o (cs ++ cs') := by
  intro m hm
  obtain ⟨w, hw, hm₁⟩ := hc m hm
  obtain ⟨w', hw', hm₂⟩ := hf { m with world := w, calls := m.calls ++ cs.map (·, false) } hw
  refine ⟨w', hw', ?_⟩
  rw [Eff.bind_of_ok hm₁, hm₂, List.map_append, ← List.append_assoc]

/-- What ends the process has no successor. -/
theorem bind_stops {c : Control W α} {d : Stop} {cs : List Call}
    (hc : Ends env I c (.stops d) cs) (f : α → Control W β) :
    Ends env I (c >>= f) (.stops d) cs := by
  intro m hm
  obtain ⟨w, hw, hm₁⟩ := hc m hm
  refine ⟨w, hw, ?_⟩
  rw [Eff.bind_apply, hm₁]
  rfl

/-- The end of a part that returns: the session and what was written are as they were. -/
theorem returned {c : Control W α} {a : α} {cs : List Call} (h : Ends env I c (.ok a) cs)
    {m : Machine W} (hm : I m.world) :
    ∃ m', c env m = (.ok a, m') ∧ I m'.world ∧ m'.session = m.session ∧
      m'.written = m.written := by
  obtain ⟨w, hw, hend⟩ := h m hm
  exact ⟨_, hend, hw, rfl, rfl⟩

/-- What holds in every world gives the end from every state. -/
theorem always {c : Control W α} {o : Outcome String Stop α} {cs : List Call}
    (h : Ends env (fun _ => True) c o cs) : Eff.Always env c o := by
  intro m
  obtain ⟨w, -, hm⟩ := h m trivial
  rw [hm]

end Ends

/-! ## Paths -/

/-- The path of a property of a node; the root has the empty path. -/
def childPath (path name : String) : String :=
  if path = "" ∨ path.toList.getLast? = some '/' then path ++ name else path ++ "/" ++ name

/-- The path of the node that a rendering starts at. -/
def startPath (node prop_name : String) : String :=
  if prop_name = "" then node else childPath node prop_name

/-- The source makes the path of a property as the library does. -/
theorem nextNode_child (path : String) {name : String} (h : name ≠ "") :
    nextNode path name = childPath path name := by
  unfold nextNode childPath
  cases hlast : path.toList.getLast? with
  | none =>
    have hpath : path = "" := String.toList_eq_nil_iff.mp (List.getLast?_eq_none_iff.mp hlast)
    exact (if_pos (Or.inl hpath)).symm
  | some c =>
    have hpath : path ≠ "" := by
      rintro rfl
      cases hlast
    by_cases hc : c = '/'
    · subst hc
      exact (if_pos (Or.inr rfl)).symm
    · have hslash : ¬ (path = "" ∨ some c = some '/') := by
        rintro (h | h)
        · exact hpath h
        · exact hc (Option.some.inj h)
      rw [if_neg hslash]
      simp [h]

/-- The path that the walk starts with. -/
theorem nextNode_start (node prop_name : String) :
    nextNode node prop_name = startPath node prop_name := by
  unfold startPath
  by_cases h : prop_name = ""
  · subst h
    rw [if_pos rfl]
    unfold nextNode
    split
    · exact String.append_empty
    · exact String.append_empty
    · exact String.append_empty
  · rw [if_neg h, nextNode_child node h]

/-! ## Configurations -/

section

variable (env : Env W) (I : W → Prop) (part : ParticipantProxy)

/-- The library has these properties below the node at `path`, and below them what they have. -/
def Lists : String → Properties → Prop
  | _, .nil => True
  | path, .cons name value type sub_properties siblings =>
      name ≠ "" ∧ RepliesIn env I (.participant part (.getProperty path name)) value ∧
        RepliesIn env I (.participant part (.getPropertyType path name)) type ∧
        RepliesIn env I (.participant part (.getProperties (childPath path name))) (some ()) ∧
        RepliesIn env I (.participant part (.getPropertyNames (childPath path name)))
          sub_properties.names ∧
        Lists (childPath path name) sub_properties ∧ Lists path siblings

/-- The configuration that the library shows from a start: the value and the type of the property
    it starts at, if it is one, and the tree below. -/
structure Shows (node prop_name value type : String) (children : Properties) : Prop where
  properties : node ≠ "" → prop_name ≠ "" →
    RepliesIn env I (.participant part (.getProperties node)) (some ())
  value : node ≠ "" → prop_name ≠ "" →
    RepliesIn env I (.participant part (.getProperty node prop_name)) value
  type : node ≠ "" → prop_name ≠ "" →
    RepliesIn env I (.participant part (.getPropertyType node prop_name)) type
  own : RepliesIn env I (.participant part (.getProperties (startPath node prop_name))) (some ())
  names : RepliesIn env I (.participant part (.getPropertyNames (startPath node prop_name)))
    children.names
  below : Lists env I part (startPath node prop_name) children

end

/-! ## The walk -/

section

variable {env : Env W} {I : W → Prop}

/-- The calls that show a property of the node at `path` to the callback. -/
def propertyCalls (part : ParticipantProxy) (path name : String) : List Call :=
  [.participant part (.getProperties path), .participant part (.getProperty path name),
    .participant part (.getPropertyType path name)]

/-- The calls that ask for the names below the node at `path`. -/
def nodeCalls (part : ParticipantProxy) (path : String) : List Call :=
  [.participant part (.getProperties path), .participant part (.getPropertyNames path)]

/-- The calls of the walk over the properties below the node at `path`. -/
def Properties.calls (part : ParticipantProxy) : String → Properties → List Call
  | _, .nil => []
  | path, .cons name _ _ sub_properties siblings =>
      propertyCalls part path name ++ (nodeCalls part (childPath path name) ++
        (sub_properties.calls part (childPath path name) ++ siblings.calls part path))

variable {part : ParticipantProxy} {σ T : Type}

/-- **A visit** asks for the property, its value and its type, and calls the callback. -/
theorem visitProperty_ends (callback : Callback σ T) {node prop_name value type : String}
    (user_object : T) (depth : Nat) (store : σ)
    (h : depth ≠ 0 ∨ node ≠ "" ∧ prop_name ≠ "")
    (hproperties : RepliesIn env I (.participant part (.getProperties node)) (some ()))
    (hvalue : RepliesIn env I (.participant part (.getProperty node prop_name)) value)
    (htype : RepliesIn env I (.participant part (.getPropertyType node prop_name)) type) :
    Ends env I
      (visitProperty part callback node prop_name user_object depth store : Control W (T × σ))
      (.ok (callback prop_name value type depth user_object store))
      (propertyCalls part node prop_name) := by
  have hvisited : (depth != 0 || (node != "" && prop_name != "")) = true := by
    rcases h with h | ⟨hnode, hprop⟩
    · simp [h]
    · simp [hnode, hprop]
  unfold visitProperty
  rw [if_pos hvisited]
  exact (Ends.fep3 hproperties).bind ((Ends.pure _).bind
    ((Ends.fep3 hvalue).bind ((Ends.fep3 htype).bind (Ends.pure _))))

/-- A start without a node or without a name is not shown to the callback. -/
theorem visitProperty_skips (callback : Callback σ T) {node prop_name : String}
    (h : ¬ (node ≠ "" ∧ prop_name ≠ "")) (user_object : T) (store : σ) :
    Ends env I
      (visitProperty part callback node prop_name user_object 0 store : Control W (T × σ))
      (.ok (user_object, store)) [] := by
  unfold visitProperty
  rw [if_neg (by simpa using h)]
  exact Ends.pure _

/-- The second half of `traverseProperties`: a node is asked for its names, and what follows makes
    its own calls. -/
theorem node_ends {path : String} {names : List String} {α : Type} {f : List String → Control W α}
    {o : Outcome String Stop α} {cs : List Call}
    (hproperties : RepliesIn env I (.participant part (.getProperties path)) (some ()))
    (hnames : RepliesIn env I (.participant part (.getPropertyNames path)) names)
    (hf : Ends env I (f names) o cs) :
    Ends env I (do
      nonNull (← part.getProperties path)
      let sub_props ← part.getPropertyNames path
      f sub_props : Control W α) o (nodeCalls part path ++ cs) :=
  (Ends.fep3 hproperties).bind ((Ends.pure ()).bind ((Ends.fep3 hnames).bind hf))

/-- The loop over the children of a node visits the tree below it, if the stack is deep enough. -/
theorem forEach_ends (callback : Callback σ T) (props : Properties) :
    ∀ (path : String) (user_object : T) (depth fuel : Nat) (store : σ), depth ≠ 0 →
      RepliesIn env I (.participant part (.getProperties path)) (some ()) →
      Lists env I part path props →
      ∃ cs, (props.height ≤ fuel → cs = props.calls part path) ∧
        Ends env I (forEach (fun sub_prop store =>
          traverseProperties part callback fuel path sub_prop user_object depth store) props.names
            store : Control W σ)
          (if props.height ≤ fuel then .ok (props.fold callback user_object depth store)
            else .stops .stackExhausted) cs := by
  -- on the tree, for every path: the source makes the path anew at every property
  induction props with
  | nil =>
    intro path user_object depth fuel store _ _ _
    exact ⟨[], fun _ => rfl, Ends.pure store⟩
  | cons name value type sub_properties siblings ih_sub ih_siblings =>
    intro path user_object depth fuel store hdepth hproperties hlists
    obtain ⟨hname, hvalue, htype, hchild, hnames, hsub, hsiblings⟩ := hlists
    rw [Properties.names, forEach]
    cases fuel with
    | zero =>
      have hheight : ¬ (Properties.cons name value type sub_properties siblings).height ≤ 0 := by
        rw [Properties.height]
        omega
      rw [if_neg hheight]
      exact ⟨[], fun h => absurd h hheight, (Ends.stop _).bind_stops _⟩
    | succ fuel =>
      have hheight : (Properties.cons name value type sub_properties siblings).height ≤ fuel + 1 ↔
          sub_properties.height ≤ fuel ∧ siblings.height ≤ fuel + 1 := by
        rw [Properties.height]
        omega
      obtain ⟨visited, hvisited⟩ : ∃ visited, visited =
        callback name value type depth user_object store := ⟨_, rfl⟩
      have hvisit := visitProperty_ends callback user_object depth store (.inl hdepth)
        hproperties hvalue htype
      rw [← hvisited] at hvisit
      obtain ⟨cs, hcs, hends⟩ := ih_sub (childPath path name) visited.1 (depth + 1) fuel visited.2
        (Nat.succ_ne_zero depth) hchild hsub
      -- the property itself, and what is below it
      have hbelow : Ends env I
          (traverseProperties part callback (fuel + 1) path name user_object depth store :
            Control W σ)
          (if sub_properties.height ≤ fuel then .ok (sub_properties.fold callback
              visited.1 (depth + 1) visited.2) else .stops .stackExhausted)
          (propertyCalls part path name ++ (nodeCalls part (childPath path name) ++ cs)) := by
        rw [traverseProperties, nextNode_child path hname]
        exact hvisit.bind (node_ends hchild hnames hends)
      by_cases hdeep : sub_properties.height ≤ fuel
      · -- and its siblings
        rw [if_pos hdeep] at hbelow
        obtain ⟨cs', hcs', hends'⟩ := ih_siblings path user_object depth (fuel + 1)
          (sub_properties.fold callback visited.1 (depth + 1) visited.2) hdepth hproperties
          hsiblings
        rw [Properties.fold, ← hvisited]
        simp only [hheight, hdeep, true_and]
        refine ⟨_, fun h => ?_, hbelow.bind hends'⟩
        rw [Properties.calls, hcs hdeep, hcs' h]
        simp only [List.append_assoc]
      · rw [if_neg hdeep] at hbelow
        rw [if_neg fun h => hdeep (hheight.mp h).1]
        exact ⟨_, fun h => absurd (hheight.mp h).1 hdeep, hbelow.bind_stops _⟩

/-- What a callback makes of the configuration that a rendering sees. -/
def foldFrom (callback : Callback σ T) (node prop_name value type : String)
    (children : Properties) (user_object : T) (store : σ) : σ :=
  if node ≠ "" ∧ prop_name ≠ "" then
    let visited := callback prop_name value type 0 user_object store
    children.fold callback visited.1 1 visited.2
  else children.fold callback user_object 1 store

/-- The calls of a walk from a start. -/
def callsFrom (part : ParticipantProxy) (node prop_name : String) (children : Properties) :
    List Call :=
  (if node ≠ "" ∧ prop_name ≠ "" then propertyCalls part node prop_name else []) ++
    (nodeCalls part (startPath node prop_name) ++ children.calls part (startPath node prop_name))

/-- **The walk visits the configuration once, in preorder**, if the stack is deep enough. -/
theorem traverseProperties_ends (callback : Callback σ T) {node prop_name value type : String}
    {children : Properties} (h : Shows env I part node prop_name value type children)
    (user_object : T) (fuel : Nat) (store : σ) :
    ∃ cs, (children.height < fuel → cs = callsFrom part node prop_name children) ∧
      Ends env I
        (traverseProperties part callback fuel node prop_name user_object 0 store : Control W σ)
        (if children.height < fuel then
            .ok (foldFrom callback node prop_name value type children user_object store)
          else .stops .stackExhausted) cs := by
  obtain ⟨hproperties, hvalue, htype, hown, hnames, hbelow⟩ := h
  cases fuel with
  | zero =>
    have hheight : ¬ children.height < 0 := Nat.not_lt_zero _
    rw [if_neg hheight]
    exact ⟨[], fun h => absurd h hheight, Ends.stop _⟩
  | succ fuel =>
    have hchildren := fun user_object store => forEach_ends callback children
      (startPath node prop_name) user_object 1 fuel store Nat.one_ne_zero hown hbelow
    -- the first level of the recursion is the start's own, the others are the children's
    simp only [Nat.lt_succ_iff]
    rw [traverseProperties, nextNode_start]
    unfold foldFrom callsFrom
    by_cases hstart : node ≠ "" ∧ prop_name ≠ ""
    · simp only [if_pos hstart]
      have hvisit := visitProperty_ends callback user_object 0 store (.inr hstart)
        (hproperties hstart.1 hstart.2) (hvalue hstart.1 hstart.2) (htype hstart.1 hstart.2)
      obtain ⟨cs, hcs, hends⟩ := hchildren (callback prop_name value type 0 user_object store).1
        (callback prop_name value type 0 user_object store).2
      refine ⟨_, fun h => ?_, hvisit.bind (node_ends hown hnames hends)⟩
      rw [hcs h]
    · simp only [if_neg hstart]
      obtain ⟨cs, hcs, hends⟩ := hchildren user_object store
      refine ⟨_, fun h => ?_, (visitProperty_skips callback hstart user_object store).bind
        (node_ends hown hnames hends)⟩
      rw [hcs h]

/-- The walk, with the tree that is shown from its start. -/
theorem walk_ends (callback : Callback σ T) {node prop_name value type : String}
    {children : Properties} (h : Shows env I part node prop_name value type children)
    (user_object : T) (store : σ) :
    ∃ cs, Ends env I (walk part callback node prop_name user_object store : Control W σ)
      (if children.height < env.stackDepth then
          .ok (foldFrom callback node prop_name value type children user_object store)
        else .stops .stackExhausted) cs := by
  obtain ⟨cs, -, hends⟩ := traverseProperties_ends callback h user_object env.stackDepth store
  exact ⟨cs, hends⟩

end

end FepControl
