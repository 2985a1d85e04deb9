/-
  Paths that are written with slashes.

  There are two readings of a path: as the list of its names, from the root to the leaf, and as the
  string in which the names are joined by slashes.  A tree is addressed by the first, an interface
  by the second.  Between names that are not empty and have no slash the two are the same thing;
  with an empty name, or a slash in one, a string stands for more than one path, and nothing below
  is said of it.

  1. **joined** -- joined, the names have a slash between any two.  The empty path is the empty
     string, and among paths of proper names it is the only one (`joined_eq_empty`).

  2. **Segment** -- a name that can stand between slashes.  Of such names the string gives the path
     back (`segments_joined`).

  3. **Clean** -- the string has no slash more than it needs: none at its ends, and no two in a row
     (`clean_joined`).  The last slash of a joined path is therefore the one in front of the last
     name, which is how a path is split into a node and a leaf.
-/
import Mathlib.Data.List.Basic
import Mathlib.Data.List.Chain
import Mathlib.Data.List.Induction

namespace Lib

/-- A name that can stand between slashes. -/
def Segment (name : String) : Prop := name ≠ "" ∧ '/' ∉ name.toList

instance (name : String) : Decidable (Segment name) := by unfold Segment; infer_instance

/-- The path as one string. -/
def joined (path : List String) : String := "/".intercalate path

/-- The names in such a string. -/
def segments (s : String) : List String :=
  if s = "" then [] else (s.toList.splitOn '/').map String.ofList

/-- No slash at the start, none at the end, and never two in a row. -/
structure Clean (s : String) : Prop where
  start : s.toList.head? ≠ some '/'
  stop : s.toList.getLast? ≠ some '/'
  single : s.toList.IsChain fun c d => ¬ (c = '/' ∧ d = '/')

/-- A segment has a character. -/
theorem Segment.toList_ne_nil {name : String} (h : Segment name) : name.toList ≠ [] := by
  intro hnil
  exact h.1 (String.toList_eq_nil_iff.mp hnil)

@[simp] theorem joined_nil : joined [] = "" := String.intercalate_nil

@[simp] theorem joined_singleton (name : String) : joined [name] = name :=
  String.intercalate_singleton

/-- The path of a child. -/
theorem joined_append_singleton {path : List String} (h : path ≠ []) (name : String) :
    joined (path ++ [name]) = joined path ++ "/" ++ name := by
  unfold joined
  rw [String.intercalate_append_of_ne_nil h (List.cons_ne_nil name []),
    String.intercalate_singleton]

/-- The last name stands behind the last slash. -/
theorem toList_joined_append {path : List String} (h : path ≠ []) (name : String) :
    (joined (path ++ [name])).toList = (joined path).toList ++ '/' :: name.toList := by
  rw [joined_append_singleton h, String.toList_append, String.toList_append, List.append_assoc]
  rfl

/-- How a joined path ends: with the characters of its last name. -/
theorem toList_joined_suffix (path : List String) (name : String) :
    ∃ cs, (joined (path ++ [name])).toList = cs ++ name.toList ∧
      (path ≠ [] → cs = (joined path).toList ++ ['/']) := by
  by_cases h : path = []
  · subst h
    refine ⟨[], ?_, fun h => absurd rfl h⟩
    rw [List.nil_append, joined_singleton, List.nil_append]
  · refine ⟨(joined path).toList ++ ['/'], ?_, fun _ => rfl⟩
    rw [toList_joined_append h, List.append_assoc]
    rfl

section

variable {path : List String}

/-- A joined path ends as its last name does. -/
theorem getLast?_joined {name : String} (hname : Segment name) :
    (joined (path ++ [name])).toList.getLast? = name.toList.getLast? := by
  obtain ⟨cs, hcs, -⟩ := toList_joined_suffix path name
  rw [hcs, List.getLast?_append]
  cases hlast : name.toList.getLast? with
  | none => exact absurd (List.getLast?_eq_none_iff.mp hlast) hname.toList_ne_nil
  | some c => rfl

theorem Segment.getLast?_ne {name : String} (hname : Segment name) :
    name.toList.getLast? ≠ some '/' := by
  intro hlast
  exact hname.2 (List.mem_of_getLast? hlast)

/-- The last character of a path is no slash. -/
theorem getLast?_joined_ne (h : ∀ name ∈ path, Segment name) :
    (joined path).toList.getLast? ≠ some '/' := by
  rcases List.eq_nil_or_concat path with rfl | ⟨init, name, rfl⟩
  · rw [joined_nil]
    decide
  · have hname := h name (by simp)
    rw [List.concat_eq_append, getLast?_joined hname]
    exact hname.getLast?_ne

/-- Only the empty path is written as the empty string. -/
theorem joined_eq_empty (h : ∀ name ∈ path, Segment name) : joined path = "" ↔ path = [] := by
  constructor
  · intro hempty
    rcases List.eq_nil_or_concat path with rfl | ⟨init, name, rfl⟩
    · rfl
    · -- a path with a last name ends with its characters
      have hname := h name (by simp)
      obtain ⟨cs, hcs, -⟩ := toList_joined_suffix init name
      rw [← List.concat_eq_append, hempty, String.toList_empty] at hcs
      have hnil := (List.append_eq_nil_iff.mp hcs.symm).2
      exact absurd hnil hname.toList_ne_nil
  · rintro rfl
    exact joined_nil

/-- A single name is clean. -/
theorem Segment.clean {name : String} (hname : Segment name) : Clean name where
  start hhead := hname.2 (List.mem_of_mem_head? hhead)
  stop := hname.getLast?_ne
  single := List.Pairwise.isChain (List.pairwise_of_forall_mem_list fun _ hc _ _ hslash =>
    hname.2 (hslash.1 ▸ hc))

/-- **A joined path has no slash more than it needs.** -/
theorem clean_joined (h : ∀ name ∈ path, Segment name) : Clean (joined path) := by
  -- on the path from its end, as the walks make it
  induction path using List.reverseRecOn with
  | nil => exact ⟨by decide, by decide, by decide⟩
  | append_singleton path name ih =>
    have hname : Segment name := h name (by simp)
    have hpath : ∀ name ∈ path, Segment name := fun x hx => h x (by simp [hx])
    by_cases hnil : path = []
    · subst hnil
      rw [List.nil_append, joined_singleton]
      exact hname.clean
    · have hclean := ih hpath
      have hchars := toList_joined_append hnil name
      have hne : (joined path).toList ≠ [] := by
        intro hempty
        exact hnil ((joined_eq_empty hpath).mp (String.toList_eq_nil_iff.mp hempty))
      refine ⟨?_, getLast?_joined_ne h, ?_⟩
      · rw [hchars, List.head?_append_of_ne_nil _ hne]
        exact hclean.start
      · -- the slash that is put in has no slash before it and none behind it
        rw [hchars, List.isChain_split]
        constructor
        · rw [List.isChain_append]
          refine ⟨hclean.single, List.isChain_singleton _, ?_⟩
          intro c hc d _ hslash
          exact hclean.stop (hslash.1 ▸ hc)
        · rw [List.isChain_cons]
          refine ⟨fun d hd hslash => ?_, hname.clean.single⟩
          exact hname.clean.start (hslash.2 ▸ hd)

/-- **The string gives the path back.** -/
theorem segments_joined (h : ∀ name ∈ path, Segment name) : segments (joined path) = path := by
  unfold segments
  split
  · rename_i hempty
    exact ((joined_eq_empty h).mp hempty).symm
  · rename_i hne
    have hpath : path ≠ [] := fun hnil => hne ((joined_eq_empty h).mpr hnil)
    have hchars : (joined path).toList = ['/'].intercalate (path.map String.toList) :=
      String.toList_intercalate
    have hsplit : (['/'].intercalate (path.map String.toList)).splitOn '/' =
        path.map String.toList := by
      apply List.splitOn_intercalate
      · intro cs hcs
        obtain ⟨name, hname, rfl⟩ := List.mem_map.mp hcs
        exact (h name hname).2
      · simpa using hpath
    rw [hchars, hsplit, List.map_map]
    have hid : String.ofList ∘ String.toList = id := by
      funext s
      exact String.ofList_toList
    rw [hid, List.map_id]

end

end Lib
