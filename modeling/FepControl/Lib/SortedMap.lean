/-
  Ordered maps with unique keys, as `std::map` keeps them: a list of entries in strictly ascending
  order of the keys.

  The order is carried by the structure, so a map that is out of order, or holds one key twice,
  cannot be built.  That matters where a program iterates over its map: what is shown is in the
  order of the keys, each key once, whatever was done to the map before.  There are three ways to
  put an entry in, and they differ in what they do with a key that is there already.  `operator[]`
  followed by an assignment replaces the value, `emplace` leaves it, and both add a key that is new.

  1. **Lists of entries** -- `Assoc.assign` and `Assoc.remove` work on plain lists, and what they do
     to `List.lookup` needs no order.

  2. **Maps** -- `SortedMap` wraps them.  `find?` is the lookup; every operation has one lemma that
     says what `find?` gives afterwards (`find?_assign`, `find?_emplace`, `find?_erase`), and
     `mem_entries` connects `find?` with the entries.

  3. **All** -- a property of the entries; every operation keeps it if the entry it adds has it.
-/

set_option linter.unusedSectionVars false

namespace Lib

variable {κ α : Type} [LT κ] [DecidableLT κ] [DecidableEq κ]

/-! ## Lists of entries -/

namespace Assoc

/-- Put `v` under `k`: over the entry of that key, or as a new entry at its place. -/
def assign (k : κ) (v : α) : List (κ × α) → List (κ × α)
  | [] => [(k, v)]
  | (k', v') :: l =>
      if k = k' then (k, v) :: l
      else if k < k' then (k, v) :: (k', v') :: l
      else (k', v') :: assign k v l

/-- Drop the entry of `k`. -/
def remove (k : κ) (l : List (κ × α)) : List (κ × α) := l.filter fun e => decide (e.1 ≠ k)

/-- The keys strictly ascend. -/
def Sorted (l : List (κ × α)) : Prop := l.Pairwise fun e e' => e.1 < e'.1

theorem lookup_cons (k k' : κ) (v : α) (l : List (κ × α)) :
    ((k', v) :: l).lookup k = if k = k' then some v else l.lookup k := by
  rw [List.lookup_cons]
  by_cases h : k = k'
  · rw [if_pos h, beq_iff_eq.mpr h]
  · rw [if_neg h, beq_eq_false_iff_ne.mpr h]

/-- Under the key there is the new value, and under every other key what was there. -/
theorem lookup_assign (k k' : κ) (v : α) : ∀ l : List (κ × α),
    (assign k v l).lookup k' = if k' = k then some v else l.lookup k'
  | [] => lookup_cons k' k v []
  | (j, w) :: l => by
      rw [assign]
      split
      · rename_i hkj
        subst hkj
        rw [lookup_cons, lookup_cons]
        split
        · rfl
        · rfl
      · rename_i hkj
        split
        · rw [lookup_cons]
        · rw [lookup_cons, lookup_cons, lookup_assign k k' v l]
          by_cases hj : k' = j
          · subst hj
            rw [if_pos rfl, if_neg (Ne.symm hkj), if_pos rfl]
          · rw [if_neg hj, if_neg hj]

/-- Under the key there is nothing any more. -/
theorem lookup_remove (k k' : κ) : ∀ l : List (κ × α),
    (remove k l).lookup k' = if k' = k then none else l.lookup k'
  | [] => by simp [remove]
  | (j, w) :: l => by
      have ih := lookup_remove k k' l
      unfold remove at ih ⊢
      rw [List.filter_cons]
      by_cases hj : j = k
      · subst hj
        rw [if_neg (by simp), ih, lookup_cons]
        by_cases hk : k' = j
        · rw [if_pos hk, if_pos hk]
        · rw [if_neg hk, if_neg hk, if_neg hk]
      · rw [if_pos (by simpa using hj), lookup_cons, lookup_cons, ih]
        by_cases hk : k' = j
        · rw [if_pos hk, if_pos hk, if_neg (by rw [hk]; exact hj)]
        · rw [if_neg hk, if_neg hk]

theorem mem_of_lookup {k : κ} {v : α} : ∀ {l : List (κ × α)}, l.lookup k = some v → (k, v) ∈ l
  | [], h => nomatch h
  | (j, w) :: l, h => by
      rw [lookup_cons] at h
      split at h
      · rename_i hkj
        obtain rfl := Option.some.inj h
        rw [hkj]; exact List.mem_cons_self
      · exact List.mem_cons_of_mem _ (mem_of_lookup h)

/-- `assign` adds no key but its own. -/
theorem of_mem_assign {k : κ} {v : α} {e : κ × α} : ∀ {l : List (κ × α)},
    e ∈ assign k v l → e = (k, v) ∨ e ∈ l
  | [], h => Or.inl (List.mem_singleton.mp h)
  | (j, w) :: l, h => by
      rw [assign] at h
      split at h
      · rcases List.mem_cons.mp h with h | h
        · exact Or.inl h
        · exact Or.inr (List.mem_cons_of_mem _ h)
      · split at h
        · exact List.mem_cons.mp h
        · rcases List.mem_cons.mp h with h | h
          · exact Or.inr (h ▸ List.mem_cons_self)
          · exact (of_mem_assign h).imp_right (List.mem_cons_of_mem _)

theorem sorted_remove (k : κ) {l : List (κ × α)} (h : Sorted l) : Sorted (remove k l) :=
  h.sublist List.filter_sublist

variable [LE κ] [Std.IsLinearOrder κ] [Std.LawfulOrderLT κ]

/-- An entry is put in at its place. -/
theorem sorted_assign (k : κ) (v : α) : ∀ {l : List (κ × α)}, Sorted l → Sorted (assign k v l)
  | [], _ => List.pairwise_singleton _ _
  | (j, w) :: l, h => by
      obtain ⟨hj, hl⟩ := List.pairwise_cons.mp h
      rw [assign]
      split
      · rename_i hkj
        exact List.pairwise_cons.mpr ⟨fun e he => hkj ▸ hj e he, hl⟩
      · rename_i hkj
        split
        · rename_i hlt
          refine List.pairwise_cons.mpr ⟨fun e he => ?_, h⟩
          rcases List.mem_cons.mp he with rfl | he
          · exact hlt
          · exact Std.lt_trans hlt (hj e he)
        · rename_i hnlt
          refine List.pairwise_cons.mpr ⟨fun e he => ?_, sorted_assign k v hl⟩
          rcases of_mem_assign he with rfl | he
          · rcases Std.lt_trichotomy k j with h' | h' | h'
            · exact absurd h' hnlt
            · exact absurd h' hkj
            · exact h'
          · exact hj e he

/-- In ascending order a key has one entry, the one `lookup` finds. -/
theorem lookup_of_mem {k : κ} {v : α} : ∀ {l : List (κ × α)}, Sorted l → (k, v) ∈ l →
    l.lookup k = some v
  | [], _, h => nomatch h
  | (j, w) :: l, hs, h => by
      obtain ⟨hj, hl⟩ := List.pairwise_cons.mp hs
      rw [lookup_cons]
      rcases List.mem_cons.mp h with h | h
      · obtain ⟨rfl, rfl⟩ := Prod.mk.inj h
        rw [if_pos rfl]
      · have hlt : j < k := hj _ h
        rw [if_neg (by rintro rfl; exact Std.lt_irrefl hlt), lookup_of_mem hl h]

end Assoc

/-! ## Maps -/

/-- A map from `κ` to `α`. -/
structure SortedMap (κ α : Type) [LT κ] where
  /-- the entries, in the order of iteration -/
  entries : List (κ × α)
  sorted : Assoc.Sorted entries

namespace SortedMap

/-- The map without entries. -/
def empty : SortedMap κ α := ⟨[], List.Pairwise.nil⟩

/-- `find(k)->second`, or `none` for `end()`. -/
def find? (m : SortedMap κ α) (k : κ) : Option α := m.entries.lookup k

/-- `erase(k)`. -/
def erase (m : SortedMap κ α) (k : κ) : SortedMap κ α :=
  ⟨Assoc.remove k m.entries, Assoc.sorted_remove k m.sorted⟩

/-- What is found after an `erase`. -/
theorem find?_erase (m : SortedMap κ α) (k k' : κ) :
    (m.erase k).find? k' = if k' = k then none else m.find? k' :=
  Assoc.lookup_remove k k' m.entries

variable [LE κ] [Std.IsLinearOrder κ] [Std.LawfulOrderLT κ]

/-- `m[k] = v`. -/
def assign (m : SortedMap κ α) (k : κ) (v : α) : SortedMap κ α :=
  ⟨Assoc.assign k v m.entries, Assoc.sorted_assign k v m.sorted⟩

/-- `m.emplace(k, v)`: a key that has an entry keeps it. -/
def emplace (m : SortedMap κ α) (k : κ) (v : α) : SortedMap κ α :=
  if (m.find? k).isSome then m else m.assign k v

/-- What is found after an assignment: the new value, whether the key was there or not. -/
theorem find?_assign (m : SortedMap κ α) (k k' : κ) (v : α) :
    (m.assign k v).find? k' = if k' = k then some v else m.find? k' :=
  Assoc.lookup_assign k k' v m.entries

/-- What is found after an `emplace`: of a key that was there, the old value. -/
theorem find?_emplace (m : SortedMap κ α) (k k' : κ) (v : α) :
    (m.emplace k v).find? k' =
      if k' = k then some ((m.find? k).getD v) else m.find? k' := by
  unfold emplace
  cases hk : m.find? k with
  | none =>
    rw [if_neg (by simp), find?_assign]; rfl
  | some w =>
    rw [if_pos (by simp)]
    split
    · rename_i h; rw [h, hk]; rfl
    · rfl

/-- Every entry has the property. -/
def All (p : κ → α → Prop) (m : SortedMap κ α) : Prop := ∀ k v, m.find? k = some v → p k v

variable {p : κ → α → Prop} {m : SortedMap κ α}

theorem All.empty : All p (empty : SortedMap κ α) := fun _ _ h => absurd h nofun

theorem All.erase (h : m.All p) (k : κ) : (m.erase k).All p := by
  intro k' v hfind
  rw [find?_erase] at hfind
  split at hfind
  · exact absurd hfind nofun
  · exact h k' v hfind

theorem All.assign (h : m.All p) {k : κ} {v : α} (hv : p k v) : (m.assign k v).All p := by
  intro k' v' hfind
  rw [find?_assign] at hfind
  split at hfind
  · rename_i hk
    obtain rfl := Option.some.inj hfind
    exact hk ▸ hv
  · exact h k' v' hfind

theorem All.emplace (h : m.All p) {k : κ} {v : α} (hv : p k v) : (m.emplace k v).All p := by
  unfold SortedMap.emplace
  split
  · exact h
  · exact h.assign hv

/-- The entries are what `find?` finds. -/
theorem mem_entries {m : SortedMap κ α} {k : κ} {v : α} :
    (k, v) ∈ m.entries ↔ m.find? k = some v :=
  ⟨Assoc.lookup_of_mem m.sorted, Assoc.mem_of_lookup⟩

end SortedMap

end Lib
