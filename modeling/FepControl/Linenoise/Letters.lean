/-
  Which characters there can be at the desk.

  The lines of the editor are C strings, so a NUL in one of them would end it early; and lines of
  the tool are read as words, so it matters whether a space or a quote can come in.  Such questions
  are all of one form: a property that every character has, of the history and of the keys, is one
  that every character of the line has.

  1. **Over** -- all the characters of the lines, of the draft and of what was cut are of one kind.
     A key is over the kind if the character that it inserts, if it does insert one, is.

  2. **Kept** -- no key brings in a character that it does not stand for, and a search or a
     completion only those of the entries and of the completions.  There is one lemma for each
     operation of the desk, and from these one for a whole line of moves (`Desk.Over.play`).
-/
import FepControl.Linenoise.Typing

namespace FepControl

namespace Linenoise

open Lib

/-! ## Over -/

section Letters

variable {P : UInt8 → Prop}

/-- All the characters are of the kind `P`. -/
structure Draft.Over (P : UInt8 → Prop) (d : Draft) : Prop where
  text : ∀ c ∈ d.zipper.text, P c
  cut : ∀ s, d.cut = some s → ∀ c ∈ s, P c

/-- All the characters at the desk are of the kind. -/
structure Desk.Over (P : UInt8 → Prop) (k : Desk) : Prop where
  lines : ∀ line ∈ k.lines, ∀ c ∈ line, P c
  draft : k.draft.Over P

/-- The key stands for a character of the kind, if it is one that is inserted. -/
def Key.Over (P : UInt8 → Prop) (key : Key) : Prop :=
  ∀ c, key = .char c → c = byte '\t' ∨ byte ' ' ≤ c → P c

/-- They are at the start, if those of the history are. -/
theorem Desk.start_over {history : History} (h : ∀ line ∈ history.lines, ∀ c ∈ line, P c) :
    (Desk.start history).Over P := by
  refine ⟨fun line hline c hc => ?_, fun c hc => absurd hc List.not_mem_nil,
    fun s hs => by cases hs⟩
  rcases History.mem_added hline with hold | rfl
  · exact h line hold c hc
  · exact absurd hc List.not_mem_nil

/-! ## Kept -/

namespace Draft.Over

variable {d : Draft} {bufmax : Int}

/-- An edit of the text that brings nothing in. -/
theorem of_subset (h : d.Over P) {z : Zipper UInt8} (hz : z.text ⊆ d.zipper.text) :
    ({ d with zipper := z } : Draft).Over P := ⟨fun c hc => h.text c (hz hc), h.cut⟩

/-- What is taken away is kept as what was cut. -/
theorem of_cut (h : d.Over P) {z : Zipper UInt8} {removed : List UInt8}
    (hz : z.text ⊆ d.zipper.text) (hremoved : removed ⊆ d.zipper.text) :
    (⟨z, if removed = [] then d.cut else some removed⟩ : Draft).Over P := by
  refine ⟨fun c hc => h.text c (hz hc), fun s hs c hc => ?_⟩
  by_cases hnil : removed = []
  · rw [if_pos hnil] at hs
    exact h.cut s hs c hc
  · rw [if_neg hnil] at hs
    cases hs
    exact h.text c (hremoved hc)

/-- Removing brings in nothing. -/
theorem removeBefore_subset (n : Nat) (z : Zipper UInt8) : (z.removeBefore n).text ⊆ z.text := by
  intro c hc
  rcases List.mem_append.mp hc with hc | hc
  · exact List.mem_append_left _ (List.mem_of_mem_take hc)
  · exact List.mem_append_right _ hc

/-- Nor behind the cursor. -/
theorem removeAfter_subset (n : Nat) (z : Zipper UInt8) : (z.removeAfter n).text ⊆ z.text := by
  intro c hc
  rcases List.mem_append.mp hc with hc | hc
  · exact List.mem_append_left _ hc
  · exact List.mem_append_right _ (List.mem_of_mem_drop hc)

/-- Nor does a change of places. -/
theorem transpose_subset (z : Zipper UInt8) : z.transpose.text ⊆ z.text := by
  intro c hc
  simp only [Zipper.transpose, Zipper.text, List.mem_append] at hc ⊢
  rcases hc with ((hc | hc) | hc) | hc
  · exact .inl (List.dropLast_subset _ hc)
  · exact .inr (List.mem_of_mem_take hc)
  · exact .inl (List.mem_of_mem_drop hc)
  · exact .inr (List.mem_of_mem_drop hc)

theorem insertAll (h : d.Over P) {s : List UInt8} (hs : ∀ c ∈ s, P c) :
    (d.insertAll bufmax s).Over P := by
  refine ⟨fun c hc => ?_, h.cut⟩
  simp only [Draft.insertAll, Zipper.insertAll, Zipper.text, List.mem_append] at hc
  rcases hc with (hc | hc) | hc
  · exact h.text c (List.mem_append_left _ hc)
  · exact hs c (List.mem_of_mem_take hc)
  · exact h.text c (List.mem_append_right _ hc)

/-- Stepping back changes no text. -/
theorem transposed_text (d : Draft) : d.transposed.text = d.zipper.text := by
  rw [Draft.transposed]
  split
  · exact d.zipper.text_left
  · rfl

theorem transpose (h : d.Over P) : (d.transpose bufmax).Over P := by
  rw [Draft.transpose]
  split
  · exact h
  · refine h.of_subset ?_
    rw [← transposed_text d]
    split
    · exact transpose_subset _
    · exact removeAfter_subset 1 _

/-- **A key that edits** brings in the character that it stands for, or none. -/
theorem press (h : d.Over P) {key : Key} (hkey : key.Over P) (l : Label) :
    (d.press bufmax key l).Over P := by
  cases l with
  | backspace => exact h.of_subset (removeBefore_subset 1 _)
  | ctrlD => exact h.of_subset (removeAfter_subset 1 _)
  | delete => exact h.of_subset (removeAfter_subset 1 _)
  | ctrlW =>
    exact h.of_cut (removeBefore_subset _ _)
      fun c hc => List.mem_append_left _ (List.mem_of_mem_drop hc)
  | ctrlU =>
    exact h.of_cut (removeBefore_subset _ _)
      fun c hc => List.mem_append_left _ (List.mem_of_mem_drop hc)
  | ctrlK =>
    exact h.of_cut (removeAfter_subset _ _)
      fun c hc => List.mem_append_right _ (List.mem_of_mem_take hc)
  | ctrlT => exact h.transpose
  | left => exact h.of_subset fun c hc => Zipper.text_left d.zipper ▸ hc
  | right => exact h.of_subset fun c hc => Zipper.text_right d.zipper ▸ hc
  | home => exact h.of_subset (List.Subset.refl _)
  | lineEnd => exact h.of_subset fun c hc => List.append_nil d.zipper.text ▸ hc
  | ctrlY =>
    show (d.yank bufmax).Over P
    rw [Draft.yank]
    cases hcut : d.cut with
    | none => exact h
    | some s => exact h.insertAll fun c hc => h.cut s hcut c ((List.takeWhile_subset _) hc)
  | other =>
    cases key with
    | eof => exact h
    | special s => exact h
    | char ch =>
      show (if ch = byte '\t' ∨ byte ' ' ≤ ch then d.insertAll bufmax [ch] else d).Over P
      by_cases hch : ch = byte '\t' ∨ byte ' ' ≤ ch
      · rw [if_pos hch]
        refine h.insertAll fun c hc => ?_
        rw [List.mem_singleton.mp hc]
        exact hkey ch rfl hch
      · rw [if_neg hch]
        exact h
  | _ => exact h

end Draft.Over

namespace Desk.Over

variable {k : Desk} {bufmax : Int}

theorem withText (h : k.Over P) {z : Zipper UInt8} (hz : ∀ c ∈ z.text, P c) :
    (k.withText z).Over P := ⟨h.lines, hz, h.draft.cut⟩

/-- The draft is written back. -/
theorem saved (h : k.Over P) : ∀ line ∈ k.saved, ∀ c ∈ line, P c := by
  intro line hline c hc
  rcases List.mem_or_eq_of_mem_set hline with hline | rfl
  · exact h.lines line hline c hc
  · exact h.draft.text c (List.takeWhile_subset _ hc)

/-- An entry, or the empty line where there is none. -/
theorem getD_over {lines : List (List UInt8)} (h : ∀ line ∈ lines, ∀ c ∈ line, P c) (i : Nat) :
    ∀ c ∈ lines.getD i [], P c := by
  intro c hc
  rw [List.getD_eq_getElem?_getD] at hc
  cases hline : lines[i]? with
  | none => rw [hline] at hc; cases hc
  | some line =>
    rw [hline] at hc
    exact h line (List.mem_of_getElem? hline) c hc

/-- Another entry is shown, and the draft written back. -/
theorem navigate (h : k.Over P) (dir : Int) : (k.navigate dir).Over P := by
  rw [Desk.navigate]
  split
  · exact h
  · split
    · refine ⟨h.saved, fun c hc => ?_, h.draft.cut⟩
      have hc : c ∈ k.saved.getD _ [] ++ [] := hc
      rw [List.append_nil] at hc
      exact getD_over h.saved _ c hc
    · exact ⟨h.saved, h.draft⟩

/-- **A key** brings in the character that it stands for, or none. -/
theorem press (h : k.Over P) {key : Key} (hkey : key.Over P) : (k.press bufmax key).Over P := by
  rw [Desk.press]
  split
  · exact h.navigate _
  · exact h.navigate _
  · exact h.navigate _
  · exact h.navigate _
  · exact ⟨h.lines, h.draft.press hkey _⟩

/-- Keys, one after the other. -/
theorem presses (h : k.Over P) {keys : List Key} (hkeys : ∀ key ∈ keys, key.Over P) :
    (keys.foldl (Desk.press bufmax) k).Over P := by
  induction keys generalizing k with
  | nil => exact h
  | cons key keys ih =>
    exact ih (h.press (hkeys key List.mem_cons_self))
      fun key' hin => hkeys key' (List.mem_cons_of_mem key hin)

/-- What a search finds is an entry. -/
theorem look_over (h : k.Over P) {pattern : List UInt8} {shown : Option (List UInt8)}
    {places : List Nat} {i : Nat} {z : Zipper UInt8}
    (hfound : Seek.look k.lines pattern shown places = some (i, z)) : ∀ c ∈ z.text, P c := by
  obtain ⟨j, -, hj⟩ := List.exists_of_findSome?_eq_some hfound
  split at hj
  · cases hj
  · rw [Option.map_eq_some_iff] at hj
    obtain ⟨n, -, heq⟩ := hj
    obtain ⟨rfl, rfl⟩ := Prod.mk.inj heq
    rw [Zipper.text_split]
    exact getD_over h.lines j

/-- A search shows an entry, or what was there. -/
theorem goTo_over (h : k.Over P) {s : Seek} (hs : ∀ c ∈ s.zipper.text, P c) (n : Nat)
    (searchdir : Int) {pattern : List UInt8} {shown : Option (List UInt8)} {places : List Nat} :
    ∀ c ∈ (s.goTo n searchdir (Seek.look k.lines pattern shown places)).zipper.text, P c := by
  cases hfound : Seek.look k.lines pattern shown places with
  | none => exact hs
  | some found => exact h.look_over hfound

/-- So does a whole dialogue. -/
theorem dialogue_over (h : k.Over P) : ∀ {queries : List Query} {s s' : Seek},
    (∀ c ∈ s.zipper.text, P c) → Seek.dialogue k.lines queries s = some s' →
      ∀ c ∈ s'.zipper.text, P c
  | [], s, s', hs, hrun => by cases hrun; exact hs
  | query :: queries, s, s', hs, hrun => by
      rw [Seek.dialogue, Option.bind_eq_some_iff] at hrun
      obtain ⟨s₁, hpress, hrun⟩ := hrun
      refine h.dialogue_over ?_ hrun
      cases query with
      | extend ch =>
        rw [Seek.press] at hpress
        split at hpress
        · cases hpress
        · cases hpress
          exact h.goTo_over hs _ _
      | erase => cases hpress; exact hs
      | earlier => cases hpress; exact h.goTo_over hs _ _
      | later => cases hpress; exact h.goTo_over hs _ _

/-- **A search** brings in the characters of the entries. -/
theorem search (h : k.Over P) {keys : List Key} {stop : Option Key} {k' : Desk}
    (hrun : k.search keys stop = some k') : k'.Over P := by
  rw [Desk.search, Option.map_eq_some_iff] at hrun
  obtain ⟨s, hdialogue, rfl⟩ := hrun
  refine h.withText ?_
  split
  · exact fun c hc => absurd hc List.not_mem_nil
  · exact h.dialogue_over h.draft.text hdialogue

/-- **A completion** brings in those of the completions, or the tabs themselves. -/
theorem complete (h : k.Over P) (hP : P (byte '\t')) {completionCallback : Option Callback}
    (hcallback : ∀ f, completionCallback = some f → ∀ input, ∀ s ∈ callback f input, ∀ c ∈ s, P c)
    (more : Nat) (next : Key) : (k.complete completionCallback bufmax more next).Over P := by
  have htabs : ((List.replicate (more + 1) (Key.char (byte '\t'))).foldl (Desk.press bufmax) k).Over
      P := by
    refine h.presses fun key hin c hc _ => ?_
    rw [List.eq_of_mem_replicate hin] at hc
    cases hc
    exact hP
  cases completionCallback with
  | none => exact htabs
  | some f =>
    have hcvec := hcallback f rfl k.text
    rw [Desk.complete]
    split
    · show (if callback f k.text = [] then k else _).Over P
      split
      · exact h
      · refine h.withText fun c hc => ?_
        rw [taken] at hc
        split at hc
        · exact h.draft.text c hc
        · split at hc
          · rename_i completion heq
            have hc : c ∈ completion.take (bufmax - 1).toNat ++ [] := hc
            rw [List.append_nil] at hc
            exact hcvec completion (List.mem_of_getElem? heq) c (List.mem_of_mem_take hc)
          · exact h.draft.text c hc
    · exact htabs

/-- **Any moves** bring in the characters of their keys, and those of the completions. -/
theorem play {completionCallback : Option Callback}
    (hcallback : ∀ f, completionCallback = some f → ∀ input, ∀ s ∈ callback f input, ∀ c ∈ s, P c)
    {ending : Ending} : ∀ {moves : List Move} {k k' : Desk}, k.Over P →
      (∀ key, .press key ∈ moves → key.Over P) →
      (∀ more, .complete more ∈ moves → P (byte '\t')) →
      k.play completionCallback bufmax ending moves = some k' → k'.Over P
  | [], k, k', h, _, _, hplay => by cases hplay; exact h
  | m :: moves, k, k', h, hkeys, htabs, hplay => by
      rw [Desk.play, Option.bind_eq_some_iff] at hplay
      obtain ⟨k₁, hmove, hplay⟩ := hplay
      refine Desk.Over.play hcallback ?_ (fun key hin => hkeys key (List.mem_cons_of_mem m hin))
        (fun more hin => htabs more (List.mem_cons_of_mem m hin)) hplay
      cases m with
      | press key => cases hmove; exact h.press (hkeys key List.mem_cons_self)
      | search keys stop => exact h.search hmove
      | complete more =>
        cases hmove
        exact h.complete (htabs more List.mem_cons_self) hcallback more _

end Desk.Over

end Letters

end Linenoise

end FepControl
