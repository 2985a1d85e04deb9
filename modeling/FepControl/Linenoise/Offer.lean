/-
  Completion as its user sees it: the completions are offered one after the other, and the line as
  it was comes behind the last one.

  The loop of `completeLine` is a dialogue of its own, with its own reading of keys.  What it does
  to the line is done at its end, by the key that is no tab; until then only the screen has changed.

  1. **taken** -- what a key makes of the line while a completion is offered.  Escape and the end of
     the input take none, and any other key takes the one that is shown, cut to the size of the
     line.

  2. **Rounds** -- a tab goes to the next offer, in a circle; any other key ends the loop.  There is
     a lemma for each of the two (`completeLoop_tab`, `completeLoop_key`).

  3. **The loop** -- it ends whatever is typed, since every round reads an event
     (`completeLoop_ok`); and for tabs and a key, it ends with what the key takes of the offer that
     the tabs have come to (`completeLine_tabs`).  Without completions there is no dialogue at all
     (`completeLine_none`).
-/
import FepControl.Linenoise.Sound

namespace FepControl

namespace Linenoise

open Lib

/-! ## Offers -/

/-- The line once a key was pressed at the `i`-th offer.  A key that begins with an escape takes
    nothing. -/
def taken (bufmax : Int) (cvec : List (List UInt8)) (i : Nat) (key : Key) (z : Zipper UInt8) :
    Zipper UInt8 :=
  if key = .eof ∨ key = .char 27 then z
  else match cvec[i]? with
    | some completion => .atEnd (completion.take (bufmax - 1).toNat)
    | none => z

/-! ## Rounds -/

section Rounds

variable {c c₁ : Current} {d : Draft}

/-- What is offered is shown, and not put into the line. -/
theorem showCompletion_turns (hd : c.Shows d) (cvec : List (List UInt8)) (i : Nat) :
    ∃ c', showCompletion cvec i c = .ok c' ∧ c.Turns d c' := by
  rw [showCompletion]
  cases cvec[i]? with
  | none => exact refreshLine_turns hd.turns c.prompt
  | some completion =>
    have hsize := getWindowSize_known (c := tmp c completion) (.inr hd.holds.sized)
    have hload : load (tmp c completion).buf 0 (tmp c completion).chars = some completion := by
      have := load_append [] completion [(0 : UInt8)]
      rw [tmp]
      simpa using this
    have hget : get_char (tmp c completion) (tmp c completion).pos = .ok none := by
      rw [get_char, if_neg]
      · rfl
      · show ¬ (0 ≤ (completion.length : Int) ∧ (completion.length : Int) < completion.length)
        omega
    obtain ⟨written, hrun⟩ := refreshLine_ok hsize hload hget c.prompt
    simp only [hrun, ok_bind]
    refine ⟨_, rfl, ⟨?_, ?_, ?_, ?_, ?_, ?_⟩, hd.capture, rfl, rfl, rfl, rfl⟩
    · exact hd.holds.buf
    · exact hd.holds.room
    · exact hd.holds.len
    · exact hd.holds.chars
    · exact hd.holds.pos
    · exact hd.holds.sized

/-- Another tab: the next offer. -/
theorem completeLoop_tab {cvec : List (List UInt8)} {i : Nat}
    (hshow : showCompletion cvec i c = .ok c₁) (h₁ : c.Turns d c₁)
    (hkey : (fd_read c₁.fd).1 = .char (byte '\t')) :
    ∃ c₂, c.Reaches d c₂ ∧ c₂.fd.input = (fd_read c₁.fd).2.input ∧ ∀ fuel,
      completeLoop cvec (fuel + 1) i c =
        completeLoop cvec fuel ((i + 1) % (cvec.length + 1)) c₂ := by
  have hread := h₁.reaches.trans (h₁.shows.reads (fd_read_reads c₁.fd).1)
  refine ⟨{ c₁ with fd := if (i + 1) % (cvec.length + 1) = cvec.length
    then (fd_read c₁.fd).2.write .beep else (fd_read c₁.fd).2 }, ?_, ?_, fun fuel => ?_⟩
  · split
    · exact hread.trans (hread.shows.reads (.of_same rfl rfl))
    · exact hread
  · show (if _ then _ else _ : Terminal).input = _
    split <;> rfl
  · rw [completeLoop, hshow, ok_bind]
    rcases hr : fd_read c₁.fd with ⟨key, fd⟩
    rw [hr] at hkey
    obtain rfl : key = .char (byte '\t') := hkey
    rfl

/-- Any other key ends the loop. -/
theorem completeLoop_key {cvec : List (List UInt8)} {i : Nat}
    (hcvec : ∀ completion ∈ cvec, 0 ∉ completion) (hshow : showCompletion cvec i c = .ok c₁)
    (h₁ : c.Turns d c₁) (hkey : (fd_read c₁.fd).1 ≠ .char (byte '\t')) (fuel : Nat) :
    ∃ c', completeLoop cvec (fuel + 1) i c = .ok ((fd_read c₁.fd).1, c') ∧
      c.Reaches { d with zipper := taken c.bufmax cvec i (fd_read c₁.fd).1 d.zipper } c' ∧
      c'.fd.input = (fd_read c₁.fd).2.input := by
  have hread := h₁.reaches.trans (h₁.shows.reads (fd_read_reads c₁.fd).1)
  have hmax : c₁.bufmax = c.bufmax := h₁.bufmax
  rw [completeLoop, hshow, ok_bind, taken]
  rcases hr : fd_read c₁.fd with ⟨key, fd⟩
  rw [hr] at hkey hread
  by_cases heof : key = .eof
  · simp only [if_pos heof, if_pos (show key = .eof ∨ key = .char 27 from .inl heof)]
    exact ⟨_, rfl, hread, rfl⟩
  · simp only [if_neg heof, if_neg hkey]
    by_cases hesc : key = .char 27
    · simp only [if_pos hesc, if_pos (show key = .eof ∨ key = .char 27 from .inr hesc)]
      by_cases hi : i < cvec.length
      · obtain ⟨c', hrefresh, hc'⟩ := refreshLine_turns hread.shows.turns c₁.prompt
        simp only [if_pos hi, hrefresh, ok_bind]
        exact ⟨c', rfl, hread.trans hc'.reaches, hc'.input⟩
      · simp only [if_neg hi]
        exact ⟨_, rfl, hread, rfl⟩
    · simp only [if_neg hesc, if_neg fun h : key = .eof ∨ key = .char 27 => h.elim heof hesc]
      cases hi : cvec[i]? with
      | none => exact ⟨_, rfl, hread, rfl⟩
      | some completion =>
        obtain ⟨c', hset, hc'⟩ := set_current_turns hread.shows (hcvec _ (List.mem_of_getElem? hi))
        have hc'' := hread.trans hc'.reaches
        rw [hread.bufmax] at hc''
        simp only [hset, ok_bind]
        exact ⟨c', rfl, hc'', hc'.input⟩

/-- The loop ends, whatever is typed. -/
theorem completeLoop_ok {cvec : List (List UInt8)} (hcvec : ∀ completion ∈ cvec, 0 ∉ completion) :
    ∀ (fuel i : Nat) {c : Current} {d : Draft}, c.Shows d → c.fd.input.length < fuel →
      ∃ key c' z, completeLoop cvec fuel i c = .ok (key, c') ∧ c.Reaches { d with zipper := z } c'
  | 0, _, _, _, _, hfuel => absurd hfuel (Nat.not_lt_zero _)
  | fuel + 1, i, c, d, hd, hfuel => by
      obtain ⟨c₁, hshow, h₁⟩ := showCompletion_turns hd cvec i
      by_cases hkey : (fd_read c₁.fd).1 = .char (byte '\t')
      · obtain ⟨c₂, hc₂, hinput, hloop⟩ := completeLoop_tab hshow h₁ hkey
        have hin : c₁.fd.input ≠ [] := by
          intro hnil
          rw [fd_read, fd_read_char, hnil] at hkey
          cases hkey
        have hlt := (fd_read_reads c₁.fd).2.1 hin
        rw [h₁.input] at hlt
        obtain ⟨key, c', z, hrun, hc'⟩ := completeLoop_ok hcvec fuel
          ((i + 1) % (cvec.length + 1)) hc₂.shows (by rw [hinput]; omega)
        exact ⟨key, c', z, by rw [hloop, hrun], hc₂.trans hc'⟩
      · obtain ⟨c', hrun, hc', -⟩ := completeLoop_key hcvec hshow h₁ hkey fuel
        exact ⟨_, c', _, hrun, hc'⟩

/-- **Tabs and a key**: the tabs go round the offers, and the key takes the one they come to. -/
theorem completeLoop_tabs {cvec : List (List UInt8)} (hcvec : ∀ completion ∈ cvec, 0 ∉ completion)
    (fuel : Nat) {ch : UInt8} (hch : ch ≠ byte '\t') (n : Nat) (rest : List Event) :
    ∀ (more i : Nat) {events : List Event} {c : Current} {d : Draft}, c.Shows d →
      i < cvec.length + 1 → Typed (List.replicate more (.char (byte '\t'))) events →
      c.fd.input = events ++ (pauses n ++ .byte ch :: rest) →
      ∃ c', completeLoop cvec (more + (fuel + 1)) i c = .ok (.char ch, c') ∧
        c.Reaches { d with
          zipper := taken c.bufmax cvec ((i + more) % (cvec.length + 1)) (.char ch) d.zipper } c' ∧
        c'.fd.input = rest
  | 0, i, _, c, d, hd, hi, rfl, hinput => by
      obtain ⟨c₁, hshow, h₁⟩ := showCompletion_turns hd cvec i
      have hread := fd_read_byte c₁.fd (h₁.input.trans hinput)
      obtain ⟨c', hrun, hc', hrest⟩ := completeLoop_key hcvec hshow h₁
        (by rw [hread]; exact fun heq => hch (Key.char.inj heq)) fuel
      rw [hread] at hrun hc' hrest
      have hround : (i + 0) % (cvec.length + 1) = i := Nat.mod_eq_of_lt hi
      rw [Nat.zero_add, hround]
      exact ⟨c', hrun, hc', hrest⟩
  | more + 1, i, _, c, d, hd, hi, ⟨m, events', rfl, htyped⟩, hinput => by
      obtain ⟨c₁, hshow, h₁⟩ := showCompletion_turns hd cvec i
      rw [List.append_assoc, List.append_assoc] at hinput
      have hread := fd_read_byte c₁.fd (h₁.input.trans hinput)
      obtain ⟨c₂, hc₂, hinput₂, hloop⟩ := completeLoop_tab hshow h₁ (by rw [hread])
      rw [hread] at hinput₂
      obtain ⟨c', hrun, hc', hrest⟩ := completeLoop_tabs hcvec fuel hch n rest more
        ((i + 1) % (cvec.length + 1)) hc₂.shows (Nat.mod_lt _ (Nat.succ_pos _)) htyped hinput₂
      rw [hc₂.bufmax, Nat.mod_add_mod, Nat.add_right_comm, Nat.add_assoc] at hc'
      exact ⟨c', by rw [Nat.add_right_comm, hloop, hrun], hc₂.trans hc', hrest⟩

/-- The completions are C strings. -/
theorem callback_strings (cpp_callback_function : Callback) (input : List UInt8) :
    ∀ completion ∈ callback cpp_callback_function input, 0 ∉ completion := by
  intro completion hmem
  obtain ⟨s, -, rfl⟩ := List.mem_map.mp hmem
  exact (takeWhile_nul 0 s).1

/-- Without completions `completeLine` beeps, and reads nothing. -/
theorem completeLine_none {cpp_callback_function : Callback} (hd : c.Shows d)
    (hnone : callback cpp_callback_function (d.zipper.text.takeWhile (· ≠ 0)) = []) :
    ∃ c', completeLine cpp_callback_function c = .ok (.char 0, c') ∧ c.Reaches d c' ∧
      c'.fd.input = c.fd.input := by
  rw [completeLine, hd.string.1, checked_some, ok_bind]
  simp only [if_pos hnone]
  exact ⟨_, rfl, hd.reads (.of_same rfl rfl), rfl⟩

/-- `completeLine`, whatever is typed. -/
theorem completeLine_ok (cpp_callback_function : Callback) (hd : c.Shows d) :
    ∃ key c' d', completeLine cpp_callback_function c = .ok (key, c') ∧ c.Reaches d' c' := by
  by_cases hnone : callback cpp_callback_function (d.zipper.text.takeWhile (· ≠ 0)) = []
  · obtain ⟨c', hrun, hc', -⟩ := completeLine_none hd hnone
    exact ⟨_, c', d, hrun, hc'⟩
  · rw [completeLine, hd.string.1, checked_some, ok_bind]
    simp only [if_neg hnone]
    obtain ⟨key, c', z, hrun, hc'⟩ :=
      completeLoop_ok (callback_strings _ _) _ 0 hd (Nat.lt_succ_self _)
    exact ⟨key, c', _, hrun, hc'⟩

/-- **Completion with the tab key**, up to the key that ends it. -/
theorem completeLine_tabs (cpp_callback_function : Callback) (hd : c.Shows d) {more : Nat}
    {ch : UInt8} (hch : ch ≠ byte '\t') {events rest : List Event} {n : Nat}
    (htyped : Typed (List.replicate more (.char (byte '\t'))) events)
    (hinput : c.fd.input = events ++ (pauses n ++ .byte ch :: rest))
    {cvec : List (List UInt8)}
    (hcvec : callback cpp_callback_function (d.zipper.text.takeWhile (· ≠ 0)) = cvec)
    (hsome : cvec ≠ []) :
    ∃ c', completeLine cpp_callback_function c = .ok (.char ch, c') ∧
      c.Reaches { d with
        zipper := taken c.bufmax cvec (more % (cvec.length + 1)) (.char ch) d.zipper } c' ∧
      c'.fd.input = rest := by
  have hstrings := callback_strings cpp_callback_function (d.zipper.text.takeWhile (· ≠ 0))
  rw [hcvec] at hstrings
  have hlen : more ≤ events.length := by
    have htabs : ∀ key ∈ List.replicate more (Key.char (byte '\t')), key ≠ .eof := by
      intro key hin
      rw [List.eq_of_mem_replicate hin]
      exact Key.char_ne_eof _
    have hlen := htyped.length_le htabs
    rwa [List.length_replicate] at hlen
  obtain ⟨spare, hfuel⟩ : ∃ spare, c.fd.input.length + 1 = more + (spare + 1) := by
    refine ⟨c.fd.input.length - more, ?_⟩
    rw [hinput, List.length_append]
    omega
  obtain ⟨c', hrun, hc', hrest⟩ :=
    completeLoop_tabs hstrings spare hch n rest more 0 hd (Nat.succ_pos _) htyped hinput
  rw [Nat.zero_add] at hc'
  rw [completeLine, hd.string.1, checked_some, ok_bind, hcvec]
  simp only [if_neg hsome, hfuel]
  exact ⟨c', hrun, hc', hrest⟩

end Rounds

end Linenoise

end FepControl
