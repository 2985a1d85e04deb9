/-
  Every round of the line editor, for any input: it stays inside its arrays but for `rbuf`, and the
  loop ends.

  Here the input is any list of events, not the keys that a user has in mind: sequences may be cut
  off, bytes may come late, and the terminal may hang up anywhere.  So nothing is said of what the
  line becomes, only that there is a line, and that the loop comes back.

  1. **A round** -- every branch of the `switch` keeps the editor sound, and leaves fewer events or
     ends.  What can go wrong is said once, by `Editor.MayFail`: the pattern of a search overruns
     `rbuf`, or a terminal that does not report its width replies to `queryCursor` with nonsense.

  2. **The measure** -- `roundsLeft` counts two rounds for an event and one for a key that waits.  A
     key of a search has been read before it is processed, and that event has paid for both rounds.

  3. **The loop** -- by induction on the rounds it is given: a step that goes on leaves fewer of
     them (`editLoop_meets`), and what may fail later could have failed before
     (`Editor.MayFail.earlier`).

  4. **The whole edit** -- `linenoise` returns a string that fits into the line, and leaves a sound
     history, so that the next call can be said the same of (`linenoise_meets`).
-/
import FepControl.Linenoise.Offer
import FepControl.Linenoise.Seek

namespace FepControl

namespace Linenoise

open Lib

/-! ## A round -/

/-- What can go wrong while a line is edited. -/
def Editor.MayFail (e : Editor) (f : Fault) : Prop :=
  (f = .outside .rbuf ∧ 1 < e.history.len) ∨ (f.ofQuery ∧ ¬ e.current.fd.Reports)

/-- What a round keeps, and what it hands over at its end. -/
def Step.Keeps (e : Editor) : Step → Prop
  | .again e' =>
      e'.Sound ∧ e'.history.len = e.history.len ∧ ∃ d, e.current.Reaches d e'.current
  | .goto_process_char _ e' =>
      e'.Sound ∧ e'.history.len = e.history.len ∧ ∃ d, e.current.Reaches d e'.current
  | .returned count _ e' => e'.history.Sound e'.current.bufmax ∧
      (count = -1 ∨ count = e'.current.len) ∧ ∃ d, e.current.Reaches d e'.current

/-- A bound for the rounds that are left: two for an event, and one for a key that waits. -/
def roundsLeft (pending : Option Key) (e : Editor) : Nat :=
  2 * e.current.fd.input.length +
    match pending with
    | none => 2
    | some c => if c = .eof then 1 else 3

/-- The rounds that are left behind a step. -/
def Step.left : Step → Nat
  | .again e => roundsLeft none e
  | .goto_process_char c e => roundsLeft (some c) e
  | .returned _ _ _ => 0

section Round

variable {e : Editor}

/-- What can go wrong later could have gone wrong before. -/
theorem Editor.MayFail.earlier {e' : Editor} {f : Fault} (h : e'.MayFail f)
    (hlen : e'.history.len = e.history.len) (hreads : e.current.fd.Reads e'.current.fd) :
    e.MayFail f := by
  rcases h with ⟨hf, hlong⟩ | ⟨hf, hreports⟩
  · exact .inl ⟨hf, by rw [← hlen]; exact hlong⟩
  · exact .inr ⟨hf, mt hreads.reports hreports⟩

/-- `ctrl-l`, whatever the terminal replies. -/
theorem clear_meets {c : Current} {d : Draft} (h : c.Shows d) :
    Meets (fun f => f.ofQuery ∧ ¬ c.fd.Reports) (clear c) (c.Reaches d) := by
  have hshow := refreshLine_meets h.holds c.prompt 0 (c.fd.write .clearScreen)
  refine hshow.mono ?_ fun f hf => ⟨hf.2, fun hreports => hreports.ws_col hf.1⟩
  rintro c' ⟨hholds, hcapture, hbufmax, hprompt, hreads⟩
  have hclear : c.fd.Reads (c.fd.write .clearScreen) := .of_same rfl rfl
  exact ⟨⟨hholds, hcapture.trans h.capture⟩, hbufmax, hprompt, hclear.trans hreads⟩

/-- The editor after its line was changed and some input read. -/
theorem Editor.Sound.current (h : e.Sound) {c' : Current} {d : Draft}
    (hc : e.current.Reaches d c') :
    ({ e with current := c' } : Editor).Sound where
  shows := ⟨d, hc.shows⟩
  history := by
    show History.Sound c'.bufmax e.history
    rw [hc.bufmax]
    exact h.history
  index := h.index
  alone := h.alone

/-- An edit of the line leaves no more of them. -/
theorem roundsLeft_le {c' : Current} {d : Draft} (h : e.current.Reaches d c') :
    roundsLeft none { e with current := c' } ≤ roundsLeft none e := by
  have := h.input.length_le
  show 2 * c'.fd.input.length + 2 ≤ 2 * e.current.fd.input.length + 2
  omega

/-- A branch that changes the line goes on, and nothing else is changed. -/
theorem Step.keeps_again (h : e.Sound) {c' : Current} {d : Draft} (hc : e.current.Reaches d c') :
    (Step.again { e with current := c' }).Keeps e ∧
      (Step.again { e with current := c' }).left ≤ roundsLeft none e :=
  ⟨⟨h.current hc, rfl, d, hc⟩, roundsLeft_le hc⟩

/-- To go to another entry reads nothing. -/
theorem navigation_meets (h : e.Sound) (dir : Int) :
    Meets e.MayFail (do return Step.again (← historyNavigation dir e)) fun step =>
      step.Keeps e ∧ step.left ≤ roundsLeft none e := by
  obtain ⟨e', d', hrun, hsound, hlen, hc'⟩ := historyNavigation_sound h dir
  have := hc'.input.length_le
  refine .of_ok ⟨.again e', by rw [hrun]; rfl, ⟨hsound, hlen, d', hc'⟩, ?_⟩
  show 2 * e'.current.fd.input.length + 2 ≤ 2 * e.current.fd.input.length + 2
  omega

/-- The line ends, and its entry goes. -/
theorem pop_meets (h : e.Sound) {count : Int} (hcount : count = -1 ∨ count = e.current.len) :
    Meets e.MayFail
      (do let history ← e.history.pop; pure (Step.returned count false { e with history }))
      fun step => step.Keeps e ∧ step.left ≤ roundsLeft none e := by
  obtain ⟨d, hd⟩ := h.shows
  obtain ⟨history', hpop, hsound, -⟩ := h.history.pop h.lines_ne
  exact .of_ok ⟨.returned count false { e with history := history' }, by rw [hpop]; rfl,
    ⟨hsound, hcount, d, hd.reaches⟩, Nat.zero_le _⟩

/-- A search that overruns `rbuf` has found an entry of 49 characters, so the line is not the only
    entry. -/
theorem Editor.Sound.mayFail_of_overrun (h : e.Sound) {f : Fault} (hf : e.history.Overrun f) :
    e.MayFail f := by
  obtain ⟨hf, line, hmem, hline⟩ := hf
  refine .inl ⟨hf, Int.not_le.mp fun hone => ?_⟩
  rw [h.alone hone, List.mem_singleton] at hmem
  rw [hmem] at hline
  exact absurd hline (by decide)

/-- A search hands its last key over, which it has read. -/
theorem search_meets (h : e.Sound) (key : Key) :
    Meets e.MayFail (processLabel key e .ctrlR) fun step =>
      step.Keeps e ∧ step.left ≤ roundsLeft none e := by
  obtain ⟨d, hd⟩ := h.shows
  have hne : 0 < e.history.len := by have := h.index; omega
  rw [processLabel]
  refine ((reverseSearch_meets hne h.history hd).mono (fun _ hq => hq)
    fun _ => h.mayFail_of_overrun).bind ?_
  rintro ⟨key', c'⟩ hend
  obtain ⟨z, hc'⟩ := hend.line
  refine .pure ⟨⟨h.current hc', rfl, _, hc'⟩, ?_⟩
  show 2 * c'.fd.input.length + (if key' = .eof then 1 else 3) ≤
    2 * e.current.fd.input.length + 2
  by_cases hnil : e.current.fd.input = []
  · have hle : c'.fd.input.length ≤ e.current.fd.input.length := hc'.input.length_le
    rw [if_pos (hend.atEnd hnil)]
    omega
  · have hlt : c'.fd.input.length < e.current.fd.input.length := hend.progress hnil
    split <;> omega

/-- **Every branch of the `switch`** keeps the editor sound, and leaves no more rounds. -/
theorem processLabel_meets (h : e.Sound) (key : Key) (l : Label) :
    Meets e.MayFail (processLabel key e l) fun step =>
      step.Keeps e ∧ step.left ≤ roundsLeft none e := by
  obtain ⟨d, hd⟩ := h.shows
  have hedits : l.edits = true → (l = .ctrlD → d.zipper.text ≠ []) → l ≠ .ctrlL →
      Meets e.MayFail (processLabel key e l) fun step =>
        step.Keeps e ∧ step.left ≤ roundsLeft none e := by
    intro hl hD hL
    obtain ⟨c', hrun, hc'⟩ := processLabel_edits hd hl hD (fun heq => absurd heq hL) key
    exact .of_ok ⟨_, hrun, Step.keeps_again h hc'.reaches⟩
  by_cases hkey : l.edits = true ∧ l ≠ .ctrlD ∧ l ≠ .ctrlL
  · exact hedits hkey.1 (fun heq => absurd heq hkey.2.1) hkey.2.2
  cases l with
  | enter => exact pop_meets h (.inr rfl)
  | ctrlC => exact .pure ⟨⟨h.history, .inl rfl, d, hd.reaches⟩, Nat.zero_le _⟩
  | ctrlD =>
    by_cases hlen : e.current.len = 0
    · rw [processLabel, if_pos hlen]
      exact pop_meets h (.inl rfl)
    · refine hedits rfl (fun _ hnil => hlen ?_) (by decide)
      rw [hd.holds.len, hnil]
      rfl
  | ctrlL =>
    rw [processLabel, Editor.edit]
    refine ((clear_meets hd).mono (fun _ h => h) fun _ => .inr).bind fun c' hc' => ?_
    exact .pure (Step.keeps_again h hc')
  | ctrlR => exact search_meets h key
  | ctrlV =>
    rw [processLabel]
    obtain ⟨d', c', hrun, hc'⟩ := quotedInsert_reaches hd (ctrl 'V')
    exact .of_ok ⟨_, Editor.edit_of_ok hrun, Step.keeps_again h hc'⟩
  | pageUp => exact navigation_meets h _
  | pageDown => exact navigation_meets h _
  | up => exact navigation_meets h _
  | down => exact navigation_meets h _
  | _ => exact absurd (by decide) hkey

/-- A step behind an edit of the line. -/
theorem Step.Keeps.trans {c₁ : Current} {d : Draft} {step : Step} (h : e.current.Reaches d c₁)
    (hstep : step.Keeps { e with current := c₁ }) : step.Keeps e := by
  cases step with
  | again e' => exact ⟨hstep.1, hstep.2.1, hstep.2.2.imp fun _ h' => h.trans h'⟩
  | goto_process_char c e' => exact ⟨hstep.1, hstep.2.1, hstep.2.2.imp fun _ h' => h.trans h'⟩
  | returned count eagain e' => exact ⟨hstep.1, hstep.2.1, hstep.2.2.imp fun _ h' => h.trans h'⟩

/-- `process_char`; at the end of the input it returns. -/
theorem process_char_meets (h : e.Sound) (c : Key) :
    Meets e.MayFail (process_char c e) fun step =>
      step.Keeps e ∧ step.left < roundsLeft (some c) e ∧ (c = .eof → step.left = 0) ∧
        step.left ≤ roundsLeft none e := by
  obtain ⟨d, hd⟩ := h.shows
  rw [process_char]
  by_cases heof : c = .eof
  · rw [if_pos heof]
    refine .pure ⟨⟨h.history, .inr rfl, d, hd.reaches⟩, ?_, fun _ => rfl, Nat.zero_le _⟩
    show 0 < 2 * e.current.fd.input.length + (if c = .eof then 1 else 3)
    split <;> omega
  · rw [if_neg heof]
    obtain ⟨c₁, fd, hspecial, hfd⟩ : ∃ c₁ fd, (if c = .char 27 then check_special e.current.fd
        else (c, e.current.fd)) = (c₁, fd) ∧ e.current.fd.Reads fd := by
      by_cases hesc : c = .char 27
      · exact ⟨_, _, if_pos hesc, check_special_reads _⟩
      · exact ⟨_, _, if_neg hesc, .refl _⟩
    have hreads := hd.reads hfd
    simp only [hspecial]
    refine (processLabel_meets (h.current hreads) c₁ (labelOf c₁)).mono ?_
      fun _ hf => hf.earlier rfl hreads.reads
    rintro step ⟨hkeeps, hleft⟩
    have hle := Nat.le_trans hleft (roundsLeft_le hreads)
    refine ⟨hkeeps.trans hreads, Nat.lt_of_le_of_lt hle ?_, fun heq => absurd heq heof, hle⟩
    show 2 * e.current.fd.input.length + 2 <
      2 * e.current.fd.input.length + (if c = .eof then 1 else 3)
    rw [if_neg heof]
    omega

/-- The round that reads a key. -/
theorem readKey_meets (completionCallback : Option Callback) (h : e.Sound) :
    Meets e.MayFail (readKey completionCallback e) fun step =>
      step.Keeps e ∧ step.left < roundsLeft none e := by
  obtain ⟨d, hd⟩ := h.shows
  obtain ⟨hreading, hlt, -⟩ := fd_read_reads e.current.fd
  have hreads := hd.reads hreading
  have hend : e.current.fd.input = [] → (fd_read e.current.fd).1 = .eof := by
    intro hnil
    rw [fd_read, fd_read_char, hnil]
    rfl
  rw [readKey]
  rcases hr : fd_read e.current.fd with ⟨c, fd⟩
  rw [hr] at hreads hlt hend
  -- the rest of the round, with less input, or at its end
  have hrest : ∀ {c' : Current} {d' : Draft} {key : Key}, e.current.Reaches d' c' →
      (e.current.fd.input ≠ [] → c'.fd.input.length < e.current.fd.input.length) →
      (e.current.fd.input = [] → key = .eof) →
      Meets e.MayFail (process_char key { e with current := c' }) fun step =>
        step.Keeps e ∧ step.left < roundsLeft none e := by
    intro c' d' key hc' hprogress hkey
    refine (process_char_meets (h.current hc') key).mono ?_
      fun _ hf => hf.earlier rfl hc'.reads
    rintro step ⟨hkeeps, -, hzero, hle⟩
    refine ⟨hkeeps.trans hc', ?_⟩
    show step.left < 2 * e.current.fd.input.length + 2
    by_cases hnil : e.current.fd.input = []
    · rw [hzero (hkey hnil)]
      omega
    · have := hprogress hnil
      have : step.left ≤ 2 * c'.fd.input.length + 2 := hle
      omega
  cases completionCallback with
  | none => exact hrest hreads hlt hend
  | some cpp_callback_function =>
    by_cases htab : c = .char (byte '\t') ∧ e.current.pos = e.current.chars
    · have hin : e.current.fd.input ≠ [] := fun hnil => by
        rw [htab.1] at hend
        exact absurd (hend hnil) (Key.char_ne_eof _)
      obtain ⟨key, c', d', hrun, hc'⟩ := completeLine_ok cpp_callback_function hreads.shows
      have hc₁ := hreads.trans hc'
      have hless : c'.fd.input.length < e.current.fd.input.length :=
        Nat.lt_of_le_of_lt hc'.input.length_le (hlt hin)
      simp only [if_pos htab, hrun, ok_bind]
      by_cases heof : key = .eof
      · rw [if_pos heof]
        refine .pure ⟨⟨(h.current hc₁).history, .inr rfl, d', hc₁⟩, ?_⟩
        show 0 < 2 * e.current.fd.input.length + 2
        omega
      · rw [if_neg heof]
        by_cases hzero : key = .char 0
        · rw [if_pos hzero]
          refine .pure ⟨⟨h.current hc₁, rfl, d', hc₁⟩, ?_⟩
          show 2 * c'.fd.input.length + 2 < 2 * e.current.fd.input.length + 2
          omega
        · rw [if_neg hzero]
          exact hrest hc₁ (fun _ => hless) fun hnil => absurd hnil hin
    · simp only [if_neg htab]
      exact hrest hreads hlt hend

/-- How the editor ends. -/
structure Ended (e : Editor) (count : Int) (e' : Editor) : Prop where
  history : e'.history.Sound e'.current.bufmax
  count : count = -1 ∨ count = e'.current.len
  line : ∃ d, e.current.Reaches d e'.current

/-- **The loop ends**, whatever is typed. -/
theorem editLoop_meets (completionCallback : Option Callback) :
    ∀ (fuel : Nat) (pending : Option Key) {e : Editor}, e.Sound → roundsLeft pending e ≤ fuel →
      Meets e.MayFail (editLoop completionCallback fuel pending e)
        fun (count, _, e') => Ended e count e'
  | 0, pending, e, _, hfuel => by
      exfalso
      unfold roundsLeft at hfuel
      split at hfuel
      · omega
      · split at hfuel <;> omega
  | fuel + 1, pending, e, h, hfuel => by
      have hround : Meets e.MayFail (round completionCallback e pending) fun step =>
          step.Keeps e ∧ step.left < roundsLeft pending e := by
        cases pending with
        | none => exact readKey_meets completionCallback h
        | some c =>
          exact (process_char_meets h c).mono (fun step hstep => ⟨hstep.1, hstep.2.1⟩) fun _ => id
      rw [editLoop]
      refine hround.bind ?_
      rintro step ⟨hkeeps, hleft⟩
      have hfuel' : step.left ≤ fuel := by omega
      cases step with
      | again e' =>
        obtain ⟨hsound, hlen, d, hd⟩ := hkeeps
        refine (editLoop_meets completionCallback fuel none hsound hfuel').mono ?_
          fun _ hf => hf.earlier hlen hd.reads
        rintro ⟨count, eagain, e''⟩ hend
        exact ⟨hend.history, hend.count, hend.line.imp fun _ h' => hd.trans h'⟩
      | goto_process_char c e' =>
        obtain ⟨hsound, hlen, d, hd⟩ := hkeeps
        refine (editLoop_meets completionCallback fuel (some c) hsound hfuel').mono ?_
          fun _ hf => hf.earlier hlen hd.reads
        rintro ⟨count, eagain, e''⟩ hend
        exact ⟨hend.history, hend.count, hend.line.imp fun _ h' => hd.trans h'⟩
      | returned count eagain e' => exact .pure ⟨hkeeps.1, hkeeps.2.1, hkeeps.2.2⟩

end Round

/-! ## The whole edit -/

section Whole

variable (completionCallback : Option Callback) {history : History} {buf : List UInt8}

/-- The editor before the first round: an empty line, which is also the newest entry. -/
def History.editor (history : History) (c : Current) : Editor :=
  ⟨c, { history with lines := history.opened }, 0⟩

/-- The editor is sound when the loop begins. -/
theorem History.Sound.editor (h : history.Sound LINENOISE_MAX_LINE) {c : Current}
    (hc : c.Shows ⟨.atEnd [], none⟩) (hmax : c.bufmax = LINENOISE_MAX_LINE) :
    (history.editor c).Sound := by
  have hlast : history.opened.getLast? = some [] := history.getLast?_added []
  refine ⟨⟨_, hc⟩, ?_, ?_, ?_⟩
  · rw [show (history.editor c).current = c from rfl, hmax]
    exact h.add List.not_mem_nil (by decide)
  · have hpos : 0 < history.opened.length := by
      rcases hnil : history.opened with _ | ⟨x, xs⟩
      · rw [hnil] at hlast; cases hlast
      · exact Nat.succ_pos _
    show 0 ≤ (0 : Int) ∧ (0 : Int) < history.opened.length
    omega
  · intro hone
    have hone : (history.opened.length : Int) ≤ 1 := hone
    show history.opened = [[]]
    rcases hlines : history.opened with _ | ⟨x, _ | ⟨y, ys⟩⟩
    · rw [hlines] at hlast; cases hlast
    · rw [hlines] at hlast
      cases hlast
      rfl
    · rw [hlines, List.length_cons, List.length_cons] at hone
      omega

/-- The line is emptied, and then shown without the width being known. -/
theorem linenoiseEdit_eq (h : history.Sound LINENOISE_MAX_LINE)
    (hbuf : buf.length = LINENOISE_MAX_LINE) (prompt : List UInt8) (fd : Terminal) :
    ∃ c : Current, c.Shows ⟨.atEnd [], none⟩ ∧ c.bufmax = LINENOISE_MAX_LINE ∧ c.prompt = prompt ∧
      c.fd = fd ∧ linenoiseEdit completionCallback history (newCurrent buf prompt fd) =
        (do
          let current ← refreshLine c.prompt { c with cols := 0 }
          editLoop completionCallback (2 * current.fd.input.length + 2) none
            (history.editor current)) := by
  obtain ⟨ret, hadd⟩ := linenoiseHistoryAdd_added h.pos h.fits []
  have hsize : (buf.length : Int) = LINENOISE_MAX_LINE := by rw [hbuf]
  have hroom : (0 : Int) < LINENOISE_MAX_LINE := by decide
  have hone : (1 : Int) ≠ 0 := by decide
  obtain ⟨c, hset, hc, hfd⟩ := set_current_holds (c := { newCurrent buf prompt fd with cols := 1 })
    hsize hroom hone (show (0 : UInt8) ∉ [] from List.not_mem_nil)
  rw [List.take_nil] at hc
  refine ⟨c, ⟨hc.holds, hc.capture⟩, hc.bufmax, hc.prompt, hfd, ?_⟩
  rw [linenoiseEdit, hadd, ok_bind, set_current_cols hset]
  rfl

/-- Where the width of the window is reported, the first round follows. -/
theorem linenoiseEdit_starts (h : history.Sound LINENOISE_MAX_LINE)
    (hbuf : buf.length = LINENOISE_MAX_LINE) (prompt : List UInt8) {fd : Terminal}
    (hws : fd.ws_col ≠ 0) :
    ∃ c, linenoiseEdit completionCallback history (newCurrent buf prompt fd) =
        editLoop completionCallback (2 * fd.input.length + 2) none (history.editor c) ∧
      (history.editor c).Sound ∧ (newCurrent buf prompt fd).Turns ⟨.atEnd [], none⟩ c := by
  obtain ⟨c₁, hshows, hmax, hprompt, hfd, hrun⟩ :=
    linenoiseEdit_eq completionCallback h hbuf prompt fd
  obtain ⟨c, hrefresh, hc⟩ := refreshLine_turns hshows.turns c₁.prompt
  have hinput : c.fd.input = fd.input := hc.input.trans (congrArg Terminal.input hfd)
  rw [refreshLine_cols (by rw [hfd]; exact hws), hrefresh, ok_bind, hinput] at hrun
  refine ⟨c, hrun, h.editor hc.shows (hc.bufmax.trans hmax), hc.holds, hc.capture,
    hc.bufmax.trans hmax, hc.prompt.trans hprompt, hinput, hc.ws_col.trans ?_⟩
  exact congrArg Terminal.ws_col hfd

/-- What `linenoise` returns and leaves. -/
structure Returned (fd : Terminal) (line : Line) (history' : History) (fd' : Terminal) : Prop where
  history : history'.Sound LINENOISE_MAX_LINE
  string : ∀ s, line = .line s → 0 ∉ s ∧ s.length < LINENOISE_MAX_LINE
  reads : fd.Reads fd'

/-- What can go wrong in a call of `linenoise`. -/
def History.MayFail (history : History) (fd : Terminal) (f : Fault) : Prop :=
  (f = .outside .rbuf ∧ 1 < history.opened.length) ∨ (f.ofQuery ∧ ¬ fd.Reports)

/-- The edit of a line, from the first time it is shown. -/
theorem linenoiseEdit_meets (h : history.Sound LINENOISE_MAX_LINE)
    (hbuf : buf.length = LINENOISE_MAX_LINE) (prompt : List UInt8) (fd : Terminal) :
    Meets (history.MayFail fd) (linenoiseEdit completionCallback history (newCurrent buf prompt fd))
      fun (count, _, e) => e.history.Sound LINENOISE_MAX_LINE ∧
        (count = -1 ∨ count = e.current.len) ∧ fd.Reads e.current.fd ∧
        e.current.bufmax = LINENOISE_MAX_LINE ∧ ∃ d, e.current.Shows d := by
  obtain ⟨c, hshows, hmax, -, rfl, hrun⟩ := linenoiseEdit_eq completionCallback h hbuf prompt fd
  rw [hrun]
  have hquery : ∀ f : Fault, c.fd.ws_col = 0 ∧ f.ofQuery → history.MayFail c.fd f :=
    fun f hf => .inr ⟨hf.2, fun hreports => hreports.ws_col hf.1⟩
  refine ((refreshLine_meets hshows.holds c.prompt 0 c.fd).mono (fun _ h => h) hquery).bind ?_
  rintro c' ⟨hholds, hcapture, hbufmax, -, hreads⟩
  have hc' : c'.Shows ⟨.atEnd [], none⟩ := ⟨hholds, hcapture.trans hshows.capture⟩
  have hmax' : c'.bufmax = LINENOISE_MAX_LINE := hbufmax.trans hmax
  have hfails : ∀ f, (history.editor c').MayFail f → history.MayFail c.fd f := by
    rintro f (⟨hf, hlong⟩ | ⟨hf, hreports⟩)
    · exact .inl ⟨hf, Int.ofNat_lt.mp hlong⟩
    · exact .inr ⟨hf, mt hreads.reports hreports⟩
  have hloop := editLoop_meets completionCallback _ none (h.editor hc' hmax')
    (Nat.le_refl (2 * c'.fd.input.length + 2))
  refine hloop.mono ?_ hfails
  rintro ⟨count, eagain, e⟩ hend
  obtain ⟨d, hd⟩ := hend.line
  have hmax'' : e.current.bufmax = LINENOISE_MAX_LINE := hd.bufmax.trans hmax'
  have hhistory := hend.history
  rw [hmax''] at hhistory
  exact ⟨hhistory, hend.count, hreads.trans hd.reads, hmax'', d, hd.shows⟩

/-- **Whatever is typed**, `linenoise` returns, unless one of these things goes wrong. -/
theorem linenoise_meets (h : history.Sound LINENOISE_MAX_LINE)
    (hbuf : buf.length = LINENOISE_MAX_LINE) (prompt : List UInt8) (fd : Terminal) :
    Meets (history.MayFail fd) (linenoise completionCallback history buf prompt fd)
      fun (line, history', fd') => Returned fd line history' fd' := by
  rw [linenoise]
  by_cases hup : enableRawMode fd = true
  · rw [if_pos hup]
    refine (linenoiseEdit_meets completionCallback h hbuf prompt fd).bind ?_
    rintro ⟨count, eagain, e⟩ ⟨hhistory, -, hreads, hmax, d, hd⟩
    by_cases hcount : count = -1
    · simp only [if_pos hcount]
      exact .pure ⟨hhistory, fun _ heq => (by cases heq), hreads⟩
    · obtain ⟨hstring, hnul, hshort⟩ := hd.string
      simp only [if_neg hcount, hstring, checked_some, ok_bind]
      refine .pure ⟨hhistory, ?_, hreads⟩
      rintro s heq
      cases heq
      rw [hmax] at hshort
      exact ⟨hnul, by omega⟩
  · rw [if_neg hup]
    exact .pure ⟨h, fun _ heq => (by cases heq), .of_same rfl rfl⟩

end Whole

end Linenoise

end FepControl
