/-
  The history of the properties that were used.

  The session keeps a list of property paths, which starts with three of the clock, and which the
  completion offers.  A comment in the two handlers of properties says that a path is added `if not
  used already`.

  1. **SameUsed** -- every handler but two leaves the list of the used properties alone: what they
     update keeps it (`Tame`, `Updates`), and the frame rule does the rest.

  2. **Recording** -- `getParticipantProperty` and `setParticipantProperty` change the list when
     they succeed, and only then.  They append the path if the name of the PARTICIPANT is in the
     list (`appendUsed`).

  3. **The difference** -- a history would append the path if the path is not in the list
     (`recordUse`).  For one access the two agree exactly if the participant's name is in the list
     just when the path is not (`appendUsed_eq_iff`); since a name is hardly ever in a list of
     paths, the source records next to nothing.

  4. **Runs** -- where that test decides as a look for the path would, the list is the initial one
     with the paths of the successful accesses that were not there, in order, and the completion
     offers each of them once (`usedHistory_run`).  The label of a step is its event and the path
     that it has accessed.
-/
import FepControl.Runs
import FepControl.Local
import FepControl.Completion
import FepControl.PropertyStore
import Mathlib.Data.List.Nodup

namespace FepControl

open Lib

variable {W α : Type}

/-! ## What leaves the list alone -/

/-- The used properties are the same. -/
def SameUsed (m m' : Machine W) : Prop :=
  m'.session.used_properties = m.session.used_properties

/-- A basic step whose updates keep the list keeps it. -/
theorem basic_sameUsed {C : Call → Prop} {c : Control W α} (h : Basic C KeepsUsed α c)
    (env : Env W) (m : Machine W) : c.wp env (Eff.framePost SameUsed m) m := by
  cases h with
  | @call c _ =>
    unfold Eff.wp fep3
    rcases env.fep3 c m.world with ⟨_ | _, w⟩
    · exact rfl
    · exact rfl
  | write r => exact rfl
  | update h => exact h m.session
  | session => exact rfl
  | read => exact rfl

/-- A part whose updates keep the list keeps it, however it ends. -/
theorem Confined.sameUsed {E : Env W → Prop} {C : Call → Prop} {c : Control W α}
    (h : Confined E C KeepsUsed c) {env : Env W} (henv : E env) (m : Machine W) :
    c.wp env (Eff.framePost SameUsed m) m := by
  have htrans : ∀ {m₁ m₂ m₃ : Machine W}, SameUsed m₁ m₂ → SameUsed m₂ m₃ → SameUsed m₁ m₃ :=
    fun h₁ h₂ => h₂.trans h₁
  have hrefl : ∀ m : Machine W, SameUsed m m := fun _ => rfl
  exact Eff.Made.frame hrefl htrans (fun _ _ hbasic r s _ => basic_sameUsed hbasic r s) h henv m

/-- The two handlers that record. -/
def ActionFunction.recordsUse : ActionFunction → Bool
  | .getParticipantProperty | .setParticipantProperty => true
  | _ => false

/-- What the other handlers update keeps the list. -/
theorem Updates.keepsUsed {f : ActionFunction} (hf : f.recordsUse = false)
    {u : Session → Session} (h : Updates f u) : KeepsUsed u := by
  rcases h with ⟨name, rfl⟩ | h
  · exact fun _ => rfl
  · cases f
    case getParticipantProperty => cases hf
    case setParticipantProperty => cases hf
    case shutdownSystem | setSystemState | startMonitoringSystem | stopMonitoringSystem =>
      obtain ⟨g, rfl⟩ := h
      exact fun _ => rfl
    all_goals exact h.elim

/-- Every other handler leaves the list alone. -/
theorem invoke_sameUsed {f : ActionFunction} (hf : f.recordsUse = false) {tokens : List String}
    (hmin : f.reads.1 ≤ tokens.length) (hmax : tokens.length ≤ f.reads.2) (env : Env W)
    (m : Machine W) : (f.invoke (begin_ tokens) (end_ tokens)).wp env (Eff.framePost SameUsed m)
      m := by
  -- a part that is confined so, in any environment
  have hframe : ∀ {c : Control W Bool}, Confined (fun _ => True) (fun _ => True) KeepsUsed c →
      c.wp env (Eff.framePost SameUsed m) m := fun h => h.sameUsed trivial m
  cases hlooks : f.looksUp with
  | true =>
    obtain ⟨a, s, arguments, -, h⟩ := looksUp_invoke (fun _ : Env W => True) hlooks hmin hmax
    have htame := h.mono (fun _ _ hcall => hcall) fun u hu => Updates.keepsUsed hf hu
    exact hframe (Tame.of_looksUp (fun _ h => h) htame)
  | false =>
    cases f
    case help => exact hframe (Tame.help hmin hmax)
    case discoverAllSystems =>
      obtain ⟨a, rfl⟩ := eq_one (Nat.le_antisymm hmax hmin)
      exact hframe (Tame.discoverAllSystems (fun _ h => h) a (end_ [a]))
    case discoverSystem =>
      obtain ⟨a, s, rfl⟩ := eq_two (Nat.le_antisymm hmax hmin)
      exact hframe (Tame.discoverSystem (fun _ h => h) a s (end_ [a, s]))
    case quit | enableAutoDiscovery | disableAutoDiscovery | getCurrentWorkingDirectory =>
      obtain ⟨a, rfl⟩ := eq_one (Nat.le_antisymm hmax hmin)
      exact rfl
    case enableJsonMode =>
      obtain ⟨a, rfl⟩ := eq_one (Nat.le_antisymm hmax hmin)
      show Eff.wp (enableJsonMode (begin_ [a]) (end_ [a])) env _ m
      unfold Eff.wp
      rw [enableJsonMode_eq]
      exact rfl
    case disableJsonMode =>
      obtain ⟨a, rfl⟩ := eq_one (Nat.le_antisymm hmax hmin)
      show Eff.wp (disableJsonMode (begin_ [a]) (end_ [a])) env _ m
      unfold Eff.wp
      rw [disableJsonMode_eq]
      exact rfl
    case setCurrentWorkingDirectory =>
      obtain ⟨a, path, rfl⟩ := eq_two (Nat.le_antisymm hmax hmin)
      show Eff.wp (if (env.setWorkingDirectory m.working_directory (env.makeCanonical path)).1 = .OK
        then _ else _ : Control W Bool) env _ { m with working_directory := _ }
      split
      · exact rfl
      · exact rfl
    all_goals exact absurd hlooks (by decide)

/-! ## What records -/

/-- What the source makes of the list when a command on a participant has used a path. -/
def appendUsed (participant_name property_path : String) (used : List String) : List String :=
  if participant_name ∈ used then used ++ [property_path] else used

/-- What `useProperty` does to the list. -/
theorem useProperty_used (p path : String) (s : Session) :
    (useProperty p path s).used_properties = appendUsed p path s.used_properties := by
  unfold useProperty appendUsed
  split
  · rfl
  · rfl

/-- The list changes with a success, and only then. -/
def recordPost (p path : String) (m : Machine W) : Eff.Post (Machine W) String Stop Bool where
  ok b m' := m'.session.used_properties =
    if b then appendUsed p path m.session.used_properties else m.session.used_properties
  throws _ m' := SameUsed m m'
  stops _ _ := True

/-- What is done before leaves the list alone. -/
theorem recordPost_of_sameUsed {p path : String} {m m₁ : Machine W} (h : SameUsed m m₁)
    {c : Control W Bool} {env : Env W} (hc : c.wp env (recordPost p path m₁) m₁) :
    c.wp env (recordPost p path m) m₁ := by
  refine Eff.wp_mono hc (fun b m' h' => ?_) (fun _ _ h' => h'.trans h) (fun _ _ _ => trivial)
  have hok : m'.session.used_properties =
      if b then appendUsed p path m₁.session.used_properties else m₁.session.used_properties := h'
  have hused : m₁.session.used_properties = m.session.used_properties := h
  show _ = if b then _ else _
  rw [hok, hused]

/-- A first part that leaves the list alone, and a rest that records. -/
theorem recordPost_bind {p path : String} {c : Control W α} {f : α → Control W Bool} {env : Env W}
    {m : Machine W} (hc : c.wp env (Eff.framePost SameUsed m) m)
    (hf : ∀ a m₁, (f a).wp env (recordPost p path m₁) m₁) :
    (c >>= f).wp env (recordPost p path m) m := by
  rw [Eff.wp_bind]
  exact Eff.wp_mono hc (fun a m₁ h => recordPost_of_sameUsed h (hf a m₁)) (fun _ _ h => h)
    (fun _ _ _ => trivial)

/-- A call of the library is such a first part. -/
theorem fep3_sameUsed (c : Call) (env : Env W) (m : Machine W) :
    (fep3 c).wp env (Eff.framePost SameUsed m) m :=
  basic_sameUsed (.call (C := fun _ => True) trivial) env m

/-- An error is answered for, and nothing is recorded. -/
theorem answer_record (r : Response) (p path : String) (env : Env W) (m : Machine W) :
    (do write r; pure false : Control W Bool).wp env (recordPost p path m) m := rfl

/-- An exception before the recording is answered for. -/
theorem recordPost_tryCatch {p path : String} {c : Control W Bool} {h : String → Control W Bool}
    {env : Env W} {m : Machine W} (hc : c.wp env (recordPost p path m) m)
    (hh : ∀ e m₁, (h e).wp env (recordPost p path m₁) m₁) :
    (tryCatch c h).wp env (recordPost p path m) m := by
  rw [Eff.wp_tryCatch]
  exact Eff.wp_mono hc (fun _ _ h' => h') (fun e m₁ h' => recordPost_of_sameUsed h' (hh e m₁))
    (fun _ _ _ => trivial)

/-- A command on a participant records if what it does with the participant does. -/
theorem withParticipant_records {a s p path : String} {rest : ParticipantProxy → Control W Bool}
    {env : Env W} (hrest : ∀ part m, (rest part).wp env (recordPost p path m) m)
    (m : Machine W) : (withParticipant a s p rest).wp env (recordPost p path m) m := by
  have hlookup : Confined (fun _ : Env W => True) (fun _ => True) KeepsUsed
      (lookup s a : Control W (Option Entry)) := Tame.lookup (fun _ h => h) s a
  rw [withParticipant_eq, withSystem]
  refine recordPost_bind (hlookup.sameUsed trivial m) fun it m₁ => ?_
  cases it with
  | none => exact rfl
  | some it =>
    have hpart : Confined (fun _ : Env W => True) (fun _ => True) KeepsUsed
        (participantOf a s p it : Control W (Option ParticipantProxy)) := by
      refine Confined.tryCatch ?_ fun _ => .answer _ _
      exact Confined.andThen (.fep3 trivial) fun _ => .pure _
    refine recordPost_bind (hpart.sameUsed trivial m₁) fun part m₂ => ?_
    cases part with
    | none => exact rfl
    | some part => exact hrest part m₂

/-- The getter records once it has written the property. -/
theorem writeProperty_records (a p path : String) (part : ParticipantProxy) (env : Env W)
    (m : Machine W) : (writeProperty a p path part).wp env (recordPost p path m) m := by
  have hend : ∀ r m₁, (do
      write r
      update (useProperty p path)
      pure true : Control W Bool).wp env (recordPost p path m₁) m₁ :=
    fun _ m₁ => useProperty_used p path m₁.session
  unfold writeProperty
  show Eff.wp (if m.session.json_mode then _ else _ : Control W Bool) env _ m
  split
  · have hjson : Confined (fun _ : Env W => True) (fun _ => True) KeepsUsed (formatPropertyJson part
        (getNodeAndLeafNamefromProperty path).1 (getNodeAndLeafNamefromProperty path).2 :
          Control W Json) := Confined.formatPropertyJson (fun _ => trivial) _ _
    exact recordPost_bind (hjson.sameUsed trivial m) fun _ m₁ => hend _ m₁
  · have htext : Confined (fun _ : Env W => True) (fun _ => True) KeepsUsed (formatProperty part
        (getNodeAndLeafNamefromProperty path).1 (getNodeAndLeafNamefromProperty path).2 :
          Control W String) := Confined.formatProperty (fun _ => trivial) _ _
    exact recordPost_bind (htext.sameUsed trivial m) fun _ m₁ => hend _ m₁

/-- **A property that is read is recorded**, as the source records. -/
theorem getParticipantProperty_records (a s p path : String) (last : TokenIterator) (env : Env W)
    (m : Machine W) : (getParticipantProperty (begin_ [a, s, p, path]) last).wp env
      (recordPost p path m) m := by
  rw [getParticipantProperty_eq]
  refine withParticipant_records (fun part m₁ => ?_) m
  refine recordPost_tryCatch ?_ fun e m₂ => answer_record _ p path env m₂
  refine recordPost_bind (fep3_sameUsed _ env m₁) fun conf m₂ => ?_
  cases conf with
  | none => exact answer_record _ p path env m₂
  | some _ => exact writeProperty_records a p path part env m₂

/-- The setter records once the library has set the property. -/
theorem setParticipantProperty_records (a s p path v : String) (last : TokenIterator)
    (env : Env W) (m : Machine W) :
    (setParticipantProperty (begin_ [a, s, p, path, v]) last).wp env (recordPost p path m) m := by
  rw [setParticipantProperty_eq]
  refine withParticipant_records (fun part m₁ => ?_) m
  refine recordPost_tryCatch ?_ fun e m₂ => answer_record _ p path env m₂
  refine recordPost_bind (fep3_sameUsed _ env m₁) fun conf m₂ => ?_
  cases conf with
  | none => exact answer_record _ p path env m₂
  | some _ =>
    refine recordPost_bind (fep3_sameUsed _ env m₂) fun prop m₃ => ?_
    cases prop with
    | none => exact answer_record _ p path env m₃
    | some _ =>
      have hcall : ∀ c m, (part.call c : Control W Unit).wp env (Eff.framePost SameUsed m) m := by
        intro c m
        have hconfined : Confined (fun _ : Env W => True) (fun _ => True) KeepsUsed
            (part.call c : Control W Unit) := .participantCall trivial
        exact hconfined.sameUsed trivial m
      refine recordPost_bind (fep3_sameUsed _ env m₃) fun type m₄ => ?_
      refine recordPost_bind (hcall _ m₄) fun _ m₅ => ?_
      exact useProperty_used p path m₅.session

/-! ## Steps -/

/-- The participant and the property path of a command line, if it is for one of the two
    commands and succeeds. -/
def accessedBy (env : Env W) (m : Machine W) (tokens : List String) : Option (String × String) :=
  match dispatched tokens with
  | none => none
  | some cmd =>
      if cmd.action.recordsUse ∧ (processCommandline tokens env m).1 = .ok 0 then
        some (tokens.getD 2 "", tokens.getD 3 "")
      else none

/-- The same for any event. -/
def accessed (env : Env W) (m : Machine W) : Event W → Option (String × String)
  | .command tokens => accessedBy env m tokens
  | .record _ | .elsewhere _ => none

/-- What the handler of a command does to the list. -/
theorem invoke_used {tokens : List String} {cmd : ControlCommand}
    (hd : dispatched tokens = some cmd) (env : Env W) (m : Machine W) :
    (cmd.action.invoke (begin_ tokens) (end_ tokens)).wp env
      ⟨fun b m' => m'.session.used_properties =
          if cmd.action.recordsUse ∧ b = true then
            appendUsed (tokens.getD 2 "") (tokens.getD 3 "") m.session.used_properties
          else m.session.used_properties,
        fun _ m' => SameUsed m m', fun _ _ => True⟩ m := by
  obtain ⟨-, -, -, hmin, hmax⟩ := dispatched_some hd
  cases hrecords : cmd.action.recordsUse with
  | false =>
    refine Eff.wp_mono (invoke_sameUsed hrecords hmin hmax env m) (fun b m' h => ?_)
      (fun _ _ h => h) (fun _ _ _ => trivial)
    have hsame : m'.session.used_properties = m.session.used_properties := h
    simpa using hsame
  | true =>
    -- the getter and the setter have the path as fourth token
    have hpost : (cmd.action.invoke (begin_ tokens) (end_ tokens)).wp env
        (recordPost (tokens.getD 2 "") (tokens.getD 3 "") m) m := by
      cases haction : cmd.action
      case getParticipantProperty =>
        rw [haction] at hmin hmax
        obtain ⟨a, s, p, path, rfl⟩ := eq_four (Nat.le_antisymm hmax hmin)
        exact getParticipantProperty_records a s p path (end_ [a, s, p, path]) env m
      case setParticipantProperty =>
        rw [haction] at hmin hmax
        obtain ⟨a, s, p, path, v, rfl⟩ := eq_five (Nat.le_antisymm hmax hmin)
        exact setParticipantProperty_records a s p path v (end_ [a, s, p, path, v]) env m
      all_goals
        rw [haction] at hrecords
        cases hrecords
    refine Eff.wp_mono hpost (fun b m' h => ?_) (fun _ _ h => h) (fun _ _ _ => trivial)
    simp only [true_and]
    exact h

/-- What a step does to the list. -/
theorem used_of_step {env : Env W} {m m' : Machine W} {event : Event W}
    (h : Step env m event m') : m'.session.used_properties =
      (accessed env m event).elim m.session.used_properties fun access =>
        appendUsed access.1 access.2 m.session.used_properties := by
  cases h with
  | record => rfl
  | elsewhere => rfl
  | @command _ tokens hne h =>
    show _ = (accessedBy env m tokens).elim _ _
    unfold accessedBy
    have hround : websocketRound tokens env m = Eff.orElse _ env
      (Eff.andThen _ env (processCommandline tokens env m)) := rfl
    cases hd : dispatched tokens with
    | none =>
      obtain ⟨code, text, -, hrejected⟩ := processCommandline_rejected hd hne env m
      rw [hround, hrejected] at h
      obtain rfl := (Prod.mk.inj h).2
      rfl
    | some cmd =>
      have hused := invoke_used hd env m
      unfold Eff.wp at hused
      rw [hround, processCommandline_dispatched hd, Eff.bind_apply] at h
      rw [processCommandline_dispatched hd, Eff.bind_apply]
      generalize cmd.action.invoke (begin_ tokens) (end_ tokens) env m = x at h hused ⊢
      rcases x with ⟨b | e | d, m₁⟩
      · -- the handler has returned
        obtain rfl : m₁ = m' := (Prod.mk.inj h).2
        have hused : m₁.session.used_properties =
          if cmd.action.recordsUse ∧ b = true then
            appendUsed (tokens.getD 2 "") (tokens.getD 3 "") m.session.used_properties
          else m.session.used_properties := hused
        rw [hused]
        cases b with
        | true =>
          by_cases hrecords : cmd.action.recordsUse = true
          · simp [hrecords, Eff.andThen]
          · simp [hrecords]
        | false => simp [Eff.andThen]
      · -- the loop has caught an exception
        obtain rfl : m₁.wrote _ = m' := (Prod.mk.inj h).2
        have hsame : SameUsed m m₁ := hused
        simp only [Eff.andThen, reduceCtorEq, and_false, if_false, Option.elim_none]
        exact hsame
      · cases (Prod.mk.inj h).1

/-! ## Runs -/

/-- What a history of used properties makes of the list. -/
def recordUse (used : List String) (property_path : String) : List String :=
  if property_path ∈ used then used else used ++ [property_path]

/-- The paths, recorded one after the other. -/
def recordAll (used paths : List String) : List String := paths.foldl recordUse used

/-- Recording leaves no path in the list twice. -/
theorem recordAll_nodup {used : List String} (h : used.Nodup) (paths : List String) :
    (recordAll used paths).Nodup := by
  induction paths generalizing used with
  | nil => exact h
  | cons path paths ih =>
    apply ih
    unfold recordUse
    split
    · exact h
    · rename_i hnew
      rw [List.nodup_append]
      refine ⟨h, List.pairwise_singleton _ _, ?_⟩
      intro x hx y hy heq
      rw [List.mem_singleton.mp hy] at heq
      exact hnew (heq ▸ hx)

/-- A path is in the list if it was there before, or has been recorded. -/
theorem mem_recordAll (used paths : List String) (path : String) :
    path ∈ recordAll used paths ↔ path ∈ used ∨ path ∈ paths := by
  induction paths generalizing used with
  | nil => simp [recordAll]
  | cons path' paths ih =>
    have hone : path ∈ recordUse used path' ↔ path ∈ used ∨ path = path' := by
      unfold recordUse
      split
      · rename_i hmem
        constructor
        · exact .inl
        · rintro (h | rfl)
          · exact h
          · exact hmem
      · rw [List.mem_append, List.mem_singleton]
    have hall := ih (recordUse used path')
    rw [hone] at hall
    rw [List.mem_cons, ← or_assoc]
    exact hall

/-- **Where the source records as it should**: its test for the participant decides as a look for
    the path would. -/
theorem appendUsed_eq_iff (p path : String) (used : List String) :
    appendUsed p path used = recordUse used path ↔ (p ∈ used ↔ path ∉ used) := by
  unfold appendUsed recordUse
  have hlonger : used ++ [path] ≠ used := by
    intro h
    have hlength := congrArg List.length h
    rw [List.length_append, List.length_singleton] at hlength
    omega
  by_cases hp : p ∈ used
  · by_cases hpath : path ∈ used
    · simp [hp, hpath]
    · simp [hp, hpath]
  · by_cases hpath : path ∈ used
    · simp [hp, hpath]
    · rw [if_neg hp, if_neg hpath]
      simp only [hp, hpath, not_false_eq_true, false_iff, not_true_eq_false, iff_false]
      exact fun h => hlonger h.symm

/-- A step, and the path that it accessed, if it did. -/
def Accesses (env : Env W) (m : Machine W) (label : Event W × Option String) (m' : Machine W) :
    Prop := Step env m label.1 m' ∧ label.2 = (accessed env m label.1).map Prod.snd

/-- The condition on a step: if it accesses a property, the test of the source finds the
    participant's name exactly if the path is not there yet. -/
def FindsName (env : Env W) (m : Machine W) (label : Event W × Option String) : Prop :=
  ∀ p path, accessed env m label.1 = some (p, path) →
    (p ∈ m.session.used_properties ↔ path ∉ m.session.used_properties)

/-- The list is the history of these accesses, and the completion offers each of them once. -/
structure UsedHistory (paths : List String) (m : Machine W) : Prop where
  used : m.session.used_properties = recordAll (Session.new false).used_properties paths
  nodup : m.session.used_properties.Nodup
  offered : ∀ path ∈ paths, ∀ wordPrefix, startsWith wordPrefix path = true →
    ∀ env : Env W, ∃ completions,
      usedPropertiesCompletion wordPrefix env m = (.ok completions, m) ∧
        completions.count path = 1

/-- The list determines what is offered. -/
theorem UsedHistory.of_used {paths : List String} {m : Machine W}
    (h : m.session.used_properties = recordAll (Session.new false).used_properties paths) :
    UsedHistory paths m := by
  have hnodup : m.session.used_properties.Nodup := by
    rw [h]
    exact recordAll_nodup (by decide) paths
  refine ⟨h, hnodup, ?_⟩
  intro path hpath wordPrefix hstarts env
  refine ⟨completionsOf wordPrefix m.session.used_properties, rfl, ?_⟩
  have hmem : path ∈ completionsOf wordPrefix m.session.used_properties := by
    apply List.mem_filter.mpr
    rw [h, mem_recordAll]
    exact ⟨.inr hpath, hstarts⟩
  exact List.count_eq_one_of_mem (hnodup.filter _) hmem

/-- **The history of the used properties**, in every run of a session whose accesses all meet the
    condition. -/
theorem usedHistory_run {env : Env W} {json_mode : Bool} {working_directory : String} {w : W}
    {labels : List (Event W × Option String)} {m : Machine W}
    (h : Run (Along (Accesses env) (FindsName env)) (Machine.new json_mode working_directory w)
      labels m) : UsedHistory (labels.filterMap Prod.snd) m := by
  apply UsedHistory.of_used
  -- every step records what it has accessed
  have hstep : ∀ m₁ label m₂, Along (Accesses env) (FindsName env) m₁ label m₂ →
      m₂.session.used_properties =
        label.2.elim m₁.session.used_properties (recordUse m₁.session.used_properties) := by
    rintro m₁ ⟨event, path?⟩ m₂ ⟨⟨hstep, hlabel⟩, hfinds⟩
    have hlabel : path? = (accessed env m₁ event).map Prod.snd := hlabel
    rw [used_of_step hstep, hlabel]
    cases haccess : accessed env m₁ event with
    | none => rfl
    | some access =>
      obtain ⟨p, path⟩ := access
      exact (appendUsed_eq_iff p path _).mpr (hfinds p path haccess)
  have hrun := Run.foldl (f := fun m : Machine W => m.session.used_properties)
    (g := fun used label => label.2.elim used (recordUse used)) hstep h
  have hinitial : (Machine.new json_mode working_directory w).session.used_properties =
    (Session.new false).used_properties := rfl
  rw [hinitial] at hrun
  rw [hrun, recordAll, List.foldl_filterMap]
  congr 1
  funext used label
  cases label.2 with
  | none => rfl
  | some path => rfl

/-- A session that has discovered `sys`. -/
def Machine.withSys : Machine Unit :=
  (processCommandline ["discoverSystem", "sys"] Env.answering (Machine.new false "" ())).2

/-- The command that reads the property at `path`. -/
def readProperty (path : String) : List String := ["getParticipantProperty", "sys", "part", path]

/-- The same session once it has read a property. -/
def Machine.hasRead (path : String) : Machine Unit :=
  (processCommandline (readProperty path) Env.answering Machine.withSys).2

/-- Discovering a system accesses no property. -/
theorem discoverSystem_accesses :
    Accesses Env.answering (Machine.new false "" ()) (.command ["discoverSystem", "sys"], none)
      Machine.withSys := by
  have hret : processCommandline ["discoverSystem", "sys"] Env.answering (Machine.new false "" ()) =
    (.ok 0, Machine.withSys) := rfl
  exact ⟨.of_ok (by decide) hret, rfl⟩

/-- A property that is in the list from the start is read. -/
theorem usedHistory_run_step_size :
    UsedHistory ["clock/step_size"] (Machine.hasRead "clock/step_size") := by
  have hret : processCommandline (readProperty "clock/step_size") Env.answering Machine.withSys =
    (.ok 0, Machine.hasRead "clock/step_size") := rfl
  have haccessed : accessed Env.answering Machine.withSys
    (.command (readProperty "clock/step_size")) = some ("part", "clock/step_size") := rfl
  have hrun : Run (Along (Accesses Env.answering) (FindsName Env.answering))
      (Machine.new false "" ()) [(.command ["discoverSystem", "sys"], none),
        (.command (readProperty "clock/step_size"), some "clock/step_size")]
      (Machine.hasRead "clock/step_size") := by
    refine .cons ⟨discoverSystem_accesses, ?_⟩ (.one ⟨⟨.of_ok (by decide) hret, ?_⟩, ?_⟩)
    · intro p path h
      cases h
    · rw [haccessed]
      rfl
    · intro p path h
      have heq : some ("part", "clock/step_size") = some (p, path) := haccessed.symm.trans h
      cases heq
      decide
  exact usedHistory_run hrun

/-- Any other property that is read is not remembered. -/
theorem not_usedHistory_run :
    Run (Accesses Env.answering) (Machine.new false "" ())
        [(.command ["discoverSystem", "sys"], none),
          (.command (readProperty "clock/other"), some "clock/other")]
        (Machine.hasRead "clock/other") ∧
      ¬ UsedHistory ["clock/other"] (Machine.hasRead "clock/other") := by
  have hret : processCommandline (readProperty "clock/other") Env.answering Machine.withSys =
    (.ok 0, Machine.hasRead "clock/other") := rfl
  have haccessed : accessed Env.answering Machine.withSys (.command (readProperty "clock/other")) =
    some ("part", "clock/other") := rfl
  refine ⟨.cons discoverSystem_accesses (.one ⟨.of_ok (by decide) hret, ?_⟩), fun h => ?_⟩
  · rw [haccessed]
    rfl
  · have hkept : (Machine.hasRead "clock/other").session.used_properties =
      (Session.new false).used_properties := rfl
    have hused := hkept.symm.trans h.used
    exact absurd hused (by decide)

end FepControl
