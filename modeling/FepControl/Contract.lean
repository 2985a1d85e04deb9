/-
  What the parts of a handler guarantee, and the rules that put the parts together.

  There are about fifty handlers, and most of them have one shape: a lookup, then a `try` in which
  the library is called and a note is written, and a `catch` that writes an error.  What is to be
  shown of all of them is that they answer once, and that the answer says what they return.  Doing
  this by running each handler would be fifty proofs of one thing.  Instead there are three
  judgements on parts of handlers, with one rule for each statement form.

  1. **Quiet** -- a part that writes nothing and leaves the modes, the registry and the log alone,
     whether it returns or throws.  Library calls are quiet, and so is what is made of them.

  2. **Body** -- a part that returns a flag and has then written ONE response, which `K` approves of
     for that flag; when it throws, it has written nothing.  This is what stands in a `try`.

  3. **Guarded** -- a `Body` that never throws.  A `try` around a body with a guarded handler is
     guarded (`Guarded.tryCatch`), which is the shape of every handler of the table.

  4. **Parameters** -- `D` says how the process may be stopped, `P` what may happen to the registry,
     and `K` what may be said.

  The crux is that the three are closed under sequencing, so that a handler is judged by following
  its text, one rule for each statement.
-/
import FepControl.Lookup
import FepControl.Answer

namespace FepControl

open Lib

variable {W α β : Type} {D : Stop → Prop}

/-! ## What a step leaves alone -/

/-- The modes and the log are kept. -/
structure KeepsModes (m m' : Machine W) : Prop where
  json_mode : m'.session.json_mode = m.session.json_mode
  monitor_json_mode : m'.session.monitor_json_mode = m.session.monitor_json_mode
  auto_discovery : m'.session.auto_discovery_of_systems = m.session.auto_discovery_of_systems
  logged : m'.logged = m.logged

/-- The same, and the registry changes as `P` says. -/
structure Keeps (P : Registry → Registry → Prop) (m m' : Machine W) : Prop extends
    KeepsModes m m' where
  registry : P m.registry m'.registry

/-- Nothing is written and the registry stays. -/
structure Silent (m m' : Machine W) : Prop extends Keeps Eq m m' where
  written : m'.written = m.written

/-- One response is written, and `K` approves of it. -/
def Answers (K : Bool → Response → Prop) (m m' : Machine W) : Prop :=
  ∃ r, m'.written = m.written ++ [⟨m.session.json_mode, r⟩] ∧ K m.session.json_mode r

/-- At most one response is written, and `K` approves of it. -/
def MayAnswer (K : Bool → Response → Prop) (m m' : Machine W) : Prop :=
  m'.written = m.written ∨ Answers K m m'

/-- The part never stops. -/
abbrev NoStop (_ : Stop) : Prop := False

/-- The stops that only an answer of the library can cause. -/
def Benign : Stop → Prop
  | .nullPointer | .stackExhausted => True
  | _ => False

theorem KeepsModes.trans {m₁ m₂ m₃ : Machine W} (h : KeepsModes m₁ m₂) (h' : KeepsModes m₂ m₃) :
    KeepsModes m₁ m₃ :=
  ⟨h'.json_mode.trans h.json_mode, h'.monitor_json_mode.trans h.monitor_json_mode,
    h'.auto_discovery.trans h.auto_discovery, h'.logged.trans h.logged⟩

theorem KeepsModes.wrote (m : Machine W) (r : Response) : KeepsModes m (m.wrote r) :=
  ⟨rfl, rfl, rfl, rfl⟩

theorem KeepsModes.called (m : Machine W) (c : Call) (threw : Bool) (w : W) :
    KeepsModes m (m.called c threw w) := ⟨rfl, rfl, rfl, rfl⟩

theorem KeepsModes.found (m : Machine W) (name : String) : KeepsModes m (m.found name) :=
  ⟨rfl, rfl, rfl, rfl⟩

theorem Keeps.refl {P : Registry → Registry → Prop} (h : ∀ r, P r r) (m : Machine W) :
    Keeps P m m := ⟨⟨rfl, rfl, rfl, rfl⟩, h _⟩

theorem Keeps.trans {P Q R : Registry → Registry → Prop} {m₁ m₂ m₃ : Machine W}
    (h : Keeps P m₁ m₂) (h' : Keeps Q m₂ m₃) (hR : ∀ {r₁ r₂ r₃}, P r₁ r₂ → Q r₂ r₃ → R r₁ r₃) :
    Keeps R m₁ m₃ := ⟨h.toKeepsModes.trans h'.toKeepsModes, hR h.registry h'.registry⟩

theorem Silent.refl (m : Machine W) : Silent m m := ⟨Keeps.refl (fun _ => rfl) m, rfl⟩

theorem Silent.trans {m₁ m₂ m₃ : Machine W} (h : Silent m₁ m₂) (h' : Silent m₂ m₃) :
    Silent m₁ m₃ := ⟨h.toKeeps.trans h'.toKeeps Eq.trans, h'.written.trans h.written⟩

theorem Silent.found (m : Machine W) (name : String) : Silent m (m.found name) :=
  ⟨⟨KeepsModes.found m name, rfl⟩, rfl⟩

theorem Silent.called (m : Machine W) (c : Call) (threw : Bool) (w : W) :
    Silent m (m.called c threw w) :=
  ⟨⟨KeepsModes.called m c threw w, rfl⟩, rfl⟩

theorem Answers.mono {K K' : Bool → Response → Prop} {m m' : Machine W} (h : Answers K m m')
    (hK : ∀ j r, K j r → K' j r) : Answers K' m m' := h.imp fun r hr => ⟨hr.1, hK _ r hr.2⟩

/-- What is silent first does not change what is answered. -/
theorem Silent.answers {K : Bool → Response → Prop} {m₁ m₂ m₃ : Machine W} (h : Silent m₁ m₂)
    (h' : Answers K m₂ m₃) : Answers K m₁ m₃ := by
  obtain ⟨r, hr, hK⟩ := h'
  rw [h.written, h.json_mode] at hr
  rw [h.json_mode] at hK
  exact ⟨r, hr, hK⟩

/-- A response that is written behind a silent part, and nothing behind it, is the answer. -/
theorem Silent.answers_wrote {K : Bool → Response → Prop} {m₁ m₂ m₃ : Machine W} {r : Response}
    (h : Silent m₁ m₂) (hwritten : m₃.written = (m₂.wrote r).written) (hK : ∀ j, K j r) :
    Answers K m₁ m₃ := h.answers ⟨r, hwritten, hK _⟩

/-! ## Quiet parts -/

/-- The part writes nothing and leaves the registry, the modes and the log alone; it may stop as
    `D` says. -/
def Quiet (D : Stop → Prop) (c : Control W α) : Prop :=
  ∀ env m, c.wp env ⟨fun _ m' => Silent m m', fun _ m' => Silent m m', fun d _ => D d⟩ m

theorem Quiet.pure (a : α) : Quiet D (pure a : Control W α) := fun _ m => Silent.refl m

theorem Quiet.throw (e : String) : Quiet D (throw e : Control W α) := fun _ m => Silent.refl m

theorem Quiet.stop {d : Stop} (h : D d) : Quiet D (Eff.stop d : Control W α) := fun _ _ => h

/-- Quiet parts in sequence are quiet. -/
theorem Quiet.bind {c : Control W α} {f : α → Control W β} (hc : Quiet D c)
    (hf : ∀ a, Quiet D (f a)) : Quiet D (c >>= f) := by
  intro env m
  rw [Eff.wp_bind]
  refine Eff.wp_mono (hc env m) (fun a m' h => ?_) (fun _ _ h => h) (fun _ _ h => h)
  exact Eff.wp_mono (hf a env m') (fun _ _ h' => h.trans h') (fun _ _ h' => h.trans h')
    (fun _ _ h' => h')

/-- A library call is quiet, whether it answers or throws. -/
theorem Quiet.fep3 (c : Call) : Quiet D (fep3 c : Control W c.Reply) := by
  intro env m
  unfold Eff.wp FepControl.fep3
  rcases env.fep3 c m.world with ⟨_ | _, w⟩
  · exact ⟨⟨⟨rfl, rfl, rfl, rfl⟩, rfl⟩, rfl⟩
  · exact ⟨⟨⟨rfl, rfl, rfl, rfl⟩, rfl⟩, rfl⟩

theorem Quiet.setLastSystemNameUsed (name : String) :
    Quiet D (setLastSystemNameUsed name : Control W Unit) :=
  fun _ _ => ⟨⟨⟨rfl, rfl, rfl, rfl⟩, rfl⟩, rfl⟩

/-- An update of the members that only the completion reads. -/
def Lateral (f : Session → Session) : Prop := ∀ s,
  (f s).json_mode = s.json_mode ∧ (f s).monitor_json_mode = s.monitor_json_mode ∧
    (f s).auto_discovery_of_systems = s.auto_discovery_of_systems ∧
    s.connected_or_discovered_systems = (f s).connected_or_discovered_systems

/-- An assignment to a member that no answer depends on is quiet. -/
theorem Quiet.update {f : Session → Session} (h : Lateral f) :
    Quiet D (update f : Control W Unit) := fun _ m =>
  have ⟨hj, hm, ha, hr⟩ := h m.session
  ⟨⟨⟨hj, hm, ha, rfl⟩, hr⟩, rfl⟩

/-! ## Parts that answer -/

section

/-- The registry is the same, whatever the flag. -/
abbrev Stays (_ : Bool) : Registry → Registry → Prop := Eq

variable (D : Stop → Prop) (P : Bool → Registry → Registry → Prop)
  (K : Bool → Bool → Response → Prop)

/-- The part returns a flag and has written one response that suits it, or throws and has written
    nothing.  `P` is what it has done to the registry when it returns. -/
def Body (c : Control W Bool) : Prop :=
  ∀ env m, c.wp env ⟨fun b m' => Keeps (P b) m m' ∧ Answers (K b) m m', fun _ m' => Silent m m',
    fun d _ => D d⟩ m

/-- The part returns a flag and has written one response that suits it; it never throws. -/
def Guarded (c : Control W Bool) : Prop :=
  ∀ env m, c.wp env ⟨fun b m' => Keeps (P b) m m' ∧ Answers (K b) m m', fun _ _ => False,
    fun d _ => D d⟩ m

/-- The part leaves the function with an answer, or goes on in silence, to return `true`. -/
def BodyElse (c : Control W (Option Bool)) : Prop :=
  ∀ env m, c.wp env ⟨fun b m' => Keeps (P (b.getD true)) m m' ∧
      b.elim (m'.written = m.written) fun b => Answers (K b) m m',
    fun _ m' => Silent m m', fun d _ => D d⟩ m

end

variable {P : Bool → Registry → Registry → Prop} {K : Bool → Bool → Response → Prop}

theorem Guarded.body {c : Control W Bool} (h : Guarded D P K c) : Body D P K c := fun env m =>
  Eff.wp_mono (h env m) (fun _ _ h' => h') (fun _ _ h' => h'.elim) (fun _ _ h' => h')

/-- What is silent first changes neither the answer nor what is kept. -/
theorem Silent.keeps_answers {P : Registry → Registry → Prop} {K : Bool → Response → Prop}
    {m₁ m₂ m₃ : Machine W} (h : Silent m₁ m₂) (h' : Keeps P m₂ m₃ ∧ Answers K m₂ m₃) :
    Keeps P m₁ m₃ ∧ Answers K m₁ m₃ :=
  ⟨h.toKeeps.trans h'.1 fun h₁ h₂ => h₁ ▸ h₂, h.answers h'.2⟩

/-- A quiet part may stand in front of a body: when it throws, nothing has been written. -/
theorem Body.bind {c : Control W α} {f : α → Control W Bool} (hc : Quiet D c)
    (hf : ∀ a, Body D P K (f a)) : Body D P K (c >>= f) := by
  intro env m
  rw [Eff.wp_bind]
  refine Eff.wp_mono (hc env m) (fun a m' h => ?_) (fun _ _ h => h) (fun _ _ h => h)
  exact Eff.wp_mono (hf a env m') (fun _ _ h' => h.keeps_answers h') (fun _ _ h' => h.trans h')
    (fun _ _ h' => h')

theorem Body.throw (e : String) : Body D P K (throw e : Control W Bool) := fun _ m => Silent.refl m

/-- And in front of a body that may leave its `try` early. -/
theorem BodyElse.bind {c : Control W α} {f : α → Control W (Option Bool)} (hc : Quiet D c)
    (hf : ∀ a, BodyElse D P K (f a)) : BodyElse D P K (c >>= f) := by
  intro env m
  rw [Eff.wp_bind]
  refine Eff.wp_mono (hc env m) (fun a m' h => ?_) (fun _ _ h => h) (fun _ _ h => h)
  refine Eff.wp_mono (hf a env m') (fun b _ h' => ?_) (fun _ _ h' => h.trans h')
    (fun _ _ h' => h')
  refine ⟨h.toKeeps.trans h'.1 fun h₁ h₂ => h₁ ▸ h₂, ?_⟩
  cases b with
  | none => exact h'.2.trans h.written
  | some b => exact h.answers h'.2

theorem BodyElse.none : BodyElse D Stays K (pure none : Control W (Option Bool)) :=
  fun _ m => ⟨Keeps.refl (fun _ => rfl) m, rfl⟩

theorem BodyElse.write {b : Bool} {r : Response} (h : ∀ j, K b j r) :
    BodyElse D Stays K (do write r; pure (some b) : Control W (Option Bool)) :=
  fun _ m => ⟨⟨⟨rfl, rfl, rfl, rfl⟩, rfl⟩, r, rfl, h m.session.json_mode⟩

/-- Writing a response and returning the flag it reports. -/
theorem Guarded.write {b : Bool} {r : Response} (hP : ∀ r, P b r r) (h : ∀ j, K b j r) :
    Guarded D P K (do write r; pure b : Control W Bool) :=
  fun _ m => ⟨⟨⟨rfl, rfl, rfl, rfl⟩, hP _⟩, r, rfl, h m.session.json_mode⟩

/-- A note and `return true`. -/
theorem Guarded.note {action : String} (hK : Approves K action) (text : String) :
    Guarded D Stays K (do writeNote action text; pure true : Control W Bool) :=
  Guarded.write (fun _ => rfl) (hK.note text)

theorem Guarded.attr {action : String} (hK : Approves K action) (pair : Attribute) :
    Guarded D Stays K (do writeAttribute action pair; pure true : Control W Bool) :=
  Guarded.write (fun _ => rfl) (hK.attr pair)

theorem Guarded.notes {action : String} (hK : Approves K action) (attributes : Attributes) :
    Guarded D Stays K (do writeNotes action attributes; pure true : Control W Bool) :=
  Guarded.write (fun _ => rfl) (hK.notes attributes)

/-- An error and `return false`. -/
theorem Guarded.error (action text : String) {status : CmdStatus} (h : status ≠ .no_error)
    (reason : String) :
    Guarded D Stays (Plain action)
      (do writeError action text status reason; pure false : Control W Bool) :=
  Guarded.write (fun _ => rfl) (Plain.error action text h reason)

/-- An exception that is reported, and `return false`. -/
theorem Guarded.exception {action : String} (hK : Approves K action) (hP : ∀ r, P false r r)
    (text : String) {status : CmdStatus} (h : status ≠ .no_error) (e : String) :
    Guarded D P K (do writeException action text status e; pure false : Control W Bool) :=
  Guarded.write hP (hK.exception text h e)

/-- The same with an update of the session in between. -/
theorem Guarded.write_update {b : Bool} {r : Response} {f : Session → Session} (hf : Lateral f)
    (h : ∀ j, K b j r) :
    Guarded D Stays K (do FepControl.write r; update f; pure b : Control W Bool) := fun _ m =>
  have ⟨hj, hm, ha, hr⟩ := hf m.session
  ⟨⟨⟨hj, hm, ha, rfl⟩, hr⟩, r, rfl, h m.session.json_mode⟩

/-- A part that looks at the session: the mode it sees is the mode its response is written in. -/
theorem Body.session {f : Session → Control W Bool}
    (hf : ∀ s, Body D P (fun b j r => j = s.json_mode → K b j r) (f s)) :
    Body D P K (session >>= f) := by
  intro env m
  show (f m.session).wp env _ m
  exact Eff.wp_mono (hf m.session env m)
    (fun _ _ h => ⟨h.1, h.2.imp fun _ hr => ⟨hr.1, hr.2 rfl⟩⟩) (fun _ _ h => h) (fun _ _ h => h)

/-- **A `try` block**: what its body throws it throws before it has answered, and then the handler
    answers. -/
theorem Guarded.tryCatch {c : Control W Bool} {h : String → Control W Bool} (hc : Body D P K c)
    (hh : ∀ e, Guarded D P K (h e)) : Guarded D P K (tryCatch c h) := by
  intro env m
  rw [Eff.wp_tryCatch]
  refine Eff.wp_mono (hc env m) (fun _ _ h => h) (fun e m' h => ?_) (fun _ _ h => h)
  exact Eff.wp_mono (hh e env m') (fun _ _ h' => h.keeps_answers h') (fun _ _ h' => h')
    (fun _ _ h' => h')

/-- A `try` block with the answer behind it. -/
theorem Guarded.tryElse {c : Control W (Option Bool)} {h : String → Control W Bool}
    {r : Response} (hc : BodyElse D P K c) (hh : ∀ e, Guarded D P K (h e)) (hr : ∀ j, K true j r) :
    Guarded D P K (Eff.tryElse c h (do FepControl.write r; pure true)) := by
  intro env m
  rw [Eff.wp_tryElse]
  refine Eff.wp_mono (hc env m) (fun b m' h => ?_) (fun e m' h => ?_) (fun _ _ h => h)
  · cases b with
    | none =>
      have hwritten : m'.written = m.written := h.2
      refine ⟨⟨⟨h.1.json_mode, h.1.monitor_json_mode, h.1.auto_discovery, h.1.logged⟩,
        h.1.registry⟩, r, ?_, hr _⟩
      rw [← hwritten, ← h.1.json_mode]; rfl
    | some b => exact h
  · exact Eff.wp_mono (hh e env m') (fun _ _ h' => h.keeps_answers h') (fun _ _ h' => h')
      (fun _ _ h' => h')

/-! ## Calling the library -/

/-- Two machines before one world. -/
def SameWorld (m m' : Machine W) : Prop := m.world = m'.world

/-- A call depends on nothing but the world. -/
theorem fep3_alike (c : Call) :
    Eff.Alike SameWorld Eq (fep3 c : Control W c.Reply) (fep3 c : Control W c.Reply) := by
  intro env m m' hworld
  unfold fep3
  rw [show m'.world = m.world from hworld.symm]
  rcases env.fep3 c m.world with ⟨_ | _, w⟩
  · exact ⟨rfl, rfl⟩
  · exact ⟨rfl, rfl⟩

/-- The library calls `cs`, one after the other. -/
def callAll : List Call → Control W Unit
  | [] => pure ()
  | c :: cs => do
      let _ ← fep3 c
      callAll cs

/-- The calls throw exactly where `Env.run` says so; they do nothing but call. -/
theorem callAll_wp (env : Env W) : ∀ (cs : List Call) (m : Machine W),
    (callAll cs).wp env ⟨fun _ m' => Silent m m' ∧ env.run m.world cs = some m'.world,
      fun _ m' => Silent m m' ∧ env.AnyThrows m.world cs, fun _ _ => False⟩ m
  | [], m => ⟨Silent.refl m, rfl⟩
  | c :: cs, m => by
      unfold Eff.wp callAll Env.AnyThrows Env.run
      rcases h : env.fep3 c m.world with ⟨e | reply, w⟩
      · rw [Eff.bind_of_throws (fep3_throws h)]
        exact ⟨Silent.called m c true w, rfl⟩
      · rw [Eff.bind_of_ok (fep3_ok h)]
        have hcall := Silent.called m c false w
        exact Eff.wp_mono (callAll_wp env cs (m.called c false w))
          (fun _ _ h' => ⟨hcall.trans h'.1, h'.2⟩) (fun _ _ h' => ⟨hcall.trans h'.1, h'.2⟩)
          (fun _ _ h' => h')

/-- Calls that are made in two parts. -/
theorem callAll_append : ∀ cs cs' : List Call,
    (callAll (cs ++ cs') : Control W Unit) = (do callAll cs; callAll cs')
  | [], _ => rfl
  | c :: cs, cs' => by
      rw [List.cons_append, callAll, callAll, callAll_append cs cs', bind_assoc]

end FepControl
