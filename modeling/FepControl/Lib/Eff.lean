/-
  Computations of an imperative program: they read an environment, change a state, may throw an
  exception that a handler can catch, and may stop the process for good.

  The three ways to end are kept apart because the language keeps them apart.  A handler gets the
  exception and the state as it was when it was thrown; nothing is rolled back.  What stops the
  process, a call of `exit` or an access that the language leaves undefined, no handler ever sees.
  A computation is a plain function, so that all of this can be evaluated; the rest of the file is
  what is needed to reason about it without unfolding it.

  1. **Outcome** -- `ok a`, `throws e`, `stops d`.  The state reached is there in all three cases.

  2. **wp** -- `c.wp r Q s` says that `c`, started in `s`, ends as `Q` asks for the way it ends.  A
     computation is a function, so `wp` gives its outcome exactly; the rules below read off the
     outcome of a composed computation from those of its parts (`wp_bind`, `wp_tryCatch`,
     `wp_mono`).

  3. **Stops** -- whether a computation stops is a `wp` too, and read off its parts: sequencing
     stops in either part, and a handler does not help (`stops_bind`, `stops_tryCatch`).

  4. **Alike** -- two computations over different states go alike when related states lead to ends
     of one kind that are related again; this too is closed under sequencing.

  5. **Always** -- a computation may end in one way whatever state it starts in; what is run after
     it starts from a known value.
-/

namespace Lib

/-- How a computation ends. -/
inductive Outcome (ε δ α : Type) where
  /-- with a value -/
  | ok (a : α)
  /-- with an exception -/
  | throws (e : ε)
  /-- not at all: the process is gone -/
  | stops (d : δ)
  deriving DecidableEq, Repr

/-- The same end, with another value. -/
def Outcome.map {ε δ α β : Type} (f : α → β) : Outcome ε δ α → Outcome ε δ β
  | ok a => ok (f a)
  | throws e => throws e
  | stops d => stops d

theorem Outcome.map_ne_ok {ε δ α β : Type} {f : α → β} {b : β} (h : ∀ a, f a ≠ b)
    (o : Outcome ε δ α) : o.map f ≠ .ok b := by
  cases o with
  | ok a => exact fun heq => h a (Outcome.ok.inj heq)
  | throws e => exact nofun
  | stops d => exact nofun

/-- A computation over an environment `ρ` and a state `σ`. -/
def Eff (ρ σ ε δ α : Type) : Type := ρ → σ → Outcome ε δ α × σ

namespace Eff

variable {ρ σ ε δ α β : Type}

/-- What follows a value; an exception and a stop are passed on. -/
def andThen (f : α → Eff ρ σ ε δ β) (r : ρ) : Outcome ε δ α × σ → Outcome ε δ β × σ
  | (.ok a, s) => f a r s
  | (.throws e, s) => (.throws e, s)
  | (.stops d, s) => (.stops d, s)

/-- What follows an exception; a value and a stop are passed on. -/
def orElse (h : ε → Eff ρ σ ε δ α) (r : ρ) : Outcome ε δ α × σ → Outcome ε δ α × σ
  | (.ok a, s) => (.ok a, s)
  | (.throws e, s) => h e r s
  | (.stops d, s) => (.stops d, s)

instance : Monad (Eff ρ σ ε δ) where
  pure a := fun _ s => (.ok a, s)
  bind c f := fun r s => andThen f r (c r s)

instance : MonadExcept ε (Eff ρ σ ε δ) where
  throw e := fun _ s => (.throws e, s)
  tryCatch c h := fun r s => orElse h r (c r s)

/-- The environment. -/
def read : Eff ρ σ ε δ ρ := fun r s => (.ok r, s)

/-- The state. -/
def get : Eff ρ σ ε δ σ := fun _ s => (.ok s, s)

/-- Change the state. -/
def modify (f : σ → σ) : Eff ρ σ ε δ Unit := fun _ s => (.ok (), f s)

/-- End the process. -/
def stop (d : δ) : Eff ρ σ ε δ α := fun _ s => (.stops d, s)

/-- `try { c } catch (e) { h } k`, where `c` may leave the function and `h` does: `some b` of `c`
    and every value of `h` is returned, and after `none` the code goes on with `k`, which is not
    in the `try`. -/
def tryElse (c : Eff ρ σ ε δ (Option β)) (h : ε → Eff ρ σ ε δ β) (k : Eff ρ σ ε δ β) :
    Eff ρ σ ε δ β := fun r s =>
  match c r s with
  | (.ok (some b), s') => (.ok b, s')
  | (.ok none, s') => k r s'
  | (.throws e, s') => h e r s'
  | (.stops d, s') => (.stops d, s')

@[simp] theorem pure_apply (a : α) (r : ρ) (s : σ) :
    (pure a : Eff ρ σ ε δ α) r s = (.ok a, s) := rfl

/-- Sequencing, on a state: the first part ends, and the second goes on if it has not failed. -/
theorem bind_apply (c : Eff ρ σ ε δ α) (f : α → Eff ρ σ ε δ β) (r : ρ) (s : σ) :
    (c >>= f) r s = andThen f r (c r s) := rfl

/-- A handler, on a state: it goes on where the exception was thrown. -/
theorem tryCatch_apply (c : Eff ρ σ ε δ α) (h : ε → Eff ρ σ ε δ α) (r : ρ) (s : σ) :
    (tryCatch c h) r s = orElse h r (c r s) := rfl

theorem bind_pure_id (c : Eff ρ σ ε δ α) : id <$> c = c := by
  funext r s
  show andThen (fun a => pure a) r (c r s) = c r s
  rcases c r s with ⟨_ | _ | _, s'⟩ <;> rfl

theorem bind_bind {γ : Type} (c : Eff ρ σ ε δ α) (f : α → Eff ρ σ ε δ β)
    (g : β → Eff ρ σ ε δ γ) : c >>= f >>= g = c >>= fun a => f a >>= g := by
  funext r s
  show andThen g r (andThen f r (c r s)) = andThen (fun a => f a >>= g) r (c r s)
  rcases c r s with ⟨_ | _ | _, s'⟩ <;> rfl

instance : LawfulMonad (Eff ρ σ ε δ) :=
  LawfulMonad.mk' _ bind_pure_id (fun _ _ => rfl) bind_bind

/-- A value is what the continuation starts from. -/
theorem bind_of_ok {c : Eff ρ σ ε δ α} {r : ρ} {s s' : σ} {a : α} (h : c r s = (.ok a, s'))
    (f : α → Eff ρ σ ε δ β) : (c >>= f) r s = f a r s' := by
  rw [bind_apply, h]; rfl

/-- What throws is not gone on with. -/
theorem bind_of_throws {c : Eff ρ σ ε δ α} {r : ρ} {s s' : σ} {e : ε}
    (h : c r s = (.throws e, s')) (f : α → Eff ρ σ ε δ β) : (c >>= f) r s = (.throws e, s') := by
  rw [bind_apply, h]; rfl

/-! ## Weakest preconditions -/

/-- What is asked of the end of a computation, one predicate for each way to end. -/
structure Post (σ ε δ α : Type) where
  ok : α → σ → Prop
  throws : ε → σ → Prop
  stops : δ → σ → Prop

/-- `Q` holds of this end. -/
def Post.Holds (Q : Post σ ε δ α) : Outcome ε δ α × σ → Prop
  | (.ok a, s) => Q.ok a s
  | (.throws e, s) => Q.throws e s
  | (.stops d, s) => Q.stops d s

/-- The computation, started in `s`, ends as `Q` asks. -/
def wp (c : Eff ρ σ ε δ α) (r : ρ) (Q : Post σ ε δ α) (s : σ) : Prop := Q.Holds (c r s)

/-- The first computation has to end so that the second one ends as asked. -/
theorem wp_bind (c : Eff ρ σ ε δ α) (f : α → Eff ρ σ ε δ β) (r : ρ) (Q : Post σ ε δ β) (s : σ) :
    wp (c >>= f) r Q s ↔ wp c r ⟨fun a s' => wp (f a) r Q s', Q.throws, Q.stops⟩ s := by
  unfold wp
  rw [bind_apply]
  rcases c r s with ⟨_ | _ | _, s'⟩ <;> exact Iff.rfl

/-- The body may throw where the handler then ends as asked. -/
theorem wp_tryCatch (c : Eff ρ σ ε δ α) (h : ε → Eff ρ σ ε δ α) (r : ρ) (Q : Post σ ε δ α)
    (s : σ) :
    wp (tryCatch c h) r Q s ↔ wp c r ⟨Q.ok, fun e s' => wp (h e) r Q s', Q.stops⟩ s := by
  unfold wp
  rw [tryCatch_apply]
  rcases c r s with ⟨_ | _ | _, s'⟩ <;> exact Iff.rfl

/-- The rule for a block that may return early: it returns, goes on behind the block, or its handler
    returns. -/
theorem wp_tryElse (c : Eff ρ σ ε δ (Option β)) (h : ε → Eff ρ σ ε δ β) (k : Eff ρ σ ε δ β)
    (r : ρ) (Q : Post σ ε δ β) (s : σ) :
    wp (tryElse c h k) r Q s ↔
      wp c r ⟨fun b s' => b.elim (wp k r Q s') (Q.ok · s'), fun e s' => wp (h e) r Q s',
        Q.stops⟩ s := by
  unfold wp tryElse
  rcases c r s with ⟨(_ | _) | _ | _, s'⟩ <;> exact Iff.rfl

/-- The rule of consequence. -/
theorem wp_mono {c : Eff ρ σ ε δ α} {r : ρ} {Q Q' : Post σ ε δ α} {s : σ} (h : wp c r Q s)
    (hok : ∀ a s', Q.ok a s' → Q'.ok a s') (hthrows : ∀ e s', Q.throws e s' → Q'.throws e s')
    (hstops : ∀ d s', Q.stops d s' → Q'.stops d s') : wp c r Q' s := by
  unfold wp at h ⊢
  rcases hc : c r s with ⟨a | e | d, s'⟩
  · rw [hc] at h; exact hok a s' h
  · rw [hc] at h; exact hthrows e s' h
  · rw [hc] at h; exact hstops d s' h

/-- What holds of every end holds of this one. -/
theorem wp_ok {c : Eff ρ σ ε δ α} {r : ρ} {Q : Post σ ε δ α} {s s' : σ} {a : α}
    (h : wp c r Q s) (hc : c r s = (.ok a, s')) : Q.ok a s' := by
  unfold wp at h; rwa [hc] at h

theorem wp_throws {c : Eff ρ σ ε δ α} {r : ρ} {Q : Post σ ε δ α} {s s' : σ} {e : ε}
    (h : wp c r Q s) (hc : c r s = (.throws e, s')) : Q.throws e s' := by
  unfold wp at h; rwa [hc] at h

theorem wp_stops {c : Eff ρ σ ε δ α} {r : ρ} {Q : Post σ ε δ α} {s s' : σ} {d : δ}
    (h : wp c r Q s) (hc : c r s = (.stops d, s')) : Q.stops d s' := by
  unfold wp at h; rwa [hc] at h

/-! ## Stopping -/

/-- The computation, started in `s`, stops the process. -/
def Stops (c : Eff ρ σ ε δ α) (r : ρ) (s : σ) : Prop :=
  wp c r ⟨fun _ _ => False, fun _ _ => False, fun _ _ => True⟩ s

/-- A sequence stops in its first part, or in the second part behind it. -/
theorem stops_bind (c : Eff ρ σ ε δ α) (f : α → Eff ρ σ ε δ β) (r : ρ) (s : σ) :
    Stops (c >>= f) r s ↔ Stops c r s ∨ ∃ a s', c r s = (.ok a, s') ∧ Stops (f a) r s' := by
  unfold Stops
  rw [wp_bind]
  unfold wp
  rcases c r s with ⟨a | e | d, s'⟩
  · constructor
    · exact fun h => .inr ⟨a, s', rfl, h⟩
    · rintro (h | ⟨_, _, heq, h⟩)
      · exact h.elim
      · cases heq; exact h
  · constructor
    · exact False.elim
    · rintro (h | ⟨_, _, heq, _⟩)
      · exact h
      · cases heq
  · exact ⟨fun _ => .inl trivial, fun _ => trivial⟩

/-- A continuation that never stops leaves the stops of the first computation. -/
theorem stops_bind_left {c : Eff ρ σ ε δ α} {f : α → Eff ρ σ ε δ β} {r : ρ}
    (hf : ∀ a s, ¬ Stops (f a) r s) (s : σ) : Stops (c >>= f) r s ↔ Stops c r s := by
  rw [stops_bind]
  constructor
  · rintro (h | ⟨a, s', _, h⟩)
    · exact h
    · exact absurd h (hf a s')
  · exact .inl

/-- A handler that never stops leaves the stops of the body. -/
theorem stops_tryCatch {c : Eff ρ σ ε δ α} {h : ε → Eff ρ σ ε δ α} {r : ρ}
    (hh : ∀ e s, ¬ Stops (h e) r s) (s : σ) : Stops (tryCatch c h) r s ↔ Stops c r s := by
  unfold Stops
  rw [wp_tryCatch]
  unfold wp
  rcases c r s with ⟨a | e | d, s'⟩
  · exact Iff.rfl
  · exact iff_of_false (hh e s') id
  · exact Iff.rfl

/-- A computation that ends in another way does not stop. -/
theorem not_stops_of_wp {c : Eff ρ σ ε δ α} {r : ρ} {Q : Post σ ε δ α} {s : σ} (h : wp c r Q s)
    (hstops : ∀ d s', ¬ Q.stops d s') : ¬ Stops c r s := by
  unfold Stops wp at *
  rcases hc : c r s with ⟨a | e | d, s'⟩
  · exact id
  · exact id
  · rw [hc] at h; exact fun _ => hstops d s' h

/-- To stop is to have an end of this kind. -/
theorem stops_iff {c : Eff ρ σ ε δ α} {r : ρ} {s : σ} :
    Stops c r s ↔ ∃ d s', c r s = (.stops d, s') := by
  unfold Stops wp
  rcases c r s with ⟨a | e | d, s'⟩
  · exact iff_of_false id nofun
  · exact iff_of_false id nofun
  · exact iff_of_true trivial ⟨d, s', rfl⟩

/-! ## Two computations that go alike -/

variable {σ' α' β' : Type}

/-- Two ends are of one kind, with related values and states. -/
def Related (S : σ → σ' → Prop) (R : α → α' → Prop) :
    Outcome ε δ α × σ → Outcome ε δ α' × σ' → Prop
  | (.ok a, s), (.ok a', s') => R a a' ∧ S s s'
  | (.throws e, s), (.throws e', s') => e = e' ∧ S s s'
  | (.stops d, s), (.stops d', s') => d = d' ∧ S s s'
  | _, _ => False

/-- Two computations end alike whenever they start in related states. -/
def Alike (S : σ → σ' → Prop) (R : α → α' → Prop) (c : Eff ρ σ ε δ α) (c' : Eff ρ σ' ε δ α') :
    Prop := ∀ r s s', S s s' → Related S R (c r s) (c' r s')

variable {S : σ → σ' → Prop}

theorem Alike.pure {R : α → α' → Prop} {a : α} {a' : α'} (h : R a a') :
    Alike S R (pure a : Eff ρ σ ε δ α) (pure a' : Eff ρ σ' ε δ α') := fun _ _ _ hs => ⟨h, hs⟩

theorem Alike.stop {R : α → α' → Prop} (d : δ) :
    Alike S R (stop d : Eff ρ σ ε δ α) (stop d : Eff ρ σ' ε δ α') := fun _ _ _ hs => ⟨rfl, hs⟩

/-- Sequences of computations that go alike go alike. -/
theorem Alike.bind {R : α → α' → Prop} {R' : β → β' → Prop} {c : Eff ρ σ ε δ α}
    {c' : Eff ρ σ' ε δ α'} {f : α → Eff ρ σ ε δ β} {f' : α' → Eff ρ σ' ε δ β'}
    (hc : Alike S R c c') (hf : ∀ a a', R a a' → Alike S R' (f a) (f' a')) :
    Alike S R' (c >>= f) (c' >>= f') := by
  intro r s s' hs
  have h := hc r s s' hs
  rw [bind_apply, bind_apply]
  generalize c r s = x, c' r s' = x' at h ⊢
  rcases x with ⟨a | e | d, s₁⟩ <;> rcases x' with ⟨a' | e' | d', s₁'⟩
  case ok.ok => exact hf a a' h.1 r s₁ s₁' h.2
  case throws.throws => exact h
  case stops.stops => exact h
  all_goals exact h.elim

/-- Of two computations that go alike both stop or neither does. -/
theorem Alike.stops_iff {R : α → α' → Prop} {c : Eff ρ σ ε δ α} {c' : Eff ρ σ' ε δ α'}
    (h : Alike S R c c') {r : ρ} {s : σ} {s' : σ'} (hs : S s s') :
    Stops c r s ↔ Stops c' r s' := by
  have h := h r s s' hs
  unfold Stops wp
  generalize c r s = x, c' r s' = x' at h ⊢
  rcases x with ⟨a | e | d, s₁⟩ <;> rcases x' with ⟨a' | e' | d', s₁'⟩
  case ok.ok => exact Iff.rfl
  case throws.throws => exact Iff.rfl
  case stops.stops => exact Iff.rfl
  all_goals exact h.elim

/-! ## Ends that do not depend on the state -/

/-- The computation ends this way from every state. -/
def Always (r : ρ) (c : Eff ρ σ ε δ α) (o : Outcome ε δ α) : Prop := ∀ s, (c r s).1 = o

theorem Always.pure (r : ρ) (a : α) : Always r (Pure.pure a : Eff ρ σ ε δ α) (.ok a) := fun _ => rfl

theorem Always.eq {r : ρ} {c : Eff ρ σ ε δ α} {o : Outcome ε δ α} (h : Always r c o) (s : σ) :
    ∃ s', c r s = (o, s') := ⟨(c r s).2, Prod.ext (h s) rfl⟩

/-- What follows a known value ends as it does for this value. -/
theorem Always.bind {r : ρ} {c : Eff ρ σ ε δ α} {a : α} {f : α → Eff ρ σ ε δ β}
    {o : Outcome ε δ β} (hc : Always r c (.ok a)) (hf : Always r (f a) o) :
    Always r (c >>= f) o := by
  intro s
  obtain ⟨s', hs⟩ := hc.eq s
  rw [bind_of_ok hs]
  exact hf s'

theorem Always.bind_stops {r : ρ} {c : Eff ρ σ ε δ α} {d : δ} (hc : Always r c (.stops d))
    (f : α → Eff ρ σ ε δ β) : Always r (c >>= f) (.stops d) := by
  intro s
  obtain ⟨s', hs⟩ := hc.eq s
  rw [bind_apply, hs]
  rfl

/-- A computation that returns or stops, as a condition says, and one that follows the value. -/
theorem Always.bind_if {r : ρ} {c : Eff ρ σ ε δ α} {p : Prop} [Decidable p] {a : α} {d : δ}
    {f : α → Eff ρ σ ε δ β} {o : Outcome ε δ β}
    (hc : Always r c (if p then .ok a else .stops d)) (hf : Always r (f a) o) :
    Always r (c >>= f) (if p then o else .stops d) := by
  by_cases hp : p
  · rw [if_pos hp] at hc ⊢
    exact hc.bind hf
  · rw [if_neg hp] at hc ⊢
    exact hc.bind_stops f

end Eff

end Lib
