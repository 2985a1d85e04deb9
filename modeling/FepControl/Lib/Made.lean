/-
  Computations that are made of basic ones.

  A program that is written against an interface can do no more than the calls of the interface can
  do.  To use that, it has to be known which calls it makes, in whatever order and however often,
  and with its own handlers around them.  `Made E B c` says this of a computation without looking at
  its states: it is an inductive relation, with one rule for each way to put computations together,
  and a computation is shown to be made so once and for all by going through its text.

  1. **Gives** -- the values that a computation can give at all, in an environment that satisfies
     `E`.

  2. **Made** -- `c` is put together, by sequencing and by the handling of exceptions, from
     computations that satisfy `B`.  A continuation need only be made so for the values that the
     first part can give.

  3. **Two rules** -- what every basic computation does to the state, a computation made of them
     does (`Made.frame`); and what makes two states the same for every basic computation makes them
     the same for the whole (`Made.alike`).  Both are inductions on how the computation is made.
-/
import FepControl.Lib.Eff

namespace Lib

namespace Eff

variable {ρ σ ε δ α β : Type}

/-- `c` can end with the value `a`, in an environment that satisfies `E`. -/
def Gives (E : ρ → Prop) (c : Eff ρ σ ε δ α) (a : α) : Prop :=
  ∃ r s s', E r ∧ c r s = (.ok a, s')

/-- `c` is made of computations that satisfy `B`. -/
inductive Made (E : ρ → Prop) (B : (α : Type) → Eff ρ σ ε δ α → Prop) :
    {α : Type} → Eff ρ σ ε δ α → Prop where
  | basic {α : Type} {c : Eff ρ σ ε δ α} (h : B α c) : Made E B c
  | pure {α : Type} (a : α) : Made E B (pure a : Eff ρ σ ε δ α)
  | throw {α : Type} (e : ε) : Made E B (throw e : Eff ρ σ ε δ α)
  | stop {α : Type} (d : δ) : Made E B (stop d : Eff ρ σ ε δ α)
  | bind {α β : Type} {c : Eff ρ σ ε δ α} {f : α → Eff ρ σ ε δ β} (hc : Made E B c)
      (hf : ∀ a, Gives E c a → Made E B (f a)) : Made E B (c >>= f)
  | tryCatch {α : Type} {c : Eff ρ σ ε δ α} {h : ε → Eff ρ σ ε δ α} (hc : Made E B c)
      (hh : ∀ e, Made E B (h e)) : Made E B (tryCatch c h)
  | tryElse {α : Type} {c : Eff ρ σ ε δ (Option α)} {h : ε → Eff ρ σ ε δ α} {k : Eff ρ σ ε δ α}
      (hc : Made E B c) (hh : ∀ e, Made E B (h e)) (hk : Made E B k) :
      Made E B (tryElse c h k)

variable {E : ρ → Prop} {B B' : (α : Type) → Eff ρ σ ε δ α → Prop}

/-- Sequencing where nothing is known of the value. -/
theorem Made.andThen {c : Eff ρ σ ε δ α} {f : α → Eff ρ σ ε δ β} (hc : Made E B c)
    (hf : ∀ a, Made E B (f a)) : Made E B (c >>= f) := .bind hc fun a _ => hf a

/-- With more basic computations more is made. -/
theorem Made.mono {c : Eff ρ σ ε δ α} (h : Made E B c) (hB : ∀ α c, B α c → B' α c) :
    Made E B' c := by
  induction h with
  | basic h => exact .basic (hB _ _ h)
  | pure a => exact .pure a
  | throw e => exact .throw e
  | stop d => exact .stop d
  | bind _ _ hc hf => exact .bind hc hf
  | tryCatch _ _ hc hh => exact .tryCatch hc hh
  | tryElse _ _ _ hc hh hk => exact .tryElse hc hh hk

/-! ## What a computation does to the state -/

/-- However the computation ends, its state is related to the one it started in. -/
abbrev framePost (R : σ → σ → Prop) (s : σ) : Post σ ε δ α :=
  ⟨fun _ s' => R s s', fun _ s' => R s s', fun _ s' => R s s'⟩

/-- **The frame rule**: what every basic computation does to the state, whatever is made of them
    does. -/
theorem Made.frame {R : σ → σ → Prop} (hrefl : ∀ s, R s s)
    (htrans : ∀ {s₁ s₂ s₃}, R s₁ s₂ → R s₂ s₃ → R s₁ s₃)
    (hB : ∀ α c, B α c → ∀ r s, E r → wp c r (framePost R s) s)
    {c : Eff ρ σ ε δ α} (h : Made E B c) {r : ρ} (hr : E r) (s : σ) :
    wp c r (framePost R s) s := by
  -- what follows a part that has led to `s'` is framed from the start on
  have hthen : ∀ {α : Type} {c : Eff ρ σ ε δ α} {s s' : σ}, R s s' →
      wp c r (framePost R s') s' → wp c r (framePost R s) s' := by
    intro α c s s' hs h
    exact wp_mono h (fun _ _ h' => htrans hs h') (fun _ _ h' => htrans hs h')
      (fun _ _ h' => htrans hs h')
  induction h generalizing s with
  | basic h => exact hB _ _ h r s hr
  | pure a => exact hrefl s
  | throw e => exact hrefl s
  | stop d => exact hrefl s
  | @bind α β c f _ _ hc hf =>
    rw [wp_bind]
    have hfirst := hc s
    unfold wp at hfirst ⊢
    rcases heq : c r s with ⟨a | e | d, s'⟩
    · rw [heq] at hfirst
      exact hthen hfirst (hf a ⟨r, s, s', hr, heq⟩ s')
    · rw [heq] at hfirst; exact hfirst
    · rw [heq] at hfirst; exact hfirst
  | tryCatch _ _ hc hh =>
    rw [wp_tryCatch]
    exact wp_mono (hc s) (fun _ _ h => h) (fun e s' h => hthen h (hh e s')) (fun _ _ h => h)
  | tryElse _ _ _ hc hh hk =>
    rw [wp_tryElse]
    refine wp_mono (hc s) (fun b s' h => ?_) (fun e s' h => hthen h (hh e s')) (fun _ _ h => h)
    cases b with
    | none => exact hthen h (hk s')
    | some b => exact h

/-! ## What a computation does not look at -/

/-- **The rule for two states**: whatever is made of computations that cannot tell two states apart
    cannot tell them apart either. -/
theorem Made.alike {S : σ → σ → Prop}
    (hB : ∀ α c, B α c → ∀ r s s', E r → S s s' → Related S Eq (c r s) (c r s'))
    {c : Eff ρ σ ε δ α} (h : Made E B c) {r : ρ} (hr : E r) {s s' : σ} (hs : S s s') :
    Related S Eq (c r s) (c r s') := by
  induction h generalizing s s' with
  | basic h => exact hB _ _ h r s s' hr hs
  | pure a => exact ⟨rfl, hs⟩
  | throw e => exact ⟨rfl, hs⟩
  | stop d => exact ⟨rfl, hs⟩
  | @bind α β c f _ _ hc hf =>
    have hfirst := hc hs
    rw [bind_apply, bind_apply]
    generalize heq : c r s = x, c r s' = x' at hfirst ⊢
    rcases x with ⟨a | e | d, s₁⟩ <;> rcases x' with ⟨a' | e' | d', s₁'⟩
    case ok.ok =>
      obtain ⟨rfl, hs₁⟩ := hfirst
      exact hf a ⟨r, s, s₁, hr, heq⟩ hs₁
    case throws.throws => exact hfirst
    case stops.stops => exact hfirst
    all_goals exact hfirst.elim
  | @tryCatch α c h _ _ hc hh =>
    have hfirst := hc hs
    rw [tryCatch_apply, tryCatch_apply]
    generalize c r s = x, c r s' = x' at hfirst ⊢
    rcases x with ⟨a | e | d, s₁⟩ <;> rcases x' with ⟨a' | e' | d', s₁'⟩
    case ok.ok => exact hfirst
    case throws.throws =>
      obtain ⟨rfl, hs₁⟩ := hfirst
      exact hh e hs₁
    case stops.stops => exact hfirst
    all_goals exact hfirst.elim
  | @tryElse α c h k _ _ _ hc hh hk =>
    have hfirst := hc hs
    unfold Eff.tryElse
    generalize c r s = x, c r s' = x' at hfirst ⊢
    rcases x with ⟨(_ | b) | e | d, s₁⟩ <;> rcases x' with ⟨(_ | b') | e' | d', s₁'⟩
    case ok.none.ok.none => exact hk hfirst.2
    case ok.some.ok.some =>
      obtain ⟨hb, hs₁⟩ := hfirst
      exact ⟨Option.some.inj hb, hs₁⟩
    case throws.throws =>
      obtain ⟨rfl, hs₁⟩ := hfirst
      exact hh e hs₁
    case stops.stops => exact hfirst
    case ok.none.ok.some => exact absurd hfirst.1 nofun
    case ok.some.ok.none => exact absurd hfirst.1 nofun
    all_goals exact hfirst.elim

end Eff

end Lib
