/-
  Setting a priority, and getting it again.

  A participant has two priorities, for initializing and for starting.  The setters take the
  priority as a word of the command line and read it with `std::stoi`; the getters write the number
  with `std::to_string`.  Three parties have a say: `stoi`, the library that keeps the numbers, and
  the handlers in between.

  1. **stoi** -- it skips whitespace, reads a numeral, and ignores what follows (`stoi_eq_ok_iff`).
     A priority is a whole numeral; a string that is `ReadInPart` is none, but holds one for `stoi`
     to find.  Every string on which `stoi` answers is one or the other
     (`isPriority_or_readInPart`).

  2. **StoresPriorities** -- a library that keeps the two priorities of a participant: what is set
     is what is read, and neither disturbs the other.

  3. **The commands** -- setter and getter are a lookup of the participant and a rest (`setter_eq`,
     `getter_eq`).  Behind the lookup the setter hands over what `stoi` has read, or answers with
     the text of the exception that it throws.

  4. **priorityLaw_iff** -- so the setter keeps the law, a priority is set and a string that is none
     is refused, for all strings but those that `stoi` reads in part: `12abc` sets 12.
-/
import FepControl.Lib.Decimal
import FepControl.OnSystem
import FepControl.Commands.Participant
import Mathlib.Logic.Function.Basic

namespace FepControl

open Lib

variable {W : Type}

/-! ## stoi -/

/-- The range of a 32 bit `int`. -/
def InIntRange (n : Int) : Prop := -2147483648 ≤ n ∧ n ≤ 2147483647

instance (n : Int) : Decidable (InIntRange n) := inferInstanceAs (Decidable (_ ∧ _))

/-- The string is a whole numeral within the range of `int`. -/
def IsPriority (t : String) (n : Int) : Prop := SignedDecimal t.toList n ∧ InIntRange n

/-- The string holds a numeral within the range, behind whitespace or in front of something that is
    no digit, or both. -/
def ReadInPart (t : String) : Prop :=
  ∃ ws cs rest n, t.toList = ws ++ (cs ++ rest) ∧ (∀ c ∈ ws, isspace c = true) ∧
    SignedDecimal cs n ∧ InIntRange n ∧ (∀ c, rest.head? = some c → c.isDigit = false) ∧
    (ws ≠ [] ∨ rest ≠ [])

/-- What `stoi` does behind the sign. -/
def readDigits (negative : Bool) (cs : List Char) : Except String Int :=
  let digits := cs.takeWhile Char.isDigit
  if digits.isEmpty then .error "stoi"
  else
    let n : Int := digits.foldl (fun n c => 10 * n + (c.toNat - '0'.toNat : Nat)) 0
    let value := if negative then -n else n
    if -2147483648 ≤ value ∧ value ≤ 2147483647 then .ok value else .error "stoi"

/-- The sign in front of `cs`, if there is one. -/
inductive Sign : (negative : Bool) → (sign cs : List Char) → Prop where
  | minus (cs : List Char) : Sign true ['-'] cs
  | plus (cs : List Char) : Sign false ['+'] cs
  | none {cs : List Char} (hminus : cs.head? ≠ some '-') (hplus : cs.head? ≠ some '+') :
      Sign false [] cs

/-- Every string begins with a sign, or with none. -/
theorem exists_sign (p : List Char) :
    ∃ negative sign cs, p = sign ++ cs ∧ Sign negative sign cs := by
  by_cases hminus : p.head? = some '-'
  · obtain ⟨cs, rfl⟩ := List.head?_eq_some_iff.mp hminus
    exact ⟨true, ['-'], cs, rfl, .minus cs⟩
  · by_cases hplus : p.head? = some '+'
    · obtain ⟨cs, rfl⟩ := List.head?_eq_some_iff.mp hplus
      exact ⟨false, ['+'], cs, rfl, .plus cs⟩
    · exact ⟨false, [], p, rfl, .none hminus hplus⟩

/-- Behind whitespace and sign, `stoi` reads digits. -/
theorem stoi_eq {t : String} {negative : Bool} {sign cs : List Char}
    (h : t.toList.dropWhile isspace = sign ++ cs) (hsign : Sign negative sign cs) :
    stoi t = readDigits negative cs := by
  unfold stoi
  rw [h]
  cases hsign with
  | minus => rfl
  | plus => rfl
  | none hminus hplus =>
    rw [List.nil_append]
    cases cs with
    | nil => rfl
    | cons c cs =>
      split
      · rename_i heq
        split at heq
        · rename_i heq'
          exact absurd (congrArg List.head? heq') hminus
        · rename_i heq'
          exact absurd (congrArg List.head? heq') hplus
        · cases heq
          rfl

/-- The digits that are read. -/
theorem foldl_digits (digits : List Char) : ∀ k : Nat,
    digits.foldl (fun (n : Int) c => 10 * n + (c.toNat - '0'.toNat : Nat)) k =
      Nat.ofDigitChars 10 digits k := by
  induction digits with
  | nil => intro k; rfl
  | cons c digits ih =>
    intro k
    rw [List.foldl_cons, Nat.ofDigitChars_cons, ← ih]
    congr 1

/-- What is in front of a character that stops it is taken. -/
theorem takeWhile_append_of_head {p : Char → Bool} {cs rest : List Char}
    (hcs : ∀ c ∈ cs, p c = true) (hrest : ∀ c, rest.head? = some c → p c = false) :
    (cs ++ rest).takeWhile p = cs ∧ (cs ++ rest).dropWhile p = rest := by
  induction cs with
  | nil =>
    cases rest with
    | nil => exact ⟨rfl, rfl⟩
    | cons c rest => simp [hrest c rfl]
  | cons c cs ih =>
    have hc := hcs c List.mem_cons_self
    have ih := ih fun d hd => hcs d (List.mem_cons_of_mem c hd)
    simp [hc, ih]

/-- The first character that is not dropped has stopped it. -/
theorem not_of_head?_dropWhile {p : Char → Bool} {cs : List Char} {c : Char}
    (h : (cs.dropWhile p).head? = some c) : p c = false := by
  have hnot := List.head?_dropWhile_not p cs
  rw [h] at hnot
  exact hnot

/-- The integer that digits denote behind a sign. -/
def signedValue (negative : Bool) (digits : List Char) : Int :=
  if negative then -(Nat.ofDigitChars 10 digits 0) else Nat.ofDigitChars 10 digits 0

/-- What is read is the longest run of digits, if there is one and its value is an `int`. -/
theorem readDigits_eq (negative : Bool) (cs : List Char) : readDigits negative cs =
    if cs.takeWhile Char.isDigit = [] then .error "stoi"
    else if InIntRange (signedValue negative (cs.takeWhile Char.isDigit)) then
      .ok (signedValue negative (cs.takeWhile Char.isDigit))
    else .error "stoi" := by
  have hfold := foldl_digits (cs.takeWhile Char.isDigit) 0
  unfold readDigits signedValue InIntRange
  simp only [List.isEmpty_iff]
  rw [← hfold]
  rfl

/-- The digits that are read, and the value, for a reader who does not know how they are found. -/
theorem readDigits_eq_ok_iff {negative : Bool} {cs : List Char} {n : Int} :
    readDigits negative cs = .ok n ↔ ∃ digits rest, cs = digits ++ rest ∧ digits ≠ [] ∧
      (∀ c ∈ digits, c.isDigit = true) ∧ (∀ c, rest.head? = some c → c.isDigit = false) ∧
      InIntRange n ∧ n = signedValue negative digits := by
  rw [readDigits_eq]
  constructor
  · intro h
    by_cases hempty : cs.takeWhile Char.isDigit = []
    · rw [if_pos hempty] at h
      cases h
    · rw [if_neg hempty] at h
      by_cases hrange : InIntRange (signedValue negative (cs.takeWhile Char.isDigit))
      · rw [if_pos hrange] at h
        obtain rfl := Except.ok.inj h
        refine ⟨cs.takeWhile Char.isDigit, cs.dropWhile Char.isDigit,
          List.takeWhile_append_dropWhile.symm, hempty, ?_, ?_, hrange, rfl⟩
        · exact List.all_eq_true.mp List.all_takeWhile
        · exact fun c hc => not_of_head?_dropWhile hc
      · rw [if_neg hrange] at h
        cases h
  · rintro ⟨digits, rest, rfl, hne, hdigits, hrest, hrange, rfl⟩
    obtain ⟨htake, -⟩ := takeWhile_append_of_head hdigits hrest
    rw [htake, if_neg hne, if_pos hrange]

/-- A numeral does not begin with whitespace. -/
theorem not_isspace_of_beginsNumeral {c : Char} (h : BeginsNumeral c) : isspace c = false := by
  apply Bool.eq_false_iff.mpr
  intro hspace
  simp only [isspace, Bool.or_eq_true, beq_iff_eq] at hspace
  unfold BeginsNumeral at h
  rcases hspace with ((((rfl | rfl) | rfl) | rfl) | rfl) | rfl
  all_goals exact absurd h (by decide)

/-- Digits behind a sign are a numeral. -/
theorem Sign.signedDecimal {negative : Bool} {sign cs digits : List Char}
    (h : Sign negative sign cs) (hne : digits ≠ []) (hdigits : ∀ c ∈ digits, c.isDigit = true) :
    SignedDecimal (sign ++ digits) (signedValue negative digits) := by
  cases h with
  | minus => exact .minus hne hdigits
  | plus => exact .plus hne hdigits
  | none => exact .unsigned hne hdigits

/-- What begins with a digit has no sign. -/
theorem sign_none_of_isDigit {c : Char} (hc : c.isDigit = true) (cs : List Char) :
    Sign false [] (c :: cs) := by
  constructor
  · intro hminus
    obtain rfl := Option.some.inj hminus
    exact absurd hc (by decide)
  · intro hplus
    obtain rfl := Option.some.inj hplus
    exact absurd hc (by decide)

/-- A numeral is digits behind a sign, whatever follows them. -/
theorem exists_sign_of_signedDecimal {cs : List Char} {n : Int} (h : SignedDecimal cs n) :
    ∃ negative sign digits, cs = sign ++ digits ∧ digits ≠ [] ∧
      (∀ c ∈ digits, c.isDigit = true) ∧ n = signedValue negative digits ∧
      ∀ rest, Sign negative sign (digits ++ rest) := by
  cases h with
  | unsigned hne hdigits =>
    refine ⟨false, [], cs, rfl, hne, hdigits, rfl, fun rest => ?_⟩
    obtain ⟨c, ds, rfl⟩ := List.exists_cons_of_ne_nil hne
    exact sign_none_of_isDigit (hdigits c List.mem_cons_self) (ds ++ rest)
  | plus hne hdigits => exact ⟨false, ['+'], _, rfl, hne, hdigits, rfl, fun _ => .plus _⟩
  | minus hne hdigits => exact ⟨true, ['-'], _, rfl, hne, hdigits, rfl, fun _ => .minus _⟩

/-- **What `stoi` reads**: a numeral within the range, behind whitespace, up to something that is no
    digit. -/
theorem stoi_eq_ok_iff {t : String} {n : Int} :
    stoi t = .ok n ↔ ∃ ws cs rest, t.toList = ws ++ (cs ++ rest) ∧
      (∀ c ∈ ws, isspace c = true) ∧ SignedDecimal cs n ∧ InIntRange n ∧
      ∀ c, rest.head? = some c → c.isDigit = false := by
  constructor
  · intro h
    obtain ⟨negative, sign, cs, hcs, hsign⟩ := exists_sign (t.toList.dropWhile isspace)
    rw [stoi_eq hcs hsign] at h
    obtain ⟨digits, rest, rfl, hne, hdigits, hrest, hrange, rfl⟩ := readDigits_eq_ok_iff.mp h
    refine ⟨t.toList.takeWhile isspace, sign ++ digits, rest, ?_,
      List.all_eq_true.mp List.all_takeWhile, hsign.signedDecimal hne hdigits, hrange, hrest⟩
    rw [List.append_assoc, ← hcs, List.takeWhile_append_dropWhile]
  · rintro ⟨ws, cs, rest, ht, hws, hdecimal, hrange, hrest⟩
    -- the whitespace ends where the numeral begins
    have hspace : ∀ c, (cs ++ rest).head? = some c → isspace c = false := by
      intro c hc
      obtain ⟨d, ds, rfl, hbegins, -⟩ := hdecimal.shape
      obtain rfl := Option.some.inj hc
      exact not_isspace_of_beginsNumeral hbegins
    obtain ⟨-, hdrop⟩ := takeWhile_append_of_head hws hspace
    obtain ⟨negative, sign, digits, rfl, hne, hdigits, rfl, hsign⟩ :=
      exists_sign_of_signedDecimal hdecimal
    rw [← ht, List.append_assoc] at hdrop
    rw [stoi_eq hdrop (hsign rest)]
    exact readDigits_eq_ok_iff.mpr ⟨digits, rest, rfl, hne, hdigits, hrest, hrange, rfl⟩

/-- A whole numeral is read. -/
theorem stoi_of_isPriority {t : String} {n : Int} (h : IsPriority t n) : stoi t = .ok n :=
  stoi_eq_ok_iff.mpr ⟨[], t.toList, [], by simp, fun _ hc => absurd hc List.not_mem_nil, h.1, h.2,
    fun _ hc => absurd hc nofun⟩

/-- What is read is a whole numeral, or has one in it. -/
theorem isPriority_or_readInPart {t : String} {n : Int} (h : stoi t = .ok n) :
    IsPriority t n ∨ ReadInPart t := by
  obtain ⟨ws, cs, rest, ht, hws, hdecimal, hrange, hrest⟩ := stoi_eq_ok_iff.mp h
  by_cases hwhole : ws = [] ∧ rest = []
  · obtain ⟨rfl, rfl⟩ := hwhole
    rw [List.nil_append, List.append_nil] at ht
    exact .inl ⟨ht ▸ hdecimal, hrange⟩
  · refine .inr ⟨ws, cs, rest, n, ht, hws, hdecimal, hrange, hrest, ?_⟩
    by_cases hws' : ws = []
    · exact .inr fun hrest' => hwhole ⟨hws', hrest'⟩
    · exact .inl hws'

/-- A string that is read in part is read, and it is no numeral. -/
theorem ReadInPart.read {t : String} (h : ReadInPart t) :
    (∃ n, stoi t = .ok n) ∧ ∀ n, ¬ IsPriority t n := by
  obtain ⟨ws, cs, rest, n, ht, hws, hdecimal, hrange, hrest, hmore⟩ := h
  refine ⟨⟨n, stoi_eq_ok_iff.mpr ⟨ws, cs, rest, ht, hws, hdecimal, hrange, hrest⟩⟩, ?_⟩
  rintro n' ⟨hwhole, -⟩
  rw [ht] at hwhole
  cases ws with
  | cons c ws =>
    have hspace := hws c List.mem_cons_self
    refine SignedDecimal.not_cons (fun hbegins => ?_) _ n' hwhole
    exact absurd (hspace.symm.trans (not_isspace_of_beginsNumeral hbegins)) nofun
  | nil =>
    -- the numeral is followed by a character that is no digit
    obtain ⟨c, rest, rfl⟩ := List.exists_cons_of_ne_nil (hmore.resolve_left fun h => h rfl)
    exact hdecimal.not_append (hrest c rfl) rest n' hwhole

/-! ## A library that keeps the priorities -/

/-- The participant has two priorities, and its proxy stores what it is given. -/
structure StoresPriorities (env : Env W) (priorities : W → PriorityType → Int)
    (part : ParticipantProxy) : Prop where
  setInitPriority : ∀ w n, InIntRange n → ∃ w',
    env.fep3 (.participant part (.setInitPriority n)) w = (.ok (), w') ∧
      priorities w' = Function.update (priorities w) .init_priority n
  setStartPriority : ∀ w n, InIntRange n → ∃ w',
    env.fep3 (.participant part (.setStartPriority n)) w = (.ok (), w') ∧
      priorities w' = Function.update (priorities w) .start_priority n
  getInitPriority : ∀ w, ∃ w',
    env.fep3 (.participant part .getInitPriority) w =
      (.ok (priorities w .init_priority), w') ∧ priorities w' = priorities w
  getStartPriority : ∀ w, ∃ w',
    env.fep3 (.participant part .getStartPriority) w =
      (.ok (priorities w .start_priority), w') ∧ priorities w' = priorities w

/-! ## The commands -/

/-- `setInitPriority`, `setStartPriority`. -/
def PriorityType.setter : PriorityType → TokenIterator → TokenIterator → Control W Bool
  | .init_priority => setInitPriority
  | .start_priority => setStartPriority

/-- `getInitPriority`, `getStartPriority`. -/
def PriorityType.getter : PriorityType → TokenIterator → TokenIterator → Control W Bool
  | .init_priority => getInitPriority
  | .start_priority => getStartPriority

/-- The setter behind `getParticipant`. -/
def setPriorityRest (a s p t : String) (type : PriorityType) (part : ParticipantProxy) :
    Control W Bool :=
  tryCatch
    (do
      let value ← orThrow (stoi t)
      match type with
      | .init_priority => part.call (.setInitPriority value)
      | .start_priority => part.call (.setStartPriority value)
      writeNote a ("priority for '" ++ p ++ "' set")
      pure true)
    fun e => do
      writeException a ("cannot set priority for '" ++ p ++ "@" ++ s ++ "'") .generic_error e
      pure false

/-- The getter behind `getParticipant`. -/
def getPriorityRest (a s p : String) (type : PriorityType) (part : ParticipantProxy) :
    Control W Bool :=
  tryCatch
    (do
      let priority ← match type with
        | .init_priority => part.getInitPriority
        | .start_priority => part.getStartPriority
      writeAttribute a ("priority", toString priority)
      pure true)
    fun e => do
      writeException a ("cannot get priority for '" ++ p ++ "@" ++ s ++ "'") .generic_error e
      pure false

/-- A setter looks the participant up, and then sets. -/
theorem setter_eq (a s p t : String) (last : TokenIterator) (type : PriorityType) :
    (type.setter (begin_ [a, s, p, t]) last : Control W Bool) =
      withParticipant a s p (setPriorityRest a s p t type) := by
  cases type with
  | init_priority => rfl
  | start_priority => rfl

/-- A getter looks the participant up, and then asks. -/
theorem getter_eq (a s p : String) (last : TokenIterator) (type : PriorityType) :
    (type.getter (begin_ [a, s, p]) last : Control W Bool) =
      withParticipant a s p (getPriorityRest a s p type) := by
  cases type with
  | init_priority => rfl
  | start_priority => rfl

section

variable {env : Env W} {priorities : W → PriorityType → Int} {part : ParticipantProxy}

/-- What `stoi` has read is stored. -/
theorem setPriorityRest_ok (h : StoresPriorities env priorities part) {t : String} {n : Int}
    (hread : stoi t = .ok n) (hrange : InIntRange n) (a s p : String) (type : PriorityType)
    (m : Machine W) : ∃ m', setPriorityRest a s p t type part env m = (.ok true, m') ∧
      priorities m'.world = Function.update (priorities m.world) type n ∧
      m'.registry = m.registry := by
  have hstore : ∀ {c : ParticipantCall} {reply : c.Reply} {w' : W},
      env.fep3 (.participant part c) m.world = (.ok reply, w') →
      (tryCatch
        (do
          part.call c
          writeNote a ("priority for '" ++ p ++ "' set")
          pure true)
        (fun e => do
          writeException a ("cannot set priority for '" ++ p ++ "@" ++ s ++ "'") .generic_error e
          pure false) : Control W Bool) env m =
        (.ok true, (m.called (.participant part c) false w').wrote
          (.note a ("priority for '" ++ p ++ "' set"))) := by
    intro c reply w' hreply
    have hcall : part.call c env m = (.ok (), m.called (.participant part c) false w') :=
      Eff.bind_of_ok (fep3_ok hreply) _
    rw [Eff.tryCatch_apply, Eff.bind_of_ok hcall]
    rfl
  unfold setPriorityRest
  rw [hread]
  cases type with
  | init_priority =>
    obtain ⟨w', hreply, hstored⟩ := h.setInitPriority m.world n hrange
    exact ⟨_, hstore hreply, hstored, rfl⟩
  | start_priority =>
    obtain ⟨w', hreply, hstored⟩ := h.setStartPriority m.world n hrange
    exact ⟨_, hstore hreply, hstored, rfl⟩

/-- What `stoi` has not read is refused. -/
theorem setPriorityRest_error {t e : String} (hread : stoi t = .error e) (a s p : String)
    (type : PriorityType) (part : ParticipantProxy) (env : Env W) (m : Machine W) :
    setPriorityRest a s p t type part env m =
      (.ok false, m.wrote (.exception a ("cannot set priority for '" ++ p ++ "@" ++ s ++ "'")
        .generic_error e)) := by
  unfold setPriorityRest
  rw [hread]
  rfl

/-- The getter prints what is stored. -/
theorem getPriorityRest_ok (h : StoresPriorities env priorities part) (a s p : String)
    (type : PriorityType) (m : Machine W) :
    ∃ m', getPriorityRest a s p type part env m = (.ok true, m') ∧
      m'.written = m.written ++ [⟨m.session.json_mode,
        .attr a ("priority", toString (priorities m.world type))⟩] := by
  unfold getPriorityRest
  rw [Eff.tryCatch_apply]
  cases type with
  | init_priority =>
    obtain ⟨w', hreply, -⟩ := h.getInitPriority m.world
    have hget : part.getInitPriority env m = (.ok (priorities m.world .init_priority),
        m.called (.participant part .getInitPriority) false w') := fep3_ok hreply
    dsimp only
    rw [Eff.bind_of_ok hget]
    exact ⟨_, rfl, rfl⟩
  | start_priority =>
    obtain ⟨w', hreply, -⟩ := h.getStartPriority m.world
    have hget : part.getStartPriority env m = (.ok (priorities m.world .start_priority),
        m.called (.participant part .getStartPriority) false w') := fep3_ok hreply
    dsimp only
    rw [Eff.bind_of_ok hget]
    exact ⟨_, rfl, rfl⟩

/-! ## The law -/

/-- Setting the priority to `t` succeeds and stores `n`, leaving the other priority alone; and from
    then on, as long as the priorities are these, getting it prints `n`. -/
def SetsPriority (env : Env W) (priorities : W → PriorityType → Int) (part : ParticipantProxy)
    (m : Machine W) (s p : String) (type : PriorityType) (t : String) (n : Int) : Prop :=
  ∀ a last, ∃ m', type.setter (begin_ [a, s, p, t]) last env m = (.ok true, m') ∧
    priorities m'.world = Function.update (priorities m.world) type n ∧
    Reaches env priorities m' s p part ∧
    ∀ m₁ : Machine W, priorities m₁.world = priorities m'.world →
      Reaches env priorities m₁ s p part → ∀ a last, ∃ m₂,
        type.getter (begin_ [a, s, p]) last env m₁ = (.ok true, m₂) ∧
        m₂.written = m₁.written ++
          [⟨m₁.session.json_mode, .attr a ("priority", toString n)⟩]

/-- Setting the priority to `t` fails with an error, and the priorities are as they were. -/
def RefusesPriority (env : Env W) (priorities : W → PriorityType → Int) (m : Machine W)
    (s p : String) (type : PriorityType) (t : String) : Prop :=
  ∀ a last, ∃ m', type.setter (begin_ [a, s, p, t]) last env m = (.ok false, m') ∧
    priorities m'.world = priorities m.world ∧ Answers (Plain a false) m m'

/-- What is asked of the setter for `t`: a numeral within the range is set, and nothing else is. -/
structure PriorityLaw (env : Env W) (priorities : W → PriorityType → Int)
    (part : ParticipantProxy) (m : Machine W) (s p : String) (type : PriorityType) (t : String) :
    Prop where
  sets : ∀ n, IsPriority t n → SetsPriority env priorities part m s p type t n
  refuses : (∀ n, ¬ IsPriority t n) → RefusesPriority env priorities m s p type t

variable {m : Machine W} {s p : String}

/-- **The number that `stoi` has read is set**, and read by the getter afterwards; the other
    priority stays. -/
theorem setsPriority_of_stoi (h : StoresPriorities env priorities part)
    (hreaches : Reaches env priorities m s p part) {t : String} {n : Int}
    (hread : stoi t = .ok n) (hrange : InIntRange n) (type : PriorityType) :
    SetsPriority env priorities part m s p type t n := by
  intro a last
  obtain ⟨m₁, hm₁, hkept, -, -, hagain⟩ := hreaches.withParticipant a (setPriorityRest a s p t type)
  obtain ⟨m', hm', hstored, hregistry⟩ := setPriorityRest_ok h hread hrange a s p type m₁
  rw [setter_eq]
  refine ⟨m', hm₁.trans hm', hstored.trans (by rw [hkept]), hagain m' hregistry, ?_⟩
  intro m₂ hsame hreaches₂ a' last'
  obtain ⟨m₃, hm₃, hkept₃, hwritten₃, hmodes₃, -⟩ :=
    hreaches₂.withParticipant a' (getPriorityRest a' s p type)
  obtain ⟨m₄, hm₄, hwritten₄⟩ := getPriorityRest_ok h a' s p type m₃
  have hvalue : priorities m₃.world type = n := by
    rw [hkept₃, hsame, hstored, Function.update_self]
  rw [getter_eq]
  exact ⟨m₄, hm₃.trans hm₄, by rw [hwritten₄, hwritten₃, hmodes₃.json_mode, hvalue]⟩

/-- **A string that `stoi` does not read is refused**, and nothing is set. -/
theorem refusesPriority_of_stoi (hreaches : Reaches env priorities m s p part) {t e : String}
    (hread : stoi t = .error e) (type : PriorityType) :
    RefusesPriority env priorities m s p type t := by
  intro a last
  obtain ⟨m₁, hm₁, hkept, hwritten, hmodes, -⟩ :=
    hreaches.withParticipant a (setPriorityRest a s p t type)
  have hplain : Plain a false m.session.json_mode (.exception a
      ("cannot set priority for '" ++ p ++ "@" ++ s ++ "'") .generic_error e) :=
    Plain.exception a _ (by decide) e _
  rw [setPriorityRest_error hread] at hm₁
  rw [setter_eq]
  refine ⟨_, hm₁, hkept, _, ?_, hplain⟩
  show m₁.written ++ [⟨m₁.session.json_mode, _⟩] = _
  rw [hwritten, hmodes.json_mode]

/-- **Priorities are validated and read back** exactly for the strings that are not
    read in part. -/
theorem priorityLaw_iff (h : StoresPriorities env priorities part)
    (hreaches : Reaches env priorities m s p part) (type : PriorityType) (t : String) :
    PriorityLaw env priorities part m s p type t ↔ ¬ ReadInPart t := by
  constructor
  · intro hlaw hpart
    obtain ⟨⟨n, hread⟩, hnone⟩ := hpart.read
    obtain ⟨-, -, -, -, -, -, hrange, -⟩ := stoi_eq_ok_iff.mp hread
    -- the setter succeeds where it is asked to refuse
    obtain ⟨m', hset, -⟩ := setsPriority_of_stoi h hreaches hread hrange type "" (end_ [])
    obtain ⟨m'', hrefused, -⟩ := hlaw.refuses hnone "" (end_ [])
    rw [hset] at hrefused
    cases hrefused
  · intro hpart
    constructor
    · intro n hn
      exact setsPriority_of_stoi h hreaches (stoi_of_isPriority hn) hn.2 type
    · intro hnone
      cases hread : stoi t with
      | error e => exact refusesPriority_of_stoi hreaches hread type
      | ok n =>
        rcases isPriority_or_readInPart hread with hn | h
        · exact absurd hn (hnone n)
        · exact absurd h hpart

/-- **What is printed can be set again**, and means the same. -/
theorem setsPriority_toString (h : StoresPriorities env priorities part)
    (hreaches : Reaches env priorities m s p part) {n : Int} (hrange : InIntRange n)
    (type : PriorityType) : SetsPriority env priorities part m s p type (toString n) n :=
  setsPriority_of_stoi h hreaches (stoi_of_isPriority ⟨signedDecimal_toString n, hrange⟩) hrange
    type

end

/-! ## A participant with two priorities -/

/-- A library with one participant, whose priorities are the world. -/
def prioritiesReply : (c : Call) → (PriorityType → Int) →
    Except String c.Reply × (PriorityType → Int)
  | .participant _ (.setInitPriority n), w => (.ok (), Function.update w .init_priority n)
  | .participant _ (.setStartPriority n), w => (.ok (), Function.update w .start_priority n)
  | .participant _ .getInitPriority, w => (.ok (w .init_priority), w)
  | .participant _ .getStartPriority, w => (.ok (w .start_priority), w)
  | c, w => (c.reply, w)

/-- The library whose state is the two priorities of one participant. -/
def Env.prioritized : Env (PriorityType → Int) := .over prioritiesReply

/-- It stores what it is given. -/
theorem prioritized_stores (part : ParticipantProxy) :
    StoresPriorities Env.prioritized id part where
  setInitPriority _ _ _ := ⟨_, rfl, rfl⟩
  setStartPriority _ _ _ := ⟨_, rfl, rfl⟩
  getInitPriority _ := ⟨_, rfl, rfl⟩
  getStartPriority _ := ⟨_, rfl, rfl⟩

/-- A session in text mode that discovers what it is asked about; both priorities are 0. -/
def Machine.prioritized : Machine (PriorityType → Int) :=
  { Machine.new false "" fun _ => 0 with
    session := { Session.new false with auto_discovery_of_systems := true } }

/-- Its one participant is reached through the registry. -/
theorem prioritized_reaches :
    Reaches Env.prioritized id .prioritized "sys" "part" ⟨"sys", "part", true⟩ :=
  ⟨⟨0, "sys", [], 0⟩, ⟨fun _ => 0, .discovered (w := fun _ => 0) rfl rfl rfl rfl rfl, rfl⟩,
    fun w => ⟨w, rfl, rfl⟩⟩

/-- A negative priority is a numeral, so the law holds for it. -/
theorem priorityLaw_iff_negative :
    PriorityLaw Env.prioritized id ⟨"sys", "part", true⟩ .prioritized "sys" "part" .start_priority
      "-7" := by
  have hdecimal : SignedDecimal ['-', '7'] (-7) :=
    .minus (List.cons_ne_nil '7' []) (List.forall_mem_singleton.mpr rfl)
  have hpriority : IsPriority "-7" (-7) := ⟨hdecimal, by decide⟩
  apply (priorityLaw_iff (prioritized_stores _) prioritized_reaches .start_priority "-7").mpr
  intro hpart
  exact hpart.read.2 (-7) hpriority

/-- `12abc` is no numeral, and yet 12 becomes the priority. -/
theorem not_priorityLaw :
    StoresPriorities Env.prioritized id ⟨"sys", "part", true⟩ ∧
      Reaches Env.prioritized id .prioritized "sys" "part" ⟨"sys", "part", true⟩ ∧
      ¬ PriorityLaw Env.prioritized id ⟨"sys", "part", true⟩ .prioritized "sys" "part"
        .init_priority "12abc" := by
  refine ⟨prioritized_stores _, prioritized_reaches, fun hlaw => ?_⟩
  have hpart : ReadInPart "12abc" := by
    refine ⟨[], ['1', '2'], ['a', 'b', 'c'], 12, rfl, ?_, signedDecimal_toString 12, ?_, ?_, ?_⟩
    · intro c hc
      cases hc
    · decide
    · intro c hc
      cases hc
      rfl
    · exact .inr (List.cons_ne_nil _ _)
  obtain ⟨m', hset, -⟩ := setsPriority_of_stoi (prioritized_stores _) prioritized_reaches
    (t := "12abc") (n := 12) rfl (by decide) .init_priority "setInitPriority" (end_ [])
  obtain ⟨m'', hrefused, -⟩ := hlaw.refuses hpart.read.2 "setInitPriority" (end_ [])
  rw [hset] at hrefused
  cases hrefused

end FepControl
