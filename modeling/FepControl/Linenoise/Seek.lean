/-
  The incremental search as its user sees it, and that the `ctrl-r` branch is this search.

  The user types a pattern and sees the newest entry with it; goes to earlier and later ones; and
  ends the search with a key.  The source has an array for the pattern, a position that may be
  outside of the entries, and a flag for matches that look the same.

  1. **Seek** -- the pattern, the entry where the search stands, and the text with its cursor.
     `Seek.press` says what a key of the dialogue does to them, and `Seek.dialogue` what several do.

  2. **The loop for a match** -- `places` are the entries in the order in which the search looks at
     them, and `look` finds the first with the pattern.  The loop of the source finds the same one,
     or leaves the entries on the same side (`MatchFound`, `matchLoop_finds`).

  3. **The simulation** -- a round of the loop goes along with the search (`Search.Plays`), with one
     lemma for each kind of key.  There is one end to it: a pattern fills `rbuf` when it has 49
     characters, and the next one is written behind the array (`Search.Plays.overrun`).  As a
     pattern has been found in an entry, that takes an entry of 49 characters (`History.Long`).

  4. **Any input** -- the loop ends, whatever is typed (`searchLoop_meets`): every round reads an
     event.

  5. **A dialogue** -- for keys of the search and a key that ends it, the branch does what
     `Seek.dialogue` says, and hands that key over (`reverseSearch_seeks`), or overruns `rbuf` where
     `Seek.dialogue` has no answer (`reverseSearch_dialogue`).
-/
import FepControl.Linenoise.Sound

namespace FepControl

namespace Linenoise

open Lib

/-! ## Seek -/

/-- The search as its user sees it. -/
structure Seek where
  pattern : List UInt8
  /-- the entry where it stands; -1, or the number of entries, where it has left them -/
  place : Int
  zipper : Zipper UInt8
  deriving DecidableEq, Repr

/-- What is done in a search. -/
inductive Query where
  | extend (ch : UInt8)
  | erase
  | earlier
  | later
  deriving DecidableEq, Repr

/-- What a key does in a search; the other keys end it. -/
def Key.query : Key → Option Query
  | .char c =>
    if c = ctrl 'H' ∨ c = 127 then some .erase
    else if c = ctrl 'P' then some .earlier
    else if c = ctrl 'N' then some .later
    else if byte ' ' ≤ c then some (.extend c)
    else none
  | .special .SPECIAL_UP => some .earlier
  | .special .SPECIAL_DOWN => some .later
  | _ => none

/-- The keys of a search that are characters. -/
theorem Key.query_char (c : UInt8) : (Key.char c).query =
    if c = ctrl 'H' ∨ c = 127 then some .erase
    else if c = ctrl 'P' then some .earlier
    else if c = ctrl 'N' then some .later
    else if byte ' ' ≤ c then some (.extend c)
    else none := rfl

/-- The keys that end a search "with no effect". -/
def Key.abandons (key : Key) : Prop := key = .char (ctrl 'G') ∨ key = .char (ctrl 'C')

instance : DecidablePred Key.abandons := fun _ => inferInstanceAs (Decidable (_ ∨ _))

/-- The key that is processed when a search was ended by a key. -/
def Key.afterSearch (key : Key) : Key :=
  if key.abandons ∨ key = .char (ctrl 'J') then .char 0 else key

namespace Seek

/-- The text up to a NUL. -/
def text (k : Seek) : List UInt8 := k.zipper.text.takeWhile (· ≠ 0)

/-- The entries from a place on, earlier (`searchdir` is -1) or later ones, of `n`. -/
def places (n : Nat) (searchdir pos : Int) : List Nat :=
  if searchdir = -1 then (List.range (pos + 1).toNat).reverse
  else List.range' pos.toNat (n - pos.toNat)

/-- The first of the entries where the pattern occurs, but for those that are `shown`; with the
    cursor where it occurs. -/
def look (lines : List (List UInt8)) (pattern : List UInt8) (shown : Option (List UInt8))
    (places : List Nat) : Option (Nat × Zipper UInt8) :=
  places.findSome? fun i =>
    if shown = some (lines.getD i []) then none
    else (strstr pattern (lines.getD i [])).map fun n => (i, .split (lines.getD i []) n)

/-- The search goes to what it has found, or leaves the entries. -/
def goTo (n : Nat) (searchdir : Int) (k : Seek) : Option (Nat × Zipper UInt8) → Seek
  | some (i, z) => { k with place := i, zipper := z }
  | none => { k with place := if searchdir = -1 then -1 else n }

/-- One more character; it stays in the pattern if some entry has the longer one. -/
def extend (lines : List (List UInt8)) (ch : UInt8) (k : Seek) : Seek :=
  let pattern := k.pattern ++ [ch]
  let found := look lines pattern none (places lines.length (-1) (lines.length - 1))
  { k.goTo lines.length (-1) found with pattern := if found.isSome then pattern else k.pattern }

/-- The place next to the one where the search stands, if there is one. -/
def next (n : Nat) (searchdir : Int) (k : Seek) : Int :=
  if searchdir < 0 then if k.place > 0 then k.place - 1 else k.place
  else if k.place < n then k.place + 1 else k.place

/-- The next match earlier or later, of those that do not look the same. -/
def again (lines : List (List UInt8)) (searchdir : Int) (k : Seek) : Seek :=
  k.goTo lines.length searchdir (look lines k.pattern (some k.text)
    (places lines.length searchdir (k.next lines.length searchdir)))

/-- What a key does in a search, until `rbuf` is full. -/
def press (lines : List (List UInt8)) (k : Seek) : Query → Option Seek
  | .extend ch => if k.pattern.length + 1 = rbufSize then none else some (k.extend lines ch)
  | .erase => some { k with pattern := k.pattern.dropLast }
  | .earlier => some (k.again lines (-1))
  | .later => some (k.again lines 1)

/-- A whole dialogue. -/
def dialogue (lines : List (List UInt8)) : List Query → Seek → Option Seek
  | [], k => some k
  | query :: queries, k => (k.press lines query).bind (dialogue lines queries)

/-- The search when `ctrl-r` was pressed. -/
def start (lines : List (List UInt8)) (z : Zipper UInt8) : Seek := ⟨[], lines.length - 1, z⟩

end Seek

/-! ## The loop for a match -/

/-- The search looks at the entry where it stands, and goes on from the next one. -/
theorem places_cons {n : Nat} {searchdir pos : Int} (hdir : searchdir = -1 ∨ searchdir = 1)
    (hpos : 0 ≤ pos ∧ pos < n) :
    Seek.places n searchdir pos = pos.toNat :: Seek.places n searchdir (pos + searchdir) := by
  rcases hdir with rfl | rfl
  · rw [Seek.places, Seek.places, if_pos rfl, if_pos rfl,
      show (pos + 1).toNat = pos.toNat + 1 by omega, List.range_succ, List.reverse_append,
      show (pos + -1 + 1).toNat = pos.toNat by omega]
    rfl
  · rw [Seek.places, Seek.places, if_neg (by decide), if_neg (by decide),
      show n - pos.toNat = (n - (pos + 1).toNat) + 1 by omega,
      show (pos + 1).toNat = pos.toNat + 1 by omega, List.range'_succ]

/-- Outside of the entries there are none to look at. -/
theorem places_nil {n : Nat} {searchdir pos : Int}
    (hside : searchdir = -1 ∧ pos < 0 ∨ searchdir = 1 ∧ n ≤ pos) :
    Seek.places n searchdir pos = [] := by
  rcases hside with ⟨rfl, hpos⟩ | ⟨rfl, hpos⟩
  · rw [Seek.places, if_pos rfl, show (pos + 1).toNat = 0 by omega]
    rfl
  · rw [Seek.places, if_neg (by decide), show n - pos.toNat = 0 by omega]
    rfl

section Loop

variable {history : History} {c c' : Current} {d : Draft}

/-- An entry that was read is the one at this index. -/
theorem History.getD_of_get {i : Int} {line : List UInt8} (h : history.get i = .ok line) :
    history.lines.getD i.toNat [] = line := by
  by_cases hi : 0 ≤ i
  · rw [History.get, if_pos hi] at h
    rw [List.getD_eq_getElem?_getD]
    cases hentry : history.lines[i.toNat]? with
    | none => rw [hentry] at h; cases h
    | some entry => rw [hentry] at h; cases h; rfl
  · rw [History.get, if_neg hi] at h
    cases h

/-- The line turned into an entry, with the cursor put somewhere into it. -/
theorem turns_split {line : List UInt8} {i : Nat} (hi : i ≤ line.length)
    (h : c.Turns { d with zipper := .atEnd line } c') :
    c.Turns { d with zipper := .split line i } { c' with pos := i } := by
  have htext : (Zipper.split line i).text = (Zipper.atEnd line).text := by
    rw [Zipper.text_split, Zipper.atEnd, Zipper.text, List.append_nil]
  refine ⟨⟨?_, ?_, ?_, ?_, ?_, h.holds.sized⟩, h.capture, h.bufmax, h.prompt, h.input, h.ws_col⟩
  · rw [htext]; exact h.holds.buf
  · rw [htext]; exact h.holds.room
  · rw [htext]; exact h.holds.len
  · rw [htext]; exact h.holds.chars
  · show (i : Int) = ((line.take i).length : Nat)
    rw [List.length_take, Nat.min_eq_left hi]

/-- The text up to a NUL, if matches that look the same are skipped. -/
def shownText (skipsame : Bool) (d : Draft) : Option (List UInt8) :=
  if skipsame then some (d.zipper.text.takeWhile (· ≠ 0)) else none

/-- An entry is passed over if it looks like the line. -/
theorem shownText_eq_some {skipsame : Bool} {line : List UInt8}
    (h : shownText skipsame d = some line) :
    skipsame = true ∧ d.zipper.text.takeWhile (· ≠ 0) = line := by
  cases skipsame with
  | false => cases h
  | true => exact ⟨rfl, Option.some.inj h⟩

/-- Every other entry is looked at. -/
theorem shownText_ne {skipsame : Bool} {line : List UInt8} (h : shownText skipsame d ≠ some line) :
    ¬ (skipsame = true ∧ line = d.zipper.text.takeWhile (· ≠ 0)) := by
  rintro ⟨rfl, rfl⟩
  exact h rfl

/-- What the loop for a match returns, by what there is to be found. -/
structure MatchFound (history : History) (skipsame : Bool) (searchdir : Int) (p : Option Nat)
    (c : Current) (d : Draft) (found : Option (Nat × Zipper UInt8))
    (result : Checked (Option Nat × Int × Current)) : Prop where
  hit : ∀ i z, found = some (i, z) → i < history.lines.length ∧
    ∃ n c', result = .ok (some n, (i : Int), c') ∧ c.Turns { d with zipper := z } c'
  miss : found = none → ∃ p', result = .ok (p', if searchdir = -1 then -1 else history.len, c) ∧
    (skipsame = false → p = none → p' = none)

/-- What is known of `p` may be less. -/
theorem MatchFound.weaken {skipsame : Bool} {searchdir : Int} {p p' : Option Nat}
    {found : Option (Nat × Zipper UInt8)} {result : Checked (Option Nat × Int × Current)}
    (h : MatchFound history skipsame searchdir p' c d found result)
    (hp : skipsame = false → p = none → p' = none) :
    MatchFound history skipsame searchdir p c d found result := by
  refine ⟨h.hit, fun hmiss => ?_⟩
  obtain ⟨p'', hresult, hp''⟩ := h.miss hmiss
  exact ⟨p'', hresult, fun hskip hnone => hp'' hskip (hp hskip hnone)⟩

/-- **The loop for a match** finds the first entry on its way that is to be shown. -/
theorem matchLoop_finds (pattern : List UInt8) (skipsame : Bool) {searchdir : Int}
    (hdir : searchdir = -1 ∨ searchdir = 1) :
    ∀ (fuel : Nat) (p : Option Nat) (pos : Int), history.Sound c.bufmax → c.Shows d →
      (searchdir = -1 ∧ -1 ≤ pos ∧ pos < history.len ∨
        searchdir = 1 ∧ 0 ≤ pos ∧ pos ≤ history.len) →
      (if searchdir = -1 then pos + 1 else history.len - pos) < fuel →
      MatchFound history skipsame searchdir p c d
        (Seek.look history.lines pattern (shownText skipsame d)
          (Seek.places history.lines.length searchdir pos))
        (matchLoop history pattern skipsame searchdir fuel p pos c)
  | 0, p, pos, _, _, hside, hfuel => by
      exfalso
      rcases hside with ⟨rfl, hpos⟩ | ⟨rfl, hpos⟩
      · rw [if_pos rfl] at hfuel; omega
      · rw [if_neg (by decide)] at hfuel; omega
  | fuel + 1, p, pos, h, hd, hside, hfuel => by
      have hlen : history.len = history.lines.length := rfl
      rw [matchLoop]
      by_cases hin : 0 ≤ pos ∧ pos < history.len
      · have hnext := fun p' => matchLoop_finds pattern skipsame hdir fuel p' (pos + searchdir) h hd
          (by omega)
          (by rcases hdir with rfl | rfl
              · rw [if_pos rfl] at hfuel ⊢; omega
              · rw [if_neg (by decide)] at hfuel ⊢; omega)
        obtain ⟨line, hget, hmem, hnul, hshort⟩ := h.get hin
        obtain ⟨hstring, -⟩ := hd.string
        have hline := History.getD_of_get hget
        rw [if_pos hin, places_cons hdir hin, Seek.look, List.findSome?_cons, hline]
        simp only [hget, ok_bind]
        by_cases hsame : shownText skipsame d = some line
        · obtain ⟨hskip, htext⟩ := shownText_eq_some hsame
          rw [if_pos hsame]
          cases strstr pattern line with
          | none => exact (hnext none).weaken fun _ _ => rfl
          | some n =>
            -- but it is identical, so skip it
            simp only [hstring, checked_some, ok_bind]
            rw [if_pos ⟨hskip, htext.symm⟩]
            exact (hnext (some n)).weaken fun hfalse => by rw [hskip] at hfalse; cases hfalse
        · rw [if_neg hsame]
          cases hp : strstr pattern line with
          | none => exact (hnext none).weaken fun _ _ => rfl
          | some n =>
            obtain ⟨c₁, hset, h₁⟩ := set_current_turns hd hnul
            rw [take_of_short hshort] at h₁
            simp only [hstring, checked_some, ok_bind]
            rw [if_neg (shownText_ne hsame)]
            simp only [hset, ok_bind]
            refine ⟨?_, fun hmiss => by cases hmiss⟩
            rintro i z heq
            cases heq
            have hpos : ((pos.toNat : Nat) : Int) = pos := Int.toNat_of_nonneg hin.1
            refine ⟨by omega, n, _, ?_, turns_split (strstr_le hp) h₁⟩
            rw [hpos]
            rfl
      · rw [if_neg hin, places_nil (by omega), Seek.look]
        refine ⟨fun i z heq => (by cases heq), fun _ => ⟨p, ?_, fun _ hp => hp⟩⟩
        rcases hside with ⟨rfl, hpos⟩ | ⟨rfl, hpos⟩
        · rw [if_pos rfl, show pos = -1 by omega]
          rfl
        · rw [if_neg (by decide), show pos = history.len by omega]
          rfl

/-- **The search through the history finds what there is to be found.** -/
theorem findMatch_found (s : Search) {pattern : List UInt8}
    (hread : cString 0 s.rbuf = some pattern) (skipsame : Bool) {searchdir : Int}
    (hside : searchdir = -1 ∧ -1 ≤ s.searchpos ∧ s.searchpos < history.len ∨
      searchdir = 1 ∧ 0 ≤ s.searchpos ∧ s.searchpos ≤ history.len)
    (h : history.Sound c.bufmax) (hd : c.Shows d) :
    MatchFound history skipsame searchdir none c d
      (Seek.look history.lines pattern (shownText skipsame d)
        (Seek.places history.lines.length searchdir s.searchpos))
      (findMatch history s skipsame searchdir c) := by
  have hlen : history.len = history.lines.length := rfl
  rw [findMatch, hread, checked_some, ok_bind]
  apply matchLoop_finds pattern skipsame (by omega) _ none s.searchpos h hd hside
  rcases hside with ⟨rfl, hpos⟩ | ⟨rfl, hpos⟩
  · rw [if_pos rfl]; omega
  · rw [if_neg (by decide)]; omega

/-- What is found is where the search goes. -/
theorem MatchFound.goTo {k : Seek} {cut : Option (List UInt8)} {skipsame : Bool} {searchdir : Int}
    {found : Option (Nat × Zipper UInt8)} {result : Checked (Option Nat × Int × Current)}
    (h : MatchFound history skipsame searchdir none c ⟨k.zipper, cut⟩ found result)
    (hd : c.Shows ⟨k.zipper, cut⟩) :
    ∃ p c', result = .ok (p, (k.goTo history.lines.length searchdir found).place, c') ∧
      c.Turns ⟨(k.goTo history.lines.length searchdir found).zipper, cut⟩ c' ∧
      (skipsame = false → p.isNone = found.isNone) := by
  cases hfound : found with
  | none =>
    obtain ⟨p, hresult, hp⟩ := h.miss hfound
    exact ⟨p, c, hresult, hd.turns, fun hskip => by rw [hp hskip rfl]; rfl⟩
  | some found =>
    obtain ⟨i, z⟩ := found
    obtain ⟨-, n, c', hresult, hturns⟩ := h.hit i z hfound
    exact ⟨some n, c', hresult, hturns, fun _ => rfl⟩

end Loop

/-! ## The simulation -/

/-- `rbuf` holds the pattern, and the search stands at its place. -/
structure Search.Plays (s : Search) (history : History) (k : Seek) : Prop where
  string : 0 ∉ k.pattern
  rbuf : ∃ zs, s.rbuf = k.pattern ++ 0 :: zs
  size : s.rbuf.length = rbufSize
  rchars : s.rchars = k.pattern.length
  rlen : s.rlen = k.pattern.length
  searchpos : s.searchpos = k.place
  place : -1 ≤ k.place ∧ k.place ≤ history.len
  found : k.pattern = [] ∨ ∃ line ∈ history.lines, k.pattern <:+: line

section Simulation

variable {history : History} {s : Search} {k : Seek} {c : Current} {cut : Option (List UInt8)}

/-- The pattern is the string in `rbuf`. -/
theorem Search.Plays.cString (h : s.Plays history k) : cString 0 s.rbuf = some k.pattern := by
  obtain ⟨zs, hzs⟩ := h.rbuf
  rw [hzs]
  exact cString_append h.string zs

/-- At `ctrl-r` the pattern is empty, and the search stands at the last entry. -/
theorem Search.start_plays (history : History) (z : Zipper UInt8) :
    (Search.start history).Plays history (.start history.lines z) where
  string := List.not_mem_nil
  rbuf := ⟨List.replicate 49 0, rfl⟩
  size := List.length_replicate
  rchars := rfl
  rlen := rfl
  searchpos := rfl
  place := by
    have hlen : history.len = history.lines.length := rfl
    show -1 ≤ (history.lines.length : Int) - 1 ∧ (history.lines.length : Int) - 1 ≤ history.len
    omega
  found := .inl rfl

/-- Going to an entry keeps the pattern. -/
@[simp] theorem Seek.pattern_goTo (n : Nat) (searchdir : Int) (k : Seek)
    (found : Option (Nat × Zipper UInt8)) : (k.goTo n searchdir found).pattern = k.pattern := by
  cases found <;> rfl

/-- The search is taken to where a match was found. -/
theorem Search.Plays.goTo (hs : s.Plays history k) {searchdir : Int}
    {found : Option (Nat × Zipper UInt8)}
    (hfound : ∀ i z, found = some (i, z) → i < history.lines.length) :
    ({ s with searchpos := (k.goTo history.lines.length searchdir found).place } : Search).Plays
      history (k.goTo history.lines.length searchdir found) := by
  have hlen : history.len = history.lines.length := rfl
  have hplace : -1 ≤ (k.goTo history.lines.length searchdir found).place ∧
      (k.goTo history.lines.length searchdir found).place ≤ history.len := by
    cases found with
    | none =>
      show -1 ≤ (if searchdir = -1 then (-1 : Int) else history.lines.length) ∧
        (if searchdir = -1 then (-1 : Int) else history.lines.length) ≤ history.len
      split <;> omega
    | some found =>
      have hi := hfound found.1 found.2 rfl
      show -1 ≤ (found.1 : Int) ∧ (found.1 : Int) ≤ history.len
      omega
  constructor
  · simpa using hs.string
  · simpa using hs.rbuf
  · exact hs.size
  · simpa using hs.rchars
  · simpa using hs.rlen
  · rfl
  · exact hplace
  · simpa using hs.found

/-- The next match earlier or later. -/
theorem Search.Plays.again (hs : s.Plays history k) (hne : 0 < history.len) {searchdir : Int}
    (hdir : searchdir = -1 ∨ searchdir = 1) (h : history.Sound c.bufmax)
    (hd : c.Shows ⟨k.zipper, cut⟩) :
    ∃ s' c', s.again history searchdir c = .ok (s', c') ∧
      s'.Plays history (k.again history.lines searchdir) ∧
      c.Turns ⟨(k.again history.lines searchdir).zipper, cut⟩ c' := by
  have hlen : history.len = history.lines.length := rfl
  have hplace := hs.place
  have hnext : (if searchdir < 0 then if s.searchpos > 0 then s.searchpos - 1 else s.searchpos
      else if s.searchpos < history.len then s.searchpos + 1 else s.searchpos) =
      k.next history.lines.length searchdir := by rw [hs.searchpos, Seek.next, hlen]
  have hside : searchdir = -1 ∧ -1 ≤ k.next history.lines.length searchdir ∧
        k.next history.lines.length searchdir < history.len ∨
      searchdir = 1 ∧ 0 ≤ k.next history.lines.length searchdir ∧
        k.next history.lines.length searchdir ≤ history.len := by
    rw [Seek.next, ← hlen]
    rcases hdir with rfl | rfl
    · rw [if_pos (by decide)]
      refine .inl ⟨rfl, ?_⟩
      split <;> omega
    · rw [if_neg (by decide)]
      refine .inr ⟨rfl, ?_⟩
      split <;> omega
  have hfinds := findMatch_found { s with searchpos := k.next history.lines.length searchdir }
    hs.cString true hside h hd
  obtain ⟨p, c', hresult, hturns, -⟩ := hfinds.goTo hd
  rw [Search.again, hnext]
  simp only [hresult, ok_bind]
  exact ⟨_, c', rfl, hs.goTo fun i z heq => (hfinds.hit i z heq).1, hturns⟩

/-- One character less. -/
theorem Search.Plays.erase (hs : s.Plays history k) :
    ∃ s', s.erase = .ok s' ∧ s'.Plays history { k with pattern := k.pattern.dropLast } := by
  rw [Search.erase]
  obtain ⟨zs, hzs⟩ := hs.rbuf
  rcases List.eq_nil_or_concat k.pattern with hnil | ⟨xs, x, hx⟩
  · have hsame : ({ k with pattern := k.pattern.dropLast } : Seek) = k := by
      rw [hnil, List.dropLast_nil, ← hnil]
    rw [if_neg (by rw [hs.rchars, hnil]; simp), hsame]
    exact ⟨s, rfl, hs⟩
  · rw [List.concat_eq_append] at hx
    have hlen : k.pattern.length = xs.length + 1 := by
      rw [hx, List.length_append, List.length_singleton]
    have hxs : 0 ∉ xs := fun hin => hs.string (by rw [hx]; exact List.mem_append_left _ hin)
    have hpos : s.rchars - 1 = xs.length := by rw [hs.rchars, hlen]; omega
    have hstore : store s.rbuf xs.length [0] = some (xs ++ 0 :: 0 :: zs) := by
      have := store_append xs [x] (0 :: zs) [0] rfl
      rw [hzs, hx]
      simpa using this
    have hread : Lib.cString 0 (xs ++ 0 :: 0 :: zs) = some xs := cString_append hxs _
    rw [if_pos (by rw [hs.rchars, hlen]; omega), hpos, hstore, checked_some, ok_bind, hread,
      checked_some, ok_bind]
    have hdrop : k.pattern.dropLast = xs := by rw [hx, List.dropLast_concat]
    have hsize := length_of_store hstore
    have hfound : xs = [] ∨ ∃ line ∈ history.lines, xs <:+: line := by
      rcases hs.found with hnil | ⟨line, hmem, hinfix⟩
      · rw [hnil] at hlen
        exact absurd hlen (by simp)
      · exact .inr ⟨line, hmem, (hx ▸ (List.prefix_append xs [x]).isInfix).trans hinfix⟩
    rw [hdrop]
    exact ⟨_, rfl, hxs, ⟨0 :: zs, rfl⟩, hsize.trans hs.size, rfl, rfl, hs.searchpos, hs.place,
      hfound⟩

/-- There is an entry that can fill `rbuf`. -/
def History.Long (history : History) : Prop :=
  ∃ line ∈ history.lines, rbufSize ≤ line.length + 1

/-- A pattern that is found in an entry. -/
theorem infix_of_look {lines : List (List UInt8)} {pattern : List UInt8}
    {shown : Option (List UInt8)} {places : List Nat} {i : Nat} {z : Zipper UInt8}
    (h : Seek.look lines pattern shown places = some (i, z)) (hi : i < lines.length) :
    ∃ line ∈ lines, pattern <:+: line := by
  obtain ⟨j, -, hj⟩ := List.exists_of_findSome?_eq_some h
  split at hj
  · cases hj
  · obtain ⟨n, hn, heq⟩ := Option.map_eq_some_iff.mp hj
    cases heq
    obtain ⟨xs, ys, hline, -⟩ := strstr_eq_some hn
    have hget : lines.getD i [] = lines[i] := by
      rw [List.getD_eq_getElem?_getD, List.getElem?_eq_getElem hi, Option.getD_some]
    rw [hget] at hline
    exact ⟨lines[i], List.getElem_mem hi, xs, ys, hline.symm⟩

/-- One more character, while there is room for it in `rbuf`. -/
theorem Search.Plays.extend (hs : s.Plays history k) (hne : 0 < history.len) {ch : UInt8}
    (hch : ch ≠ 0) (hroom : k.pattern.length + 1 ≠ rbufSize) (h : history.Sound c.bufmax)
    (hd : c.Shows ⟨k.zipper, cut⟩) :
    ∃ s' c', s.extend history ch c = .ok (s', c') ∧
      s'.Plays history (k.extend history.lines ch) ∧
      c.Turns ⟨(k.extend history.lines ch).zipper, cut⟩ c' := by
  obtain ⟨zs, hzs⟩ := hs.rbuf
  have hsize := hs.size
  have hzslen : k.pattern.length + zs.length + 1 = 50 := by
    rw [hzs, List.length_append, List.length_cons] at hsize
    rw [show rbufSize = 50 from rfl] at hsize
    omega
  have hpattern : 0 ∉ k.pattern ++ [ch] := by
    intro hin
    rcases List.mem_append.mp hin with hin | hin
    · exact hs.string hin
    · exact hch (List.mem_singleton.mp hin).symm
  obtain ⟨y, ys, rfl⟩ : ∃ y ys, zs = y :: ys := by
    apply List.exists_cons_of_ne_nil
    rintro rfl
    exact hroom hzslen
  have hstore : store s.rbuf s.rlen [ch] = some (k.pattern ++ ch :: y :: ys) := by
    have := store_append k.pattern [0] (y :: ys) [ch] rfl
    rw [hzs, hs.rlen]
    simpa using this
  have hend : store (k.pattern ++ ch :: y :: ys) (s.rlen + 1) [0] =
      some (k.pattern ++ [ch] ++ 0 :: ys) := by
    have := store_append (k.pattern ++ [ch]) [y] ys [0] rfl
    rw [List.length_append, List.length_singleton] at this
    rw [hs.rlen]
    simpa using this
  have hsize' := (length_of_store hend).trans ((length_of_store hstore).trans hsize)
  have hlen : ((k.pattern ++ [ch]).length : Int) = k.pattern.length + 1 := by
    rw [List.length_append, List.length_singleton]; omega
  have hplace : -1 ≤ history.len - 1 ∧ history.len - 1 < history.len := by omega
  obtain ⟨found, hfound⟩ : ∃ found, Seek.look history.lines (k.pattern ++ [ch]) none
      (Seek.places history.lines.length (-1) (history.lines.length - 1)) = found := ⟨_, rfl⟩
  have hfinds : MatchFound history false (-1) none c ⟨k.zipper, cut⟩ found (findMatch history
      ⟨k.pattern ++ [ch] ++ 0 :: ys, s.rchars + 1, s.rlen + 1, history.len - 1⟩ false (-1) c) := by
    rw [← hfound]
    exact findMatch_found ⟨k.pattern ++ [ch] ++ 0 :: ys, s.rchars + 1, s.rlen + 1, history.len - 1⟩
      (cString_append hpattern ys) false (.inl ⟨rfl, hplace⟩) h hd
  have hwithin : ∀ i z, found = some (i, z) → i < history.lines.length :=
    fun i z heq => (hfinds.hit i z heq).1
  have hto : ({ s with searchpos := (k.goTo history.lines.length (-1) found).place } : Search).Plays
    history (k.goTo history.lines.length (-1) found) := hs.goTo hwithin
  obtain ⟨p, c', hresult, hturns, hp⟩ := hfinds.goTo hd
  rw [Search.extend, if_neg (by rw [hs.rlen, show rbufSize = 50 from rfl]; omega), hstore,
    checked_some, ok_bind, hend, checked_some, ok_bind]
  simp only [hresult, ok_bind, hp rfl]
  rw [Seek.extend, hfound]
  cases found with
  | some found =>
    refine ⟨_, c', rfl, ?_, hturns⟩
    refine ⟨hpattern, ⟨ys, rfl⟩, hsize', ?_, ?_, rfl, hto.place, .inr ?_⟩
    · rw [hs.rchars]; exact hlen.symm
    · rw [hs.rlen]; exact hlen.symm
    · exact infix_of_look hfound (hwithin found.1 found.2 rfl)
  | none =>
    -- no match: the character goes again
    have hundo : store (k.pattern ++ [ch] ++ 0 :: ys) (s.rlen + 1 - 1) [0] =
        some (k.pattern ++ 0 :: 0 :: ys) := by
      have := store_append k.pattern [ch] (0 :: ys) [0] rfl
      rw [Int.add_sub_cancel, hs.rlen]
      simpa using this
    rw [if_pos (show (none : Option (Nat × Zipper UInt8)).isNone = true from rfl), hundo,
      checked_some, ok_bind]
    refine ⟨_, c', rfl, ?_, hturns⟩
    refine ⟨hs.string, ⟨0 :: ys, rfl⟩, (length_of_store hundo).trans hsize', ?_, ?_, rfl, hto.place,
      hs.found⟩
    · show s.rchars + 1 - 1 = k.pattern.length
      rw [Int.add_sub_cancel, hs.rchars]
    · show s.rlen + 1 - 1 = k.pattern.length
      rw [Int.add_sub_cancel, hs.rlen]

/-- One more character than there is room for. -/
theorem Search.Plays.overrun (hs : s.Plays history k) (hfull : k.pattern.length + 1 = rbufSize)
    (ch : UInt8) (c : Current) :
    s.extend history ch c = .error (.outside .rbuf) ∧ history.Long := by
  obtain ⟨zs, hzs⟩ := hs.rbuf
  have hsize := hs.size
  rw [hzs, List.length_append, List.length_cons] at hsize
  obtain rfl : zs = [] := List.length_eq_zero_iff.mp (by omega)
  have hrlen := hs.rlen
  have hpattern : k.pattern.length + 1 = 50 := hfull
  constructor
  · have hstore : store s.rbuf s.rlen [ch] = some (k.pattern ++ [ch]) := by
      have := store_append k.pattern [0] [] [ch] rfl
      rw [hzs, hrlen]
      simpa using this
    -- `rbuf[50] = 0`
    have hout : store (k.pattern ++ [ch]) (s.rlen + 1) [(0 : UInt8)] = none := by
      rw [store, if_neg]
      rw [hrlen, List.length_append, List.length_singleton, List.length_singleton]
      omega
    rw [Search.extend, if_neg (by rw [hrlen, show rbufSize = 50 from rfl]; omega), hstore,
      checked_some, ok_bind, hout]
    rfl
  · rcases hs.found with hnil | ⟨line, hmem, hinfix⟩
    · rw [hnil] at hpattern
      exact absurd hpattern (by decide)
    · have := hinfix.length_le
      exact ⟨line, hmem, by omega⟩

/-- What the loop of the search does for a key, before its next round. -/
def Search.answer (s : Search) (history : History) (query : Query) (current : Current) :
    Checked (Search × Current) :=
  match query with
  | .extend ch => s.extend history ch current
  | .erase => do
    let s ← s.erase
    pure (s, current)
  | .earlier => s.again history (-1) current
  | .later => s.again history 1 current

/-- **A key of the search**: the search does what `Seek.press` says, or runs over the end of
    `rbuf`. -/
theorem Search.Plays.answer (hs : s.Plays history k) (hne : 0 < history.len) {query : Query}
    (hquery : query ≠ .extend 0) (h : history.Sound c.bufmax) (hd : c.Shows ⟨k.zipper, cut⟩) :
    (k.press history.lines query = none →
      s.answer history query c = .error (.outside .rbuf) ∧ history.Long) ∧
    ∀ k', k.press history.lines query = some k' →
      ∃ s' c', s.answer history query c = .ok (s', c') ∧ s'.Plays history k' ∧
        c.Turns ⟨k'.zipper, cut⟩ c' := by
  cases query with
  | extend ch =>
    rw [Seek.press]
    by_cases hfull : k.pattern.length + 1 = rbufSize
    · rw [if_pos hfull]
      exact ⟨fun _ => hs.overrun hfull ch c, fun k' heq => by cases heq⟩
    · rw [if_neg hfull]
      refine ⟨fun heq => (by cases heq), fun k' heq => ?_⟩
      cases heq
      exact hs.extend hne (fun hch => hquery (by rw [hch])) hfull h hd
  | erase =>
    refine ⟨fun heq => (by cases heq), fun k' heq => ?_⟩
    cases heq
    obtain ⟨s', hrun, hs'⟩ := hs.erase
    exact ⟨s', c, by rw [Search.answer, hrun]; rfl, hs', hd.turns⟩
  | earlier =>
    refine ⟨fun heq => (by cases heq), fun k' heq => ?_⟩
    cases heq
    exact hs.again hne (.inl rfl) h hd
  | later =>
    refine ⟨fun heq => (by cases heq), fun k' heq => ?_⟩
    cases heq
    exact hs.again hne (.inr rfl) h hd

end Simulation

/-! ## The loop -/

/-- The key that a round of the search reads. -/
def searchKey (fd : Terminal) : Key × Terminal :=
  if (fd_read fd).1 = .char 27 then check_special (fd_read fd).2 else fd_read fd

/-- A sequence that is not known is read as a NUL. -/
theorem extended_char (c2 : UInt8) (fd : Terminal) {ch : UInt8}
    (h : (extended c2 fd).1 = .char ch) : ch = 0 := by
  rw [extended] at h
  split at h
  · exact (Key.char.inj h).symm
  · split at h
    · cases hs : extendedSequence c2 with
      | none => rw [hs] at h; exact (Key.char.inj h).symm
      | some s => rw [hs] at h; cases h
    · exact (Key.char.inj h).symm

/-- Where `check_special` returns no special key, it returns the escape, or nothing. -/
theorem check_special_char (fd : Terminal) {ch : UInt8} (h : (check_special fd).1 = .char ch) :
    ch = 27 ∨ ch = 0 := by
  rw [check_special] at h
  split at h
  · exact .inl (Key.char.inj h).symm
  · split at h
    · cases h
    · simp only at h
      split at h
      · cases h
      · split at h
        · exact .inr (extended_char _ _ h)
        · exact .inr (Key.char.inj h).symm

/-- No key puts a NUL into the pattern. -/
theorem Key.query_ne_extend_nul (key : Key) : key.query ≠ some (.extend 0) := by
  cases key with
  | eof => intro h; cases h
  | special s => cases s <;> (intro h; cases h)
  | char c =>
    rw [Key.query_char]
    intro h
    by_cases hc : c = 0
    · rw [hc] at h
      exact absurd h (by decide)
    · repeat' split at h
      all_goals cases h
      exact hc rfl

/-- A round of the search, by its key. -/
theorem searchLoop_round {history : History} {s : Search} {k : Seek} {c c₁ : Current}
    (hs : s.Plays history k) (hrefresh : refreshLine (rprompt k.pattern) c = .ok c₁) (fuel : Nat) :
    (∀ query, (searchKey c₁.fd).1.query = some query →
      searchLoop history (fuel + 1) s c =
        s.answer history query { c₁ with fd := (searchKey c₁.fd).2 } >>= fun next =>
          searchLoop history fuel next.1 next.2) ∧
    ((searchKey c₁.fd).1.query = none →
      searchLoop history (fuel + 1) s c =
        .ok ((searchKey c₁.fd).1, { c₁ with fd := (searchKey c₁.fd).2 })) := by
  rw [searchLoop, hs.cString, checked_some, ok_bind, hrefresh, ok_bind, searchKey]
  rcases fd_read c₁.fd with ⟨key, fd⟩
  by_cases herase : key = .char (ctrl 'H') ∨ key = .char 127
  · have hesc : ¬ key = .char 27 := by rcases herase with rfl | rfl <;> decide
    have hquery : key.query = some .erase := by rcases herase with rfl | rfl <;> rfl
    simp only [if_pos herase, if_neg hesc, hquery]
    refine ⟨?_, fun heq => by cases heq⟩
    rintro query heq
    cases heq
    rw [Search.answer]
    cases s.erase <;> rfl
  · have hchar : ∀ ch, (if key = .char 27 then check_special fd else (key, fd)).1 = .char ch →
        ¬ (ch = ctrl 'H' ∨ ch = 127) := by
      intro ch heq hch
      by_cases hesc : key = .char 27
      · rw [if_pos hesc] at heq
        rcases check_special_char fd heq with rfl | rfl <;> exact absurd hch (by decide)
      · rw [if_neg hesc] at heq
        exact herase (hch.imp (fun h => by rw [← h]; exact heq) fun h => by rw [← h]; exact heq)
    simp only [if_neg herase]
    generalize (if key = .char 27 then check_special fd else (key, fd)) = read at *
    obtain ⟨key, fd⟩ := read
    cases key with
    | eof => exact ⟨fun query heq => (by cases heq), fun _ => rfl⟩
    | special sp =>
      cases sp <;> first
        | exact ⟨fun query heq => (by cases heq; rfl), fun heq => (by cases heq)⟩
        | exact ⟨fun query heq => (by cases heq), fun _ => rfl⟩
    | char ch =>
      simp only [Key.query_char, if_neg (hchar ch rfl)]
      by_cases hup : ch = ctrl 'P'
      · rw [if_pos hup, if_pos (.inl (congrArg Key.char hup))]
        exact ⟨fun query heq => (by cases heq; rfl), fun heq => (by cases heq)⟩
      · have hup' : ¬ (Key.char ch = .char (ctrl 'P') ∨ Key.char ch = .special .SPECIAL_UP) := by
          rintro (h | h)
          · exact hup (Key.char.inj h)
          · cases h
        rw [if_neg hup, if_neg hup']
        by_cases hdown : ch = ctrl 'N'
        · rw [if_pos hdown, if_pos (.inl (congrArg Key.char hdown))]
          exact ⟨fun query heq => (by cases heq; rfl), fun heq => (by cases heq)⟩
        · have hdown' : ¬ (Key.char ch = .char (ctrl 'N') ∨
              Key.char ch = .special .SPECIAL_DOWN) := by
            rintro (h | h)
            · exact hdown (Key.char.inj h)
            · cases h
          rw [if_neg hdown, if_neg hdown']
          by_cases hprint : byte ' ' ≤ ch
          · simp only [if_pos hprint]
            exact ⟨fun query heq => (by cases heq; rfl), fun heq => (by cases heq)⟩
          · simp only [if_neg hprint]
            exact ⟨fun query heq => (by cases heq), fun _ => rfl⟩

/-- What a round of the search takes from the input. -/
theorem searchKey_reads (fd : Terminal) :
    fd.Reads (searchKey fd).2 ∧
      (fd.input ≠ [] → (searchKey fd).2.input.length < fd.input.length) ∧
      (fd.input = [] → (searchKey fd).1 = .eof) := by
  obtain ⟨hreads, hlt, -⟩ := fd_read_reads fd
  rw [searchKey]
  by_cases hesc : (fd_read fd).1 = .char 27
  · have hspecial := check_special_reads (fd_read fd).2
    rw [if_pos hesc]
    refine ⟨hreads.trans hspecial, fun hne => ?_, fun hnil => ?_⟩
    · exact Nat.lt_of_le_of_lt hspecial.input.length_le (hlt hne)
    · rw [fd_read, fd_read_char, hnil] at hesc
      cases hesc
  · rw [if_neg hesc]
    refine ⟨hreads, hlt, fun hnil => ?_⟩
    rw [fd_read, fd_read_char, hnil]
    rfl

/-- A key that is typed is read as that key. -/
theorem searchKey_events {fd : Terminal} {n : Nat} {key : Key} {rest : List Event}
    (heof : key ≠ .eof) (h : fd.input = pauses n ++ (key.events ++ rest)) :
    searchKey fd = (key, { fd with input := rest }) := by
  cases key with
  | eof => exact absurd rfl heof
  | special s =>
    rw [searchKey, fd_read_byte fd (show fd.input = pauses n ++ .byte 27 :: _ from h), if_pos rfl]
    exact check_special_sequence _ s rest rfl
  | char c =>
    by_cases hesc : c = 27
    · rw [hesc] at h ⊢
      rw [searchKey, fd_read_byte fd (show fd.input = pauses n ++ .byte 27 :: _ from h), if_pos rfl]
      exact check_special_escape _ rest rfl
    · have hevents : (Key.char c).events = [.byte c] := if_neg hesc
      rw [hevents, List.singleton_append] at h
      rw [searchKey, fd_read_byte fd h, if_neg fun heq => hesc (Key.char.inj heq)]

/-- A key of the search is a key. -/
theorem Key.ne_eof_of_query {key : Key} (h : key.query.isSome = true) : key ≠ .eof := by
  rintro rfl
  cases h

section Search

variable {history : History} {cut : Option (List UInt8)}

/-- How the search ends: something was read for it, and the line shows some text. -/
structure Searched (c : Current) (cut : Option (List UInt8)) (result : Key × Current) : Prop where
  line : ∃ z, c.Reaches ⟨z, cut⟩ result.2
  progress : c.fd.input ≠ [] → result.2.fd.input.length < c.fd.input.length
  atEnd : c.fd.input = [] → result.1 = .eof

/-- The one thing that can go wrong in a search. -/
def History.Overrun (history : History) (e : Fault) : Prop := e = .outside .rbuf ∧ history.Long

/-- **The loop of the search ends**, whatever is typed. -/
theorem searchLoop_meets (hne : 0 < history.len) :
    ∀ (fuel : Nat) {s : Search} {k : Seek} {c : Current}, s.Plays history k →
      history.Sound c.bufmax → c.Shows ⟨k.zipper, cut⟩ → c.fd.input.length < fuel →
      Meets history.Overrun (searchLoop history fuel s c) (Searched c cut)
  | 0, _, _, _, _, _, _, hfuel => absurd hfuel (Nat.not_lt_zero _)
  | fuel + 1, s, k, c, hs, h, hd, hfuel => by
      obtain ⟨c₁, hrefresh, h₁⟩ := refreshLine_turns hd.turns (rprompt k.pattern)
      obtain ⟨hsome, hnone⟩ := searchLoop_round hs hrefresh fuel
      obtain ⟨hreading, hlt, hend⟩ := searchKey_reads c₁.fd
      have hreads : c.Reaches ⟨k.zipper, cut⟩ { c₁ with fd := (searchKey c₁.fd).2 } :=
        h₁.reaches.trans (h₁.shows.reads hreading)
      rw [h₁.input] at hlt hend
      cases hquery : (searchKey c₁.fd).1.query with
      | none =>
        rw [hnone hquery]
        exact .pure ⟨⟨_, hreads⟩, hlt, hend⟩
      | some query =>
        have hin : c.fd.input ≠ [] := by
          intro hnil
          rw [hend hnil] at hquery
          cases hquery
        have hnul : query ≠ .extend 0 := fun heq =>
          Key.query_ne_extend_nul _ (hquery.trans (congrArg some heq))
        rw [hsome query hquery]
        obtain ⟨hfull, hgoes⟩ := hs.answer hne hnul (hreads.bufmax ▸ h) hreads.shows
        cases hpress : k.press history.lines query with
        | none =>
          obtain ⟨herror, hlong⟩ := hfull hpress
          rw [herror]
          exact .error rfl ⟨rfl, hlong⟩
        | some k' =>
          obtain ⟨s', c', hrun, hs', hturns⟩ := hgoes k' hpress
          have hc' := hreads.trans hturns.reaches
          have hshorter : c'.fd.input.length < c.fd.input.length := by
            rw [hturns.input]
            exact hlt hin
          rw [hrun, ok_bind]
          refine (searchLoop_meets hne fuel hs' (hc'.bufmax ▸ h) hc'.shows ?_).mono ?_ fun _ => id
          · omega
          · rintro result ⟨⟨z, hz⟩, -, -⟩
            refine ⟨⟨z, hc'.trans hz⟩, fun _ => ?_, fun hnil => absurd hnil hin⟩
            exact Nat.lt_of_le_of_lt hz.input.length_le hshorter

/-- **A dialogue**: the loop does what `Seek.dialogue` says, or runs over the end of `rbuf`. -/
theorem searchLoop_seeks (hne : 0 < history.len) (fuel : Nat) (rest : List Event) :
    ∀ (keys : List Key) {events : List Event} {s : Search} {k : Seek} {c : Current},
      (∀ key ∈ keys, key.query.isSome = true) → s.Plays history k → history.Sound c.bufmax →
      c.Shows ⟨k.zipper, cut⟩ → Typed keys events → c.fd.input = events ++ rest →
      (Seek.dialogue history.lines (keys.filterMap Key.query) k = none →
        searchLoop history (keys.length + fuel) s c = .error (.outside .rbuf)) ∧
      ∀ k', Seek.dialogue history.lines (keys.filterMap Key.query) k = some k' →
        ∃ s' c', searchLoop history (keys.length + fuel) s c = searchLoop history fuel s' c' ∧
          s'.Plays history k' ∧ c.Reaches ⟨k'.zipper, cut⟩ c' ∧ c'.fd.input = rest
  | [], _, s, k, c, _, hs, _, hd, rfl, hinput => by
      refine ⟨fun heq => (by cases heq), fun k' heq => ?_⟩
      cases heq
      exact ⟨s, c, by rw [List.length_nil, Nat.zero_add], hs, hd.reaches, hinput⟩
  | key :: keys, _, s, k, c, hkeys, hs, h, hd, ⟨n, events', rfl, htyped⟩, hinput => by
      obtain ⟨query, hquery⟩ := Option.isSome_iff_exists.mp (hkeys key List.mem_cons_self)
      have hrest := fun key' hin => hkeys key' (List.mem_cons_of_mem key hin)
      obtain ⟨c₁, hrefresh, h₁⟩ := refreshLine_turns hd.turns (rprompt k.pattern)
      rw [List.append_assoc, List.append_assoc, ← h₁.input] at hinput
      have hkey : searchKey c₁.fd = (key, { c₁.fd with input := events' ++ rest }) := by
        refine searchKey_events ?_ hinput
        rintro rfl
        cases hquery
      have hround := (searchLoop_round hs hrefresh (keys.length + fuel)).1 query
        (by rw [hkey]; exact hquery)
      have hreads : c.Reaches ⟨k.zipper, cut⟩ { c₁ with fd := (searchKey c₁.fd).2 } :=
        h₁.reaches.trans (h₁.shows.reads (searchKey_reads c₁.fd).1)
      have hnul : query ≠ .extend 0 := fun heq =>
        Key.query_ne_extend_nul key (hquery.trans (congrArg some heq))
      obtain ⟨hfull, hgoes⟩ := hs.answer hne hnul (hreads.bufmax ▸ h) hreads.shows
      rw [List.length_cons, Nat.add_right_comm, hround, List.filterMap_cons_some hquery,
        Seek.dialogue]
      cases hpress : k.press history.lines query with
      | none =>
        rw [(hfull hpress).1]
        exact ⟨fun _ => rfl, fun k' heq => by cases heq⟩
      | some k₁ =>
        obtain ⟨s₁, c₂, hrun, hs₁, hturns⟩ := hgoes k₁ hpress
        have hc₂ := hreads.trans hturns.reaches
        have hinput₂ : c₂.fd.input = events' ++ rest := by rw [hturns.input, hkey]
        obtain ⟨hover, hends⟩ := searchLoop_seeks hne fuel rest keys hrest hs₁ (hc₂.bufmax ▸ h)
          hc₂.shows htyped hinput₂
        rw [hrun, ok_bind]
        refine ⟨hover, fun k' hk' => ?_⟩
        obtain ⟨s', c', hloop, hs', hc', hleft⟩ := hends k' hk'
        exact ⟨s', c', hloop, hs', hc₂.trans hc', hleft⟩

/-- The end of the `ctrl-r` branch, by the key that ended the loop. -/
theorem reverseSearch_ends {c c₁ : Current} {z : Zipper UInt8} {key : Key}
    (hloop : searchLoop history (c.fd.input.length + 1) (.start history) c = .ok (key, c₁))
    (hd : c₁.Shows ⟨z, cut⟩) :
    ∃ c', reverseSearch history c = .ok (key.afterSearch, c') ∧
      c₁.Turns ⟨if key.abandons then .atEnd [] else z, cut⟩ c' := by
  have hshown : ∀ {d : Draft} {c₂ : Current} (key' : Key), c₁.Turns d c₂ →
      ∃ c', (do let current ← refreshLine c₂.prompt c₂; pure (key', current) : Checked _) =
        .ok (key', c') ∧ c₁.Turns d c' := by
    intro d c₂ key' h₂
    obtain ⟨c₃, hrefresh, h₃⟩ := refreshLine_turns h₂ c₂.prompt
    exact ⟨c₃, by rw [hrefresh]; rfl, h₃⟩
  rw [reverseSearch, hloop, ok_bind, Key.afterSearch]
  by_cases hstop : key.abandons
  · obtain ⟨c₂, hset, h₂⟩ := set_current_turns hd List.not_mem_nil
    rw [List.take_nil] at h₂
    have hstop' : key = .char (ctrl 'G') ∨ key = .char (ctrl 'C') := hstop
    rw [if_pos (.inl hstop), if_pos hstop]
    simp only [if_pos hstop', hset, ok_bind]
    exact hshown (.char 0) h₂
  · have hstop' : ¬ (key = .char (ctrl 'G') ∨ key = .char (ctrl 'C')) := hstop
    rw [if_neg hstop]
    by_cases hleave : key = .char (ctrl 'J')
    · rw [if_pos (.inr hleave)]
      simp only [if_neg hstop', if_pos hleave]
      exact hshown (.char 0) hd.turns
    · rw [if_neg fun h => h.elim hstop hleave]
      simp only [if_neg hstop', if_neg hleave]
      exact hshown key hd.turns

/-- The `ctrl-r` branch, whatever is typed. -/
theorem reverseSearch_meets {c : Current} {d : Draft} (hne : 0 < history.len)
    (h : history.Sound c.bufmax) (hd : c.Shows d) :
    Meets history.Overrun (reverseSearch history c) (Searched c d.cut) := by
  have hloop := searchLoop_meets hne (c.fd.input.length + 1)
    (Search.start_plays history d.zipper) h hd (Nat.lt_succ_self _)
  rcases hloop with ⟨⟨key, c₁⟩, hrun, ⟨z, hz⟩, hprogress, hatEnd⟩ | ⟨e, herror, he⟩
  · obtain ⟨c', hrun', hturns⟩ := reverseSearch_ends hrun hz.shows
    refine .of_ok ⟨_, hrun', ⟨_, hz.trans hturns.reaches⟩, ?_, fun hnil => ?_⟩
    · rw [hturns.input]
      exact hprogress
    · have hkey : key = .eof := hatEnd hnil
      rw [hkey]
      rfl
  · refine .error (e := e) ?_ he
    rw [reverseSearch, herror, error_bind]

/-- The keys of a dialogue, from `ctrl-r` on: the search comes to what is behind them, or it
    overruns `rbuf` there. -/
theorem reverseSearch_dialogue {c : Current} {d : Draft} (hne : 0 < history.len)
    (h : history.Sound c.bufmax) (hd : c.Shows d) {keys : List Key}
    (hkeys : ∀ key ∈ keys, key.query.isSome = true) {events rest : List Event}
    (htyped : Typed keys events) (hinput : c.fd.input = events ++ rest) :
    (Seek.dialogue history.lines (keys.filterMap Key.query) (.start history.lines d.zipper) = none →
      reverseSearch history c = .error (.outside .rbuf)) ∧
    ∀ k, Seek.dialogue history.lines (keys.filterMap Key.query) (.start history.lines d.zipper) =
        some k →
      ∃ fuel s c₁, searchLoop history (c.fd.input.length + 1) (.start history) c =
          searchLoop history (fuel + 1) s c₁ ∧
        s.Plays history k ∧ c.Reaches ⟨k.zipper, d.cut⟩ c₁ ∧ c₁.fd.input = rest := by
  have hlen := htyped.length_le fun key hin => Key.ne_eof_of_query (hkeys key hin)
  obtain ⟨spare, hspare⟩ : ∃ spare, c.fd.input.length + 1 = keys.length + (spare + 1) := by
    refine ⟨c.fd.input.length - keys.length, ?_⟩
    rw [hinput, List.length_append]
    omega
  obtain ⟨hover, hends⟩ := searchLoop_seeks hne (spare + 1) rest keys hkeys
    (Search.start_plays history d.zipper) h hd htyped hinput
  rw [← hspare] at hover hends
  refine ⟨fun hnone => ?_, fun k hk => ?_⟩
  · rw [reverseSearch, hover hnone]
    rfl
  · obtain ⟨s, c₁, hloop, hs, hc₁, hrest⟩ := hends k hk
    exact ⟨spare, s, c₁, hloop, hs, hc₁, hrest⟩

/-- **A search**, from `ctrl-r` to the key that ends it. -/
theorem reverseSearch_seeks {c : Current} {d : Draft} (hne : 0 < history.len)
    (h : history.Sound c.bufmax) (hd : c.Shows d) {keys : List Key} {key : Key}
    (hkeys : ∀ key ∈ keys, key.query.isSome = true) (hkey : key.query = none) (heof : key ≠ .eof)
    {events rest : List Event} {n : Nat} (htyped : Typed keys events)
    (hinput : c.fd.input = events ++ (pauses n ++ (key.events ++ rest))) {k : Seek}
    (hk : Seek.dialogue history.lines (keys.filterMap Key.query)
      (.start history.lines d.zipper) = some k) :
    ∃ c', reverseSearch history c = .ok (key.afterSearch, c') ∧
      c.Reaches ⟨if key.abandons then .atEnd [] else k.zipper, d.cut⟩ c' ∧ c'.fd.input = rest := by
  obtain ⟨fuel, s, c₁, hloop, hs, hc₁, hinput₁⟩ :=
    (reverseSearch_dialogue hne h hd hkeys htyped hinput).2 k hk
  obtain ⟨c₂, hrefresh, h₂⟩ := refreshLine_turns hc₁.shows.turns (rprompt k.pattern)
  rw [← h₂.input] at hinput₁
  have hread := searchKey_events heof hinput₁
  have hround := (searchLoop_round hs hrefresh fuel).2 (by rw [hread]; exact hkey)
  have hreads : c.Reaches ⟨k.zipper, d.cut⟩ { c₂ with fd := (searchKey c₂.fd).2 } :=
    hc₁.trans (h₂.reaches.trans (h₂.shows.reads (searchKey_reads c₂.fd).1))
  rw [hread] at hround hreads
  obtain ⟨c', hrun, hturns⟩ := reverseSearch_ends (hloop.trans hround) hreads.shows
  exact ⟨c', hrun, hreads.trans hturns.reaches, hturns.input⟩

end Search

end Linenoise

end FepControl
