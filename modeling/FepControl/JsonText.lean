/-
  The two texts that jsoncpp makes of a value.

  A client that reads from the tool line by line depends on how a value is printed: if the text of a
  response is one line, one read gets all of it. jsoncpp prints in two ways, by a writer whose
  indentation can be set to nothing and by a stream operator that has its own ideas of what looks
  good, and the tool uses both.  What they have in common is the spelling of the leaves; where they
  differ is in what they put between them.

  1. **compact** -- `Json::writeString` with an empty indentation: no space, no newline.

  2. **styled** -- `operator<<`: the members of an object on lines of their own, one tab deeper.

  3. **Strings** -- a string is quoted with its control characters escaped, so a newline in a name
     or in a message is not one in the text.

  4. **Lines** -- the compact text is one line whatever the strings of the value hold
     (`newline_not_mem_compact`), while the text of an object with members is more than one line in
     the other style (`newline_mem_styled`).
-/
import FepControl.Json

namespace FepControl

/-! ## Strings -/

def hexDigit (n : Nat) : Char := "0123456789abcdef".toList.getD (n % 16) '0'

def unicodeEscape (n : Nat) : List Char :=
  ['\\', 'u', hexDigit (n / 4096), hexDigit (n / 256), hexDigit (n / 16), hexDigit n]

/-- `valueToQuotedStringN`, for one character. -/
def escapeCodepoint (c : Char) : List Char :=
  if c = '"' then ['\\', '"']
  else if c = '\\' then ['\\', '\\']
  else if c.toNat = 8 then ['\\', 'b']
  else if c.toNat = 12 then ['\\', 'f']
  else if c = '\n' then ['\\', 'n']
  else if c = '\r' then ['\\', 'r']
  else if c = '\t' then ['\\', 't']
  else if c.toNat < 0x20 then unicodeEscape c.toNat
  else if c.toNat < 0x80 then [c]
  else if c.toNat < 0x10000 then unicodeEscape c.toNat
  else
    -- a surrogate pair
    unicodeEscape (0xd800 + (c.toNat - 0x10000) / 0x400) ++
      unicodeEscape (0xdc00 + (c.toNat - 0x10000) % 0x400)

/-- A string between quotes. -/
def quoted (s : String) : List Char := '"' :: s.toList.flatMap escapeCodepoint ++ ['"']

/-- The text of a number or a constant. -/
def scalar : Json → List Char
  | .bool b => (if b then "true" else "false").toList
  | .int n => (toString n).toList
  | .real mantissa exponent => (toString mantissa).toList ++ 'e' :: (toString exponent).toList
  | _ => "null".toList

/-- Texts with a separator between them. -/
def separated (separator : List Char) : List (List Char) → List Char
  | [] => []
  | [text] => text
  | text :: texts => text ++ separator ++ separated separator texts

/-! ## The compact text -/

mutual

/-- The text without any layout. -/
def Json.compact : Json → List Char
  | .str s => quoted s
  | .arr elements => '[' :: separated [','] (Json.compactElements elements) ++ [']']
  | .obj members => '{' :: separated [','] (Json.compactMembers members) ++ ['}']
  | v => scalar v

def Json.compactElements : List Json → List (List Char)
  | [] => []
  | v :: elements => v.compact :: Json.compactElements elements

def Json.compactMembers : List (String × Json) → List (List Char)
  | [] => []
  | (key, v) :: members => (quoted key ++ ':' :: v.compact) :: Json.compactMembers members

end

/-! ## The styled text -/

/-- A new line, indented. -/
def indented (depth : Nat) : List Char := '\n' :: List.replicate depth '\t'

mutual

/-- The text with a layout, at a depth. -/
def Json.styled (depth : Nat) : Json → List Char
  | .str s => quoted s
  | .arr [] => "[]".toList
  | .arr elements => '[' :: separated [','] (Json.styledElements (depth + 1) elements) ++
      indented depth ++ [']']
  | .obj [] => "{}".toList
  | .obj members => '{' :: separated [','] (Json.styledMembers (depth + 1) members) ++
      indented depth ++ ['}']
  | v => scalar v

def Json.styledElements (depth : Nat) : List Json → List (List Char)
  | [] => []
  | v :: elements => (indented depth ++ v.styled depth) :: Json.styledElements depth elements

def Json.styledMembers (depth : Nat) : List (String × Json) → List (List Char)
  | [] => []
  | (key, v) :: members => (indented depth ++ quoted key ++ " : ".toList ++ v.styled depth) ::
      Json.styledMembers depth members

end

/-! ## Lines -/

theorem hexDigit_ne_newline (n : Nat) : hexDigit n ≠ '\n' := by
  have h : ∀ k < 16, "0123456789abcdef".toList.getD k '0' ≠ '\n' := by decide
  exact h (n % 16) (Nat.mod_lt n (by decide))

theorem newline_not_mem_unicodeEscape (n : Nat) : '\n' ∉ unicodeEscape n := by
  simp [unicodeEscape, Ne.symm (hexDigit_ne_newline _)]

/-- A newline is escaped. -/
theorem newline_not_mem_escapeCodepoint (c : Char) : '\n' ∉ escapeCodepoint c := by
  have hunicode := newline_not_mem_unicodeEscape
  unfold escapeCodepoint
  by_cases hnewline : c = '\n'
  · subst hnewline; decide
  · repeat' split
    all_goals first
      | exact hunicode _
      | exact fun h => (List.mem_append.mp h).elim (hunicode _) (hunicode _)
      | simp [Ne.symm hnewline]

/-- So there is none in a quoted string. -/
theorem newline_not_mem_quoted (s : String) : '\n' ∉ quoted s := by
  intro h
  rcases List.mem_append.mp h with h | h
  · rcases List.mem_cons.mp h with h | h
    · exact absurd h (by decide)
    · obtain ⟨c, -, hc⟩ := List.mem_flatMap.mp h
      exact newline_not_mem_escapeCodepoint c hc
  · exact absurd h (by decide)

theorem newline_not_mem_nat (n : Nat) : '\n' ∉ n.repr.toList := by
  rw [Nat.toList_repr]
  intro h
  have := Nat.isDigit_of_mem_toDigits (by decide) (by decide) h
  exact absurd this (by decide)

theorem newline_not_mem_int (n : Int) : '\n' ∉ (toString n).toList := by
  cases n with
  | ofNat n => exact newline_not_mem_nat n
  | negSucc n =>
    show '\n' ∉ ("-" ++ (n + 1).repr).toList
    rw [String.toList_append]
    intro h
    rcases List.mem_append.mp h with h | h
    · exact absurd h (by decide)
    · exact newline_not_mem_nat _ h

/-- A leaf is one line. -/
theorem newline_not_mem_scalar (v : Json) : '\n' ∉ scalar v := by
  have hnull : '\n' ∉ "null".toList := by decide
  cases v with
  | bool b => cases b <;> decide
  | int n => exact newline_not_mem_int n
  | real mantissa exponent =>
    intro h
    rcases List.mem_append.mp h with h | h
    · exact newline_not_mem_int _ h
    · rcases List.mem_cons.mp h with h | h
      · exact absurd h (by decide)
      · exact newline_not_mem_int _ h
  | null => exact hnull
  | str _ => exact hnull
  | arr _ => exact hnull
  | obj _ => exact hnull

/-- What is put together of lines with a separator that is on one line is one line. -/
theorem newline_not_mem_separated {separator : List Char} (hseparator : '\n' ∉ separator) :
    ∀ texts : List (List Char), (∀ text ∈ texts, '\n' ∉ text) → '\n' ∉ separated separator texts
  | [], _ => by simp [separated]
  | [text], h => h text (List.mem_singleton_self text)
  | text :: text' :: texts, h => by
      intro hmem
      rcases List.mem_append.mp hmem with hmem | hmem
      · rcases List.mem_append.mp hmem with hmem | hmem
        · exact h text List.mem_cons_self hmem
        · exact hseparator hmem
      · exact newline_not_mem_separated hseparator (text' :: texts)
          (fun t ht => h t (List.mem_cons_of_mem _ ht)) hmem

/-- A text between two brackets. -/
theorem newline_not_mem_between {left right : Char} {text : List Char} (hleft : '\n' ≠ left)
    (hright : '\n' ≠ right) (h : '\n' ∉ text) : '\n' ∉ left :: text ++ [right] := by
  intro hmem
  rcases List.mem_append.mp hmem with hmem | hmem
  · rcases List.mem_cons.mp hmem with heq | hmem
    · exact hleft heq
    · exact h hmem
  · exact hright (List.mem_singleton.mp hmem)

mutual

/-- **The compact text is one line**, whatever the strings hold. -/
theorem newline_not_mem_compact : ∀ v : Json, '\n' ∉ v.compact
  | .null => by rw [Json.compact]; exact newline_not_mem_scalar _; all_goals nofun
  | .bool b => by rw [Json.compact]; exact newline_not_mem_scalar _; all_goals nofun
  | .int n => by rw [Json.compact]; exact newline_not_mem_scalar _; all_goals nofun
  | .real _ _ => by rw [Json.compact]; exact newline_not_mem_scalar _; all_goals nofun
  | .str s => by rw [Json.compact]; exact newline_not_mem_quoted s
  | .arr elements => by
      rw [Json.compact]
      exact newline_not_mem_between (by decide) (by decide) (newline_not_mem_separated (by decide)
        _ (newline_not_mem_compactElements elements))
  | .obj members => by
      rw [Json.compact]
      exact newline_not_mem_between (by decide) (by decide) (newline_not_mem_separated (by decide)
        _ (newline_not_mem_compactMembers members))

theorem newline_not_mem_compactElements : ∀ elements : List Json,
    ∀ text ∈ Json.compactElements elements, '\n' ∉ text
  | [], _, h => by rw [Json.compactElements] at h; exact absurd h nofun
  | v :: elements, text, h => by
      rw [Json.compactElements] at h
      rcases List.mem_cons.mp h with rfl | h
      · exact newline_not_mem_compact v
      · exact newline_not_mem_compactElements elements text h

theorem newline_not_mem_compactMembers : ∀ members : List (String × Json),
    ∀ text ∈ Json.compactMembers members, '\n' ∉ text
  | [], _, h => by rw [Json.compactMembers] at h; exact absurd h nofun
  | (key, v) :: members, text, h => by
      rw [Json.compactMembers] at h
      rcases List.mem_cons.mp h with rfl | h
      · intro hmem
        rcases List.mem_append.mp hmem with hmem | hmem
        · exact newline_not_mem_quoted key hmem
        · rcases List.mem_cons.mp hmem with heq | hmem
          · exact absurd heq (by decide)
          · exact newline_not_mem_compact v hmem
      · exact newline_not_mem_compactMembers members text h

end

/-- An object with members is more than one line in the other style. -/
theorem newline_mem_styled (depth : Nat) (member : String × Json) (members : List (String × Json)) :
    '\n' ∈ (Json.obj (member :: members)).styled depth := by
  rw [Json.styled]
  · refine List.mem_append_left _ (List.mem_append_right _ ?_)
    exact List.mem_cons_self
  · nofun

end FepControl
