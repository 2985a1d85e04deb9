/-
  `Json::Value` as the control tool uses it.

  The tool builds its responses member by member, and it builds the tree of a participant's
  properties in the same way: a value is handed down by reference, and whoever has it adds to it.
  All of this goes through three operations of jsoncpp, and their peculiarity is that they change
  what a value is.  A fresh value is `null`; the first member that is assigned makes an object of
  it, and the first element that is appended an array.

  1. **Values** -- the members of an object are kept in the order of their names, as jsoncpp keeps
     them, so two values that hold the same data are equal.

  2. **Writing access** -- `value[key] = v` and `value.append(v)` turn `null` into an object or an
     array.  On a value of another kind jsoncpp throws; no caller reaches that, and `set` and
     `append` leave such a value as it is.

  3. **Reading access** -- `value[key]` of a key that is not there is `null`.  What is found after
     an assignment is said once, for all values that are objects by then (`get?_set`).
-/
import FepControl.Lib.SortedMap

namespace FepControl

open Lib

/-- A `Json::Value`. -/
inductive Json where
  | null
  | bool (b : Bool)
  | int (n : Int)
  /-- `mantissa * 10 ^ exponent` -/
  | real (mantissa exponent : Int)
  | str (s : String)
  | arr (elements : List Json)
  | obj (members : List (String × Json))

namespace Json

/-- A value that `value[key] = v` makes, or keeps, an object. -/
def IsObject : Json → Prop
  | .null | .obj _ => True
  | _ => False

/-- `value[key] = v`. -/
def set (value : Json) (key : String) (v : Json) : Json :=
  match value with
  | .null => .obj [(key, v)]
  | .obj members => .obj (Assoc.assign key v members)
  | value => value

/-- The member `key`, if the value is an object that has it. -/
def get? (value : Json) (key : String) : Option Json :=
  match value with
  | .obj members => members.lookup key
  | _ => none

/-- `value[key]`, read: a member that is not there is `null`. -/
def at_ (value : Json) (key : String) : Json := (value.get? key).getD .null

/-- `value.append(v)`. -/
def append (value v : Json) : Json :=
  match value with
  | .null => .arr [v]
  | .arr elements => .arr (elements ++ [v])
  | value => value

/-- An object, or what can become one, is one after an assignment. -/
theorem isObject_set (key : String) (v : Json) : ∀ j : Json, j.IsObject → (j.set key v).IsObject
  | .null, _ | .obj _, _ => trivial

/-- After an assignment the key has the new value, and every other key what it had. -/
theorem get?_set (key k : String) (v : Json) : ∀ j : Json, j.IsObject →
    (j.set key v).get? k = if k = key then some v else j.get? k
  | .null, _ => Assoc.lookup_cons k key v []
  | .obj members, _ => Assoc.lookup_assign key k v members

end Json

end FepControl
