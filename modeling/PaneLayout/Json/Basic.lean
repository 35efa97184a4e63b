set_option autoImplicit false

/-!
# JSON values

Layout requests travel as JSON, and a layout node that is neither a command nor a group is kept
as the JSON value that stood in its place.

## Main definitions

* `PaneLayout.Json`: a value. Whole numbers are kept apart from floating-point numbers.
* `PaneLayout.Json.insertMember`: adds a member to an object, whose keys stay in increasing order.
* `PaneLayout.Json.ofMembers`: the object of a list of members, where the last of equal keys wins.
-/

namespace PaneLayout

/-- **JSON values.** -/
inductive Json where
  | null
  | bool (value : Bool)
  | int (value : Int)
  | float (value : Float)
  | string (value : String)
  | array (items : List Json)
  | object (members : List (String × Json))
  deriving Inhabited

namespace Json

/-- Puts a member at its place in the order of keys, in place of a member with the same key. -/
def insertMember (key : String) (value : Json) : List (String × Json) → List (String × Json)
  | [] => [(key, value)]
  | (k, v) :: rest =>
    if key = k then (key, value) :: rest
    else if key < k then (key, value) :: (k, v) :: rest
    else (k, v) :: insertMember key value rest

/-- **Objects.** The members in increasing order of keys; of equal keys the last one counts. -/
def ofMembers (members : List (String × Json)) : Json :=
  .object (members.foldl (fun done m => insertMember m.1 m.2 done) [])

/-- The member of an object with the given key. -/
def get? (key : String) : Json → Option Json
  | .object members => members.lookup key
  | _ => none

end Json

end PaneLayout
