import DeviceAuth.Binary64
import DeviceAuth.Text.Integer

/-!
# DeviceAuth.Json

JSON values.  Integers of 64 bits, signed or not, stay exact; every other number is a double.  An
object keeps its members sorted by name, one value per name.
-/

namespace DeviceAuth

/-- A JSON number. -/
inductive Json.Number where
  /-- An integer between `-2 ^ 63` and `2 ^ 64 - 1`. -/
  | int (n : Int)
  /-- A finite double. -/
  | float (x : Binary64)
  deriving DecidableEq, Repr

/-- A JSON value. -/
inductive Json where
  | null
  | bool (b : Bool)
  | number (n : Json.Number)
  | string (s : String)
  | array (items : List Json)
  | object (members : List (String × Json))
  deriving Repr, Inhabited

namespace Json

/-! ## Members -/

/-- The members with one more; the name keeps its place in the order, and a value that the name
had is replaced. -/
def insertMember (name : String) (v : Json) : List (String × Json) → List (String × Json)
  | [] => [(name, v)]
  | (n, w) :: r =>
    if name < n then (name, v) :: (n, w) :: r
    else if name = n then (name, v) :: r
    else (n, w) :: insertMember name v r

/-- The members in order of their names; of two with one name the later stays. -/
def sortMembers (ms : List (String × Json)) : List (String × Json) :=
  ms.foldl (fun acc (n, v) => insertMember n v acc) []

/-- The value of a member of an object. -/
def member? (v : Json) (name : String) : Option Json :=
  match v with
  | .object ms => ms.lookup name
  | _ => none

/-! ## Views -/

/-- The text of a string. -/
def text? : Json → Option String
  | .string s => some s
  | _ => none

/-- An integer that fits into 64 bits with a sign; doubles are none. -/
def int64? : Json → Option Int
  | .number (.int n) => if Text.int64Min ≤ n ∧ n ≤ Text.int64Max then some n else none
  | _ => none

/-- What a value is called when another kind was expected. -/
def kindName : Json → String
  | .null => "null"
  | .bool _ => "a boolean"
  | .number _ => "a number"
  | .string _ => "a string"
  | .array _ => "an array"
  | .object _ => "an object"

end Json

end DeviceAuth
