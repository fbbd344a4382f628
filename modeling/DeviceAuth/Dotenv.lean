import DeviceAuth.Dotenv.Line
import DeviceAuth.Dotenv.Value
import DeviceAuth.Environment

/-!
# DeviceAuth.Dotenv

Dotenv texts: lines `NAME=value`, perhaps after the word `export`.  A line that cannot be read is a
fault of its own and leaves the others as they are.  A value may refer to variables; the process
environment has their values first, then the lines before it.
-/

namespace DeviceAuth.Dotenv

/-! ## Assignments -/

/-- A character that may start a name. -/
def startsName (c : Char) : Bool :=
  c.isAlpha || c == '_'

/-- A character that may stand in a name. -/
def inName (c : Char) : Bool :=
  c.isAlphanum || c == '_' || c == '.'

/-- Takes a name; a failure gives the rest at which it came. -/
def takeName (s : List Char) : Except (List Char) (List Char × List Char) :=
  match s with
  | c :: _ => if startsName c then .ok (s.takeWhile inName, s.dropWhile inName) else .error s
  | [] => .error s

/-- Takes the sign between name and value. -/
def takeEquals : List Char → Except (List Char) (List Char)
  | '=' :: r => .ok r
  | s => .error s

/-- The word that may stand before a name. -/
def exportWord : List Char := ['e', 'x', 'p', 'o', 'r', 't']

/-- Takes the name of an assignment and its sign, and gives the text of the value as the rest.  The
word `export` is a name itself if the sign follows it. -/
def takeAssignment (s : List Char) : Except (List Char) (List Char × List Char) := do
  let (name, r) ← takeName s
  let r := Text.trimStart r
  if name = exportWord ∧ r.head? ≠ some '=' then
    let (name, r) ← takeName r
    let r ← takeEquals (Text.trimStart r)
    return (name, Text.trimStart r)
  else
    let r ← takeEquals r
    return (name, Text.trimStart r)

/-! ## Lines -/

/-- The size of a text in UTF-8. -/
def byteSize (cs : List Char) : Nat :=
  cs.foldl (fun n c => n + c.utf8Size) 0

/-- Why a line is refused. -/
inductive Fault where
  /-- The text in question, and where it goes wrong. -/
  | text (text : String) (index : Nat)
  /-- The bytes are not UTF-8. -/
  | notUtf8
  deriving DecidableEq, Repr

/-- The wording of a fault. -/
def Fault.message : Fault → String
  | .text t i => "Error parsing line: '" ++ t ++ s!"', error at line index: {i}"
  | .notUtf8 => "stream did not contain valid UTF-8"

/-- The fault of a value that is refused. -/
def ValueFault.toFault (value : List Char) : ValueFault → Fault
  | .character i => .text (.ofList value) i
  | .unclosed => .text (.ofList value) (byteSize value - 1)

/-- A variable and its value. -/
abbrev Entry := String × String

/-- The value of an assignment; nothing, or a comment, is the empty value. -/
def readAssigned (vars : List Char → List Char) (value : List Char) : Except Fault String :=
  if value = [] ∨ value.head? = some '#' then .ok ""
  else
    match readValue vars value with
    | .ok cs => .ok (.ofList cs)
    | .error f => .error (f.toFault value)

/-- The entry on a line, if there is one.  A fault before the value tells its place in bytes. -/
def readLine (vars : List Char → List Char) (line : List Char) : Except Fault (Option Entry) :=
  let kept := Text.trimEnd line
  let s := Text.trimStart kept
  if s = [] ∨ s.head? = some '#' then .ok none
  else
    match takeAssignment s with
    | .error rest => .error (.text (.ofList line) (byteSize kept - byteSize rest))
    | .ok (name, value) => (readAssigned vars value).map fun v => some (.ofList name, v)

/-! ## Texts -/

/-- The value of a variable for a line, given the entries before it, the latest first. -/
def valueOf (process : Environment) (known : List Entry) (name : List Char) : List Char :=
  match process.get? (.ofList name) with
  | some v => v.toList
  | none => ((known.lookup (.ofList name)).getD "").toList

/-- The entries and faults of some lines, given the entries before them, the latest first. -/
def readLines (process : Environment) (known : List Entry) : List Line → List (Except Fault Entry)
  | [] => []
  | .notUtf8 :: r => .error .notUtf8 :: readLines process known r
  | .unfinished cs :: r => .error (.text (.ofList cs) (byteSize cs)) :: readLines process known r
  | .complete cs :: r =>
    match readLine (valueOf process known) cs with
    | .ok none => readLines process known r
    | .ok (some e) => .ok e :: readLines process (e :: known) r
    | .error f => .error f :: readLines process known r

/-- The entries and faults of a text, in order. -/
def read (process : Environment) (bytes : List UInt8) : List (Except Fault Entry) :=
  readLines process [] (lines bytes)

/-- The entries among some results. -/
def entries (rs : List (Except Fault Entry)) : List Entry :=
  rs.filterMap fun
    | .ok e => some e
    | .error _ => none

/-- The faults among some results. -/
def faults (rs : List (Except Fault Entry)) : List Fault :=
  rs.filterMap fun
    | .ok _ => none
    | .error f => some f

end DeviceAuth.Dotenv
