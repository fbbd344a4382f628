import DeviceAuth.Text.Split
import DeviceAuth.Text.Utf8

/-!
# DeviceAuth.Files

Trees of files, and reading and writing in them by path.  A path is walked from left to right: an
empty component and `.` stay where they are, `..` goes up, and a name goes down into a directory.
What lies outside the tree counts as a directory without entries, in which nothing can be written.
-/

namespace DeviceAuth

namespace Files

/-! ## Faults -/

/-- Why a path cannot be read. -/
inductive Fault where
  | notFound
  | notDirectory
  | isDirectory
  | nameTooLong
  | notUtf8
  | nulInName
  deriving DecidableEq, Repr

/-- The wording of a fault. -/
def Fault.message : Fault → String
  | .notFound => "No such file or directory (os error 2)"
  | .notDirectory => "Not a directory (os error 20)"
  | .isDirectory => "Is a directory (os error 21)"
  | .nameTooLong => "File name too long (os error 36)"
  | .notUtf8 => "stream did not contain valid UTF-8"
  | .nulInName => "file name contained an unexpected NUL byte"

/-! ## Trees -/

/-- What a path may lead to. -/
inductive Node where
  | file (content : List UInt8)
  | directory
  deriving DecidableEq, Repr

/-- A tree: its nodes under the names that lead to them, the newest first.  The tree itself is
the directory without names. -/
structure Tree where
  nodes : List (List String × Node)
  deriving Repr, Inhabited

/-- A tree with nothing in it. -/
def Tree.empty : Tree := ⟨[]⟩

/-- The tree with a node under some names, in place of whatever was there. -/
def Tree.insert (t : Tree) (names : List String) (node : Node) : Tree :=
  ⟨(names, node) :: t.nodes⟩

/-- The node under some names. -/
def Tree.node? (t : Tree) (names : List String) : Option Node :=
  if names = [] then some .directory else t.nodes.lookup names

@[simp]
theorem Tree.node?_nil (t : Tree) : t.node? [] = some .directory := by simp [node?]

theorem Tree.node?_insert (t : Tree) (names others : List String) (node : Node)
    (h : others ≠ []) :
    (t.insert names node).node? others = if others = names then some node else t.node? others := by
  by_cases hn : others = names
  · subst hn
    simp [node?, insert, h]
  · have hb : (others == names) = false := by simpa using hn
    simp [node?, insert, h, hn, List.lookup_cons, hb]

/-! ## Walking -/

/-- The greatest size of a name, in bytes. -/
def maxNameSize : Nat := 255

/-- The size from which on a path is too long, in bytes. -/
def maxPathSize : Nat := 4096

/-- Where a walk stands: in a directory of the tree, or outside of it. -/
inductive Place where
  | inside (names : List String)
  | outside
  deriving DecidableEq, Repr

/-- The directory above. -/
def Place.parent : Place → Place
  | .inside [] => .outside
  | .inside names => .inside names.dropLast
  | .outside => .outside

/-- The place of a name in a directory. -/
def Place.child? : Place → String → Option (List String)
  | .inside names, name => some (names ++ [name])
  | .outside, _ => none

/-- The components of a path. -/
def components (path : String) : List String :=
  (Text.splitWhere (· == '/') path.toList).map String.ofList

/-- Where a path starts from, and its components; a path may also be no path at all. -/
def start (path : String) : Except Fault (Place × List String) :=
  if path.toList.contains '\x00' then .error .nulInName
  else if path = "" then .error .notFound
  else if maxPathSize ≤ path.utf8ByteSize then .error .nameTooLong
  else .ok (if path.toList.head? = some '/' then .outside else .inside [], components path)

/-- A component that names an entry of a directory. -/
def isName (component : String) : Bool :=
  component ≠ "" && component ≠ "." && component ≠ ".."

/-- What one component leads to from a directory, and where that is. -/
def Tree.step (t : Tree) (place : Place) (component : String) : Except Fault (Place × Node) :=
  if isName component then
    if maxNameSize < component.utf8ByteSize then .error .nameTooLong
    else
      match place.child? component with
      | none => .error .notFound
      | some names =>
        match t.node? names with
        | none => .error .notFound
        | some node => .ok (.inside names, node)
  else .ok (if component = ".." then place.parent else place, .directory)

/-- What some components lead to from a directory, and where that is. -/
def Tree.walk (t : Tree) (place : Place) : List String → Except Fault (Place × Node)
  | [] => .ok (place, .directory)
  | component :: r =>
    match t.step place component with
    | .error f => .error f
    | .ok (place, .directory) => t.walk place r
    | .ok (place, .file content) =>
      if r = [] then .ok (place, .file content) else .error .notDirectory

/-! ## Making directories and writing -/

/-- Makes the directories that are missing along some components; stops where that fails. -/
def Tree.makeAlong (t : Tree) (place : Place) : List String → Tree
  | [] => t
  | component :: r =>
    match t.step place component, place.child? component with
    | .ok (place, .directory), _ => t.makeAlong place r
    | .error .notFound, some names => (t.insert names .directory).makeAlong (.inside names) r
    | _, _ => t

/-- Makes a directory and those that lead to it, where they are missing. -/
def Tree.makeDirectory (t : Tree) (path : String) : Tree :=
  match start path with
  | .error _ => t
  | .ok (place, components) => t.makeAlong place components

/-- Writes a file, new or in place of the one there.  The directory that it goes into has to
exist; nothing is written over a directory. -/
def Tree.write (t : Tree) (path : String) (content : List UInt8) : Tree :=
  match start path with
  | .error _ => t
  | .ok (place, components) =>
    let name := components.getLastD ""
    match t.walk place components.dropLast with
    | .ok (place, .directory) =>
      match isName name, t.step place name, place.child? name with
      | true, .ok (_, .file _), some names => t.insert names (.file content)
      | true, .error .notFound, some names => t.insert names (.file content)
      | _, _, _ => t
    | _ => t

/-! ## Reading -/

/-- What a path leads to. -/
def Tree.resolve (t : Tree) (path : String) : Except Fault Node :=
  match start path with
  | .error f => .error f
  | .ok (place, components) => (t.walk place components).map (·.2)

/-- Whether a path leads to anything. -/
def Tree.has (t : Tree) (path : String) : Bool :=
  match t.resolve path with
  | .ok _ => true
  | .error _ => false

/-- The bytes of a file. -/
def Tree.read (t : Tree) (path : String) : Except Fault (List UInt8) :=
  match t.resolve path with
  | .ok (.file content) => .ok content
  | .ok .directory => .error .isDirectory
  | .error f => .error f

/-- The text of a file. -/
def Tree.readText (t : Tree) (path : String) : Except Fault String :=
  match t.read path with
  | .ok bytes =>
    match Text.Utf8.decode? bytes with
    | some s => .ok s
    | none => .error .notUtf8
  | .error f => .error f

end Files

end DeviceAuth
