import DeviceAuth.Dotenv
import DeviceAuth.Files
import DeviceAuth.Log
import DeviceAuth.Text.Integer

/-!
# DeviceAuth.Settings

Settings in two layers: an environment, and below it the entries of a dotenv text.  A variable of
the environment that is not empty decides; otherwise the first entry with that name does.  The
environment is that of the process until another takes its place.
-/

namespace DeviceAuth

/-- An environment over the entries of a dotenv text. -/
structure Settings where
  environment : Environment
  entries : List (String × String)
  deriving DecidableEq, Repr, Inhabited

namespace Settings

/-! ## Sources -/

/-- The settings of a process without a dotenv text. -/
def ofProcess (process : Environment) : Settings :=
  ⟨process, []⟩

/-- A line of a dotenv text was passed over. -/
def skippedLine (f : Dotenv.Fault) : Log.Record :=
  ⟨.warn, "Skipping dotenv line: " ++ f.message⟩

/-- The settings of a process over a dotenv text; lines that cannot be read are logged. -/
def ofDotenv (process : Environment) (text : List UInt8) : Logged Settings :=
  let results := Dotenv.read process text
  ⟨⟨process, Dotenv.entries results⟩, (Dotenv.faults results).map skippedLine⟩

/-- A dotenv file that cannot be read. -/
structure ReadFault where
  path : String
  cause : Files.Fault
  deriving DecidableEq, Repr

/-- The wording of a file that cannot be read. -/
def ReadFault.message (f : ReadFault) : String :=
  "Failed to read " ++ f.path ++ ": " ++ f.cause.message

/-- There is no dotenv file. -/
def noFile (path : String) : Log.Record :=
  ⟨.debug, "No dotenv file at " ++ path⟩

/-- The settings of a process over a dotenv file, which may be missing.  There is no result where
the path leads to a directory: it opens like a file, but every read from it fails, and lines that
fail are passed over without end. -/
def ofFile (process : Environment) (files : Files.Tree) (path : String) :
    Option (Logged (Except ReadFault Settings)) :=
  match files.read path with
  | .ok bytes => some ((ofDotenv process bytes).map .ok)
  | .error .notFound => some (.noting (noFile path) (.ok (ofProcess process)))
  | .error .isDirectory => none
  | .error f => some (.quiet (.error ⟨path, f⟩))

/-- The dotenv file that is read when no other is named. -/
def defaultPath : String := ".env"

/-- The settings of a process over the default dotenv file. -/
def load (process : Environment) (files : Files.Tree) :
    Option (Logged (Except ReadFault Settings)) :=
  ofFile process files defaultPath

/-- The same entries under another environment. -/
def withEnvironment (s : Settings) (e : Environment) : Settings :=
  { s with environment := e }

/-- The same entries alone. -/
def detached (s : Settings) : Settings :=
  s.withEnvironment .empty

/-! ## Lookups -/

/-- The variable of the environment with a name, unless it is empty. -/
def fromEnvironment? (s : Settings) (name : String) : Option String :=
  (s.environment.get? name).filter (· ≠ "")

/-- The value of a setting. -/
def get? (s : Settings) (name : String) : Option String :=
  (s.fromEnvironment? name).or (s.entries.lookup name)

/-- The value of a setting, or a default. -/
def getD (s : Settings) (name default : String) : String :=
  (s.get? name).getD default

/-- A value that should be an integer is none. -/
def notNumeric (name : String) : Log.Record :=
  ⟨.warn, "Ignoring non-numeric value for " ++ name⟩

/-- The integer that a setting writes, white space around it aside, or a default; a value that
writes none is logged. -/
def getIntD (s : Settings) (name : String) (default : Int) : Logged Int :=
  match s.get? name with
  | none => .quiet default
  | some v =>
    match Text.readInt64? (Text.trim v.toList) with
    | some n => .quiet n
    | none => .noting (notNumeric name) default

end Settings

end DeviceAuth
