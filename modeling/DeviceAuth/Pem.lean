import DeviceAuth.Base64
import DeviceAuth.Bytes
import DeviceAuth.Text.Blank
import DeviceAuth.Text.Split

/-!
# DeviceAuth.Pem

PEM armour.  A line with `BEGIN` in it opens the body and a line with `END` closes it, wherever
in the line the word stands; `strip` joins the trimmed lines in between.  Labels carry no meaning.
`encode` writes the body in lines of 64 columns.
-/

namespace DeviceAuth.Pem

/-! ## Lines -/

/-- A character that ends a line. -/
def isLineEnd (c : Char) : Bool :=
  c == '\r' || c == '\n'

/-- The lines of a text; a carriage return ends a line as a line feed does. -/
def lines (cs : List Char) : List (List Char) :=
  Text.splitWhere isLineEnd cs

/-- Whether a word stands somewhere in a text. -/
def holds (word : List Char) : List Char → Bool
  | [] => word.isEmpty
  | c :: r => word.isPrefixOf (c :: r) || holds word r

/-- What a line does to the body. -/
inductive LineKind where
  /-- The line opens the body. -/
  | opening
  /-- The line closes the body. -/
  | closing
  /-- The line is part of the body if it is open. -/
  | text
  deriving DecidableEq, Repr

/-- A line that holds both words opens the body. -/
def lineKind (line : List Char) : LineKind :=
  if holds ['B', 'E', 'G', 'I', 'N'] line then .opening
  else if holds ['E', 'N', 'D'] line then .closing
  else .text

/-! ## Reading -/

/-- The trimmed body lines, joined; the first argument says whether the body is open. -/
def bodyOf : Bool → List (List Char) → List Char
  | _, [] => []
  | isOpen, l :: ls =>
    match lineKind l with
    | .opening => bodyOf true ls
    | .closing => bodyOf false ls
    | .text => if isOpen then Text.trim l ++ bodyOf isOpen ls else bodyOf isOpen ls

/-- The body of a PEM text, without line ends and surrounding white space. -/
def strip (pem : String) : String :=
  .ofList (bodyOf false (lines pem.toList))

/-- The bytes that the body of a PEM text spells. -/
def decode (pem : String) : Except Base64.Fault (List UInt8) :=
  Base64.decodeText .standard .lenient (strip pem)

/-! ## Writing -/

/-- The columns of a body line. -/
def columns : Nat := 64

/-- The PEM text of a byte list under a label. -/
def encode (label : String) (der : List UInt8) : String :=
  let body := (splitEvery columns (Base64.encode .standard der).toList).flatMap (· ++ ['\n'])
  "-----BEGIN " ++ label ++ "-----\n" ++ String.ofList body ++ "-----END " ++ label ++ "-----\n"

end DeviceAuth.Pem
