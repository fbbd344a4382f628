import DeviceAuth.Text.Alphanumeric

/-!
# DeviceAuth.Dotenv.Value

The value on a dotenv line.  Single quotes take everything as it stands; double quotes still know
the backslash and `$`; outside quotes white space ends the value, and only a comment may follow.
`$name` and `${name}` stand for the value of a variable.  The character that ends a bare name is
taken as it stands, whatever it is.
-/

namespace DeviceAuth.Dotenv

/-- Where in a value a reader stands, quotes aside. -/
inductive Mode where
  /-- In text. -/
  | text
  /-- After the white space that ends the value. -/
  | ended
  /-- After a backslash. -/
  | escape
  /-- In single quotes. -/
  | strong
  /-- In a bare name after `$`. -/
  | bareName (name : List Char)
  /-- In a name between braces. -/
  | blockName (name : List Char)
  deriving DecidableEq, Repr

/-- Why a value is refused. -/
inductive ValueFault where
  /-- The character with this index may not stand where it does. -/
  | character (index : Nat)
  /-- A quote or a brace is open at the end. -/
  | unclosed
  deriving DecidableEq, Repr

/-- The character that an escaped one stands for. -/
def unescape? (c : Char) : Option Char :=
  if c = '\\' ∨ c = '\'' ∨ c = '"' ∨ c = '$' ∨ c = ' ' then some c
  else if c = 'n' then some '\n'
  else none

/-- A space or a tab. -/
def isGap (c : Char) : Bool :=
  c == ' ' || c == '\t'

/-- Characters put before what follows. -/
def prepend (cs : List Char) : Except ValueFault (List Char) → Except ValueFault (List Char)
  | .ok r => .ok (cs ++ r)
  | .error f => .error f

/-- What a value gives when it ends where the reader stands. -/
def finish (vars : List Char → List Char) (weak : Bool) (mode : Mode) :
    Except ValueFault (List Char) :=
  if weak then .error .unclosed
  else
    match mode with
    | .strong | .blockName _ => .error .unclosed
    | .bareName n => .ok (vars n)
    | _ => .ok []

/-- Reads the rest of a value; `weak` says that double quotes are open, and `index` counts the
characters before the rest. -/
def readFrom (vars : List Char → List Char) (weak : Bool) (mode : Mode) (index : Nat) :
    List Char → Except ValueFault (List Char)
  | [] => finish vars weak mode
  | c :: cs =>
    match mode with
    | .ended =>
      if isGap c then readFrom vars weak .ended (index + 1) cs
      else if c = '#' then .ok []
      else .error (.character index)
    | .escape =>
      match unescape? c with
      | some d => prepend [d] (readFrom vars weak .text (index + 1) cs)
      | none => .error (.character index)
    | .strong =>
      if c = '\'' then readFrom vars weak .text (index + 1) cs
      else prepend [c] (readFrom vars weak .strong (index + 1) cs)
    | .bareName n =>
      if Text.isAlphanumeric c then readFrom vars weak (.bareName (n ++ [c])) (index + 1) cs
      else if c = '\x7b' ∧ n = [] then readFrom vars weak (.blockName []) (index + 1) cs
      else if c = '$' then
        prepend (vars n) (readFrom vars weak (.bareName []) (index + 1) cs)
      else prepend (vars n ++ [c]) (readFrom vars weak .text (index + 1) cs)
    | .blockName n =>
      if c = '\x7d' then prepend (vars n) (readFrom vars weak .text (index + 1) cs)
      else readFrom vars weak (.blockName (n ++ [c])) (index + 1) cs
    | .text =>
      if c = '$' then readFrom vars weak (.bareName []) (index + 1) cs
      else if c = '\\' then readFrom vars weak .escape (index + 1) cs
      else if c = '"' then readFrom vars (!weak) .text (index + 1) cs
      else if weak then prepend [c] (readFrom vars weak .text (index + 1) cs)
      else if c = '\'' then readFrom vars weak .strong (index + 1) cs
      else if isGap c then readFrom vars weak .ended (index + 1) cs
      else prepend [c] (readFrom vars weak .text (index + 1) cs)

/-- The value that a text writes, given the values of variables. -/
def readValue (vars : List Char → List Char) (cs : List Char) : Except ValueFault (List Char) :=
  readFrom vars false .text 0 cs

end DeviceAuth.Dotenv
