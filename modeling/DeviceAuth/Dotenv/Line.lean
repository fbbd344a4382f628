import DeviceAuth.Text.Blank
import DeviceAuth.Text.Utf8

/-!
# DeviceAuth.Dotenv.Line

The logical lines of a dotenv text.  A quote or a backslash that is open at the end of a physical
line carries the line on into the next one; a `#` after white space cuts it off.  Line ends are
part of the lines that they end, until a logical line is complete.
-/

namespace DeviceAuth.Dotenv

/-! ## Scanning a physical line -/

/-- What a scan has just seen. -/
inductive Scan where
  /-- Nothing that is open. -/
  | plain
  /-- White space, after which a comment may start. -/
  | blank
  /-- A backslash. -/
  | escape
  /-- An open single quote. -/
  | strong
  /-- A backslash after an open single quote. -/
  | strongEscape
  /-- An open double quote. -/
  | weak
  /-- A backslash after an open double quote. -/
  | weakEscape
  deriving DecidableEq, Repr

/-- What a character opens outside quotes. -/
def Scan.opened (c : Char) : Scan :=
  if c = '\\' then .escape else if c = '"' then .weak else if c = '\'' then .strong else .plain

/-- The scan after one more character; none if a comment starts there. -/
def Scan.next (s : Scan) (c : Char) : Option Scan :=
  match s with
  | .plain => some (if Text.isBlank c ∧ c ≠ '\n' ∧ c ≠ '\r' then .blank else Scan.opened c)
  | .blank => if c = '#' then none else some (Scan.opened c)
  | .escape => some .plain
  | .strong => some (if c = '\\' then .strongEscape else if c = '\'' then .plain else .strong)
  | .strongEscape => some .strong
  | .weak => some (if c = '\\' then .weakEscape else if c = '"' then .plain else .weak)
  | .weakEscape => some .weak

/-- How a physical line ends. -/
inductive LineEnd where
  /-- A comment follows the text that was kept. -/
  | comment (kept : List Char)
  /-- The end was reached, and something may be open there. -/
  | reached (s : Scan)
  deriving DecidableEq, Repr

/-- Scans the characters of a physical line. -/
def scan : Scan → List Char → LineEnd
  | s, [] => .reached s
  | s, c :: cs =>
    match s.next c with
    | none => .comment []
    | some t =>
      match scan t cs with
      | .comment kept => .comment (c :: kept)
      | .reached u => .reached u

/-! ## Joining lines -/

/-- A logical line. -/
inductive Line where
  /-- A complete line, without its line end. -/
  | complete (text : List Char)
  /-- The text ended before the line did. -/
  | unfinished (text : List Char)
  /-- A physical line is not UTF-8. -/
  | notUtf8
  deriving DecidableEq, Repr

/-- The text without a line feed at its end, and without a carriage return before that. -/
def dropLineEnd (cs : List Char) : List Char :=
  match cs.reverse with
  | '\n' :: '\r' :: r => r.reverse
  | '\n' :: r => r.reverse
  | _ => cs

/-- A text that starts with `#` after white space. -/
def isComment (cs : List Char) : Bool :=
  (Text.trimStart cs).head? == some '#'

/-- The logical lines of physical lines, of which some may not be text; `pending` and `s` are what
earlier physical lines left open. -/
def joinLines (pending : List Char) (s : Scan) : List (Option (List Char)) → List Line
  | [] => if s = .plain then [] else [.unfinished pending]
  | none :: r => .notUtf8 :: joinLines [] .plain r
  | some l :: r =>
    if isComment (pending ++ l) then .complete [] :: joinLines [] .plain r
    else
      match scan s l with
      | .comment kept => .complete (pending ++ kept) :: joinLines [] .plain r
      | .reached t =>
        if t = .plain then .complete (dropLineEnd (pending ++ l)) :: joinLines [] .plain r
        else joinLines (pending ++ l) t r

/-- The physical lines of some bytes, each through its line feed. -/
def physicalLines : List UInt8 → List (List UInt8)
  | [] => []
  | b :: r =>
    if b = 0x0A then [b] :: physicalLines r
    else
      match physicalLines r with
      | l :: ls => (b :: l) :: ls
      | [] => [[b]]

/-- The logical lines of some bytes. -/
def lines (bytes : List UInt8) : List Line :=
  joinLines [] .plain ((physicalLines bytes).map fun l => (Text.Utf8.decode? l).map String.toList)

end DeviceAuth.Dotenv
