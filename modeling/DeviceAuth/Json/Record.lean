import DeviceAuth.Json.Printer
import DeviceAuth.Json.Reader
import DeviceAuth.Text.Quoted

/-!
# DeviceAuth.Json.Record

Reading a JSON text straight into a record of known fields: an object with the fields in any order
and others passed over, or an array of all fields in the order of their declaration.  A field is
a text, a list of texts, or a 64-bit integer; one that is optional may be missing or `null`.
Faults come in the order of the text, and carry no place.
-/

namespace DeviceAuth.Json

/-! ## Fields -/

/-- The types that a field may have. -/
inductive FieldType where
  | text
  | texts
  | integer
  deriving DecidableEq, Repr

/-- The value of a field. -/
inductive FieldValue where
  | absent
  | text (s : String)
  | texts (ss : List String)
  | integer (n : Int)
  deriving DecidableEq, Repr

/-- A field: its name, its type, and whether it may be missing. -/
structure Field where
  name : String
  type : FieldType
  optional : Bool
  deriving DecidableEq, Repr

/-- What a reader of a type expects, in messages. -/
def FieldType.expectation : FieldType → String
  | .text => "a string"
  | .texts => "a sequence"
  | .integer => "i64"

/-! ## Faults -/

/-- A value that has not the expected type. -/
inductive Unexpected where
  | null
  | bool (b : Bool)
  | number (n : Number)
  | string (s : String)
  | array
  | object
  deriving DecidableEq, Repr

/-- The text that some bytes spell. -/
def spell (bs : List UInt8) : String :=
  .ofList (bs.map fun b => Char.ofNat b.toNat)

/-- The wording of an unexpected value. -/
def Unexpected.message : Unexpected → String
  | .null => "null"
  | .bool true => "boolean `true`"
  | .bool false => "boolean `false`"
  | .number (.int n) => "integer `" ++ toString n ++ "`"
  | .number (.float x) => "floating point `" ++ spell (encodeFloat x) ++ "`"
  | .string s => "string " ++ Text.Quoted.encode s
  | .array => "sequence"
  | .object => "map"

/-- Why a text is not a record. -/
inductive RecordFault where
  /-- The text is not JSON up to the place where the reader stopped. -/
  | invalid (reason : Reason)
  /-- A value has the wrong type. -/
  | type (found : Unexpected) (expected : String)
  /-- An integer is out of range. -/
  | range (n : Int)
  /-- A field is missing. -/
  | missing (field : String)
  /-- A field comes twice. -/
  | duplicate (field : String)
  /-- An array ends before the last field. -/
  | length (found : Nat) (record : String) (fields : Nat)
  deriving DecidableEq, Repr

/-- The wording of a fault. -/
def RecordFault.message : RecordFault → String
  | .invalid r => r.message
  | .type found expected => "invalid type: " ++ found.message ++ ", expected " ++ expected
  | .range n => "invalid value: integer `" ++ toString n ++ "`, expected i64"
  | .missing f => "missing field `" ++ f ++ "`"
  | .duplicate f => "duplicate field `" ++ f ++ "`"
  | .length n record k =>
    s!"invalid length {n}, expected struct " ++ record ++ s!" with {k} elements"

/-- A reader whose faults carry no place. -/
abbrev RecordReader (α : Type) := List UInt8 → Except RecordFault (α × List UInt8)

/-- The reason of a fault, without its place. -/
def placeless {α : Type} (r : Except Fault α) : Except RecordFault α :=
  r.mapError fun f => .invalid f.reason

/-- A fault in the text. -/
def invalid {α : Type} (reason : Reason) : Except RecordFault α :=
  .error (.invalid reason)

/-! ## Passing over values -/

/-- Passes over a number after its sign, without regard to its size. -/
def skipNumber (s : List UInt8) : Except RecordFault (List UInt8) :=
  let digits := s.takeWhile isDigit
  let rest := s.dropWhile isDigit
  if digits = [] ∨ (digits.head? = some 0x30 ∧ digits.length ≠ 1) then invalid .invalidNumber
  else
    let afterFraction : Except RecordFault (List UInt8) :=
      if rest.head? = some 0x2E then
        let fraction := rest.drop 1
        if (fraction.head?.map isDigit).getD false then .ok (fraction.dropWhile isDigit)
        else invalid .invalidNumber
      else .ok rest
    match afterFraction with
    | .error f => .error f
    | .ok s =>
      if (s.head?.map isExponentMark).getD false then
        let s := s.drop 1
        let s := if s.head? = some 0x2B ∨ s.head? = some 0x2D then s.drop 1 else s
        if (s.head?.map isDigit).getD false then .ok (s.dropWhile isDigit)
        else invalid .invalidNumber
      else .ok s

/-- Passes over a string after its opening quote; escapes only have to be spelled right. -/
def skipString : List UInt8 → Except RecordFault (List UInt8)
  | [] => invalid .eofString
  | [b] => if b = 0x22 then .ok [] else
      invalid (if b < 0x20 then .controlCharacter else .eofString)
  | b :: c :: r =>
    if b = 0x22 then .ok (c :: r)
    else if b = 0x5C then
      if c = 0x75 then
        match r with
        | w :: x :: y :: z :: r =>
          if (hex4? w x y z).isSome then skipString r else invalid .invalidEscape
        | _ => invalid .eofString
      else if (shortEscape? c).isSome then skipString r
      else invalid .invalidEscape
    else if b < 0x20 then invalid .controlCharacter
    else skipString (c :: r)

/-- A container that a scan is inside of. -/
inductive Frame where
  | array
  | object
  deriving DecidableEq, Repr

/-- The name of a member and its colon. -/
def skipName (s : List UInt8) : Except RecordFault (List UInt8) :=
  match skipBlank s with
  | [] => invalid .eofObject
  | b :: r =>
    if b = 0x22 then
      match skipString r with
      | .ok s => placeless (readColon s)
      | .error f => .error f
    else invalid .keyNotString

/-- The start of the next item of a container. -/
def enter (frame : Frame) (s : List UInt8) : Except RecordFault (List UInt8) :=
  match frame with
  | .array => .ok s
  | .object => skipName s

/-- Leaves the containers that end here, up to the next item or the end of the outermost one. -/
def leave : List Frame → Nat → List UInt8 → Except RecordFault (List Frame × List UInt8)
  | [], _, s => .ok ([], s)
  | _, 0, _ => invalid .eofValue
  | frame :: outer, fuel + 1, s =>
    match skipBlank s with
    | [] => invalid (if frame = .array then .eofArray else .eofObject)
    | b :: r =>
      if b = 0x2C then (enter frame r).map (frame :: outer, ·)
      else if b = (if frame = .array then 0x5D else 0x7D) then leave outer fuel r
      else invalid (if frame = .array then .expectedCommaOrBracket else .expectedCommaOrBrace)

/-- The first item of a container just opened, or what follows the container if it is empty. -/
def enterFirst (frame : Frame) (outer : List Frame) (fuel : Nat) (s : List UInt8) :
    Except RecordFault (List Frame × List UInt8) :=
  match skipBlank s with
  | [] => invalid (if frame = .array then .eofArray else .eofObject)
  | b :: r =>
    if b = (if frame = .array then 0x5D else 0x7D) then leave outer fuel r
    else (enter frame (b :: r)).map (frame :: outer, ·)

/-- Passes over one scalar, or opens a container; then goes on to the next item. -/
def skipItem (frames : List Frame) (fuel : Nat) (s : List UInt8) :
    Except RecordFault (List Frame × List UInt8) :=
  let resume (r : Except RecordFault (List UInt8)) : Except RecordFault (List Frame × List UInt8) :=
    match r with
    | .ok s => leave frames fuel s
    | .error f => .error f
  match skipBlank s with
  | [] => invalid .eofValue
  | b :: r =>
    if b = 0x6E then resume (placeless (readWord [0x75, 0x6C, 0x6C] r))
    else if b = 0x74 then resume (placeless (readWord [0x72, 0x75, 0x65] r))
    else if b = 0x66 then resume (placeless (readWord [0x61, 0x6C, 0x73, 0x65] r))
    else if b = 0x2D then resume (skipNumber r)
    else if isDigit b then resume (skipNumber (b :: r))
    else if b = 0x22 then resume (skipString r)
    else if b = 0x5B then enterFirst .array frames fuel r
    else if b = 0x7B then enterFirst .object frames fuel r
    else invalid .expectedValue

/-- Items one after the other, until no container is open. -/
def skipItems : Nat → List Frame → List UInt8 → Except RecordFault (List UInt8)
  | 0, _, _ => invalid .eofValue
  | fuel + 1, frames, s =>
    match skipItem frames (s.length + 1) s with
    | .ok ([], s) => .ok s
    | .ok (frames, s) => skipItems fuel frames s
    | .error f => .error f

/-- Passes over one value of any depth. -/
def skipValue (s : List UInt8) : Except RecordFault (List UInt8) :=
  skipItems (s.length + 1) [] s

/-! ## Typed values -/

/-- The fault of a value with the wrong type.  Scalars are read first, and may be faulty
themselves; containers are not looked into. -/
def wrongType {α : Type} (expected : String) (s : List UInt8) : Except RecordFault α :=
  let report (r : Except RecordFault (Unexpected × List UInt8)) : Except RecordFault α :=
    match r with
    | .ok (found, _) => .error (.type found expected)
    | .error f => .error f
  match s with
  | [] => invalid .expectedValue
  | b :: r =>
    if b = 0x6E then report (placeless ((readWord [0x75, 0x6C, 0x6C] r).map (.null, ·)))
    else if b = 0x74 then report (placeless ((readWord [0x72, 0x75, 0x65] r).map (.bool true, ·)))
    else if b = 0x66 then
      report (placeless ((readWord [0x61, 0x6C, 0x73, 0x65] r).map (.bool false, ·)))
    else if b = 0x2D then report (placeless (mapRead .number (readNumber true r)))
    else if isDigit b then report (placeless (mapRead .number (readNumber false (b :: r))))
    else if b = 0x22 then report (placeless (mapRead .string (readString r)))
    else if b = 0x5B then .error (.type .array expected)
    else if b = 0x7B then .error (.type .object expected)
    else invalid .expectedValue

/-- Reads a text. -/
def readTextField : RecordReader String := fun s =>
  match skipBlank s with
  | [] => invalid .eofValue
  | b :: r =>
    if b = 0x22 then placeless (readString r) else wrongType FieldType.text.expectation (b :: r)

/-- Reads the items of a list of texts after its opening bracket, before an item or the end. -/
def readTextItems : Nat → RecordReader (List String)
  | 0, _ => invalid .eofArray
  | fuel + 1, s =>
    match readTextField s with
    | .error f => .error f
    | .ok (t, s) =>
      match skipBlank s with
      | [] => invalid .eofArray
      | b :: r =>
        if b = 0x5D then .ok ([t], r)
        else if b = 0x2C then
          match skipBlank r with
          | [] => invalid .eofValue
          | c :: u =>
            if c = 0x5D then invalid .trailingComma
            else
              match readTextItems fuel (c :: u) with
              | .ok (ts, s) => .ok (t :: ts, s)
              | .error f => .error f
        else invalid .expectedCommaOrBracket

/-- Reads a list of texts. -/
def readTextsField : RecordReader (List String) := fun s =>
  match skipBlank s with
  | [] => invalid .eofValue
  | b :: r =>
    if b = 0x5B then
      match skipBlank r with
      | [] => invalid .eofArray
      | c :: t => if c = 0x5D then .ok ([], t) else readTextItems (c :: t).length (c :: t)
    else wrongType FieldType.texts.expectation (b :: r)

/-- The integer of a number, within range. -/
def integerOfNumber : Number × List UInt8 → Except RecordFault (Int × List UInt8)
  | (.int n, r) => if n ≤ Text.int64Max then .ok (n, r) else .error (.range n)
  | (n, _) => .error (.type (.number n) FieldType.integer.expectation)

/-- Reads an integer. -/
def readIntegerField : RecordReader Int := fun s =>
  match skipBlank s with
  | [] => invalid .eofValue
  | b :: r =>
    if b = 0x2D then (placeless (readNumber true r)).bind integerOfNumber
    else if isDigit b then (placeless (readNumber false (b :: r))).bind integerOfNumber
    else wrongType FieldType.integer.expectation (b :: r)

/-- Reads a value of a field type. -/
def FieldType.read : FieldType → RecordReader FieldValue
  | .text => fun s => (readTextField s).map fun (t, r) => (.text t, r)
  | .texts => fun s => (readTextsField s).map fun (ts, r) => (.texts ts, r)
  | .integer => fun s => (readIntegerField s).map fun (n, r) => (.integer n, r)

/-- Reads the value of a field; an optional one may be `null`. -/
def Field.read (f : Field) : RecordReader FieldValue := fun s =>
  match skipBlank s with
  | b :: r =>
    if f.optional ∧ b = 0x6E then placeless ((readWord [0x75, 0x6C, 0x6C] r).map (.absent, ·))
    else f.type.read (b :: r)
  | [] => f.type.read []

/-! ## Records -/

/-- Whether a reader stands before another item of an array; the flag says that an item came. -/
def moreItems (afterItem : Bool) (s : List UInt8) : Except RecordFault (Bool × List UInt8) :=
  match skipBlank s with
  | [] => invalid .eofArray
  | b :: r =>
    if b = 0x5D then .ok (false, b :: r)
    else if !afterItem then .ok (true, b :: r)
    else if b = 0x2C then
      match skipBlank r with
      | [] => invalid .eofValue
      | c :: t => if c = 0x5D then invalid .trailingComma else .ok (true, c :: t)
    else invalid .expectedCommaOrBracket

/-- Reads the fields of a record from the items of an array, counting the fields read. -/
def readFieldItems (record : String) (total : Nat) :
    Nat → List Field → RecordReader (List FieldValue)
  | _, [], s => .ok ([], s)
  | k, f :: fs, s =>
    match moreItems (k != 0) s with
    | .error e => .error e
    | .ok (false, _) => .error (.length k record total)
    | .ok (true, s) =>
      match f.read s with
      | .error e => .error e
      | .ok (v, s) =>
        match readFieldItems record total (k + 1) fs s with
        | .ok (vs, s) => .ok (v :: vs, s)
        | .error e => .error e

/-- Takes the end of an array of which all fields are read. -/
def endItems (s : List UInt8) : Except RecordFault (List UInt8) :=
  match skipBlank s with
  | [] => invalid .eofArray
  | b :: r =>
    if b = 0x5D then .ok r
    else if b = 0x2C ∧ (skipBlank r).head? = some 0x5D then invalid .trailingComma
    else invalid .trailingCharacters

/-- Reads one member of a record after the opening quote of its name; a field that was read before
may not come again, and a name that is no field is passed over with its value. -/
def readFieldMember (fields : List Field) (found : List (String × FieldValue)) :
    RecordReader (List (String × FieldValue)) := fun s =>
  match placeless (readString s) with
  | .error e => .error e
  | .ok (name, s) =>
    match fields.find? (·.name == name) with
    | some f =>
      if (found.lookup name).isSome then .error (.duplicate name)
      else
        match placeless (readColon s) with
        | .error e => .error e
        | .ok s => (f.read s).map fun (v, r) => (found ++ [(name, v)], r)
    | none =>
      match placeless (readColon s) with
      | .error e => .error e
      | .ok s => (skipValue s).map (found, ·)

/-- Reads the members of a record from the opening quote of a name on. -/
def readFieldMembers (fields : List Field) :
    Nat → List (String × FieldValue) → RecordReader (List (String × FieldValue))
  | 0, _, _ => invalid .eofObject
  | fuel + 1, found, s =>
    match readFieldMember fields found s with
    | .error e => .error e
    | .ok (found, s) =>
      match skipBlank s with
      | [] => invalid .eofObject
      | b :: r =>
        if b = 0x7D then .ok (found, r)
        else if b = 0x2C then
          match skipBlank r with
          | [] => invalid .eofValue
          | c :: t =>
            if c = 0x22 then readFieldMembers fields fuel found t
            else if c = 0x7D then invalid .trailingComma
            else invalid .keyNotString
        else invalid .expectedCommaOrBrace

/-- The values of the fields in order; a required field that was not found is a fault. -/
def collect (found : List (String × FieldValue)) : List Field → Except RecordFault (List FieldValue)
  | [] => .ok []
  | f :: fs =>
    match found.lookup f.name with
    | some v => (collect found fs).map (v :: ·)
    | none =>
      if f.optional then (collect found fs).map (.absent :: ·) else .error (.missing f.name)

/-- Reads a record with the given fields. -/
def readRecord (record : String) (fields : List Field) : RecordReader (List FieldValue) := fun s =>
  match skipBlank s with
  | [] => invalid .eofValue
  | b :: r =>
    if b = 0x5B then
      match readFieldItems record fields.length 0 fields r with
      | .error e => .error e
      | .ok (vs, s) => (endItems s).map (vs, ·)
    else if b = 0x7B then
      match skipBlank r with
      | [] => invalid .eofObject
      | c :: t =>
        if c = 0x7D then (collect [] fields).map (·, t)
        else if c = 0x22 then
          match readFieldMembers fields t.length.succ [] t with
          | .error e => .error e
          | .ok (found, s) => (collect found fields).map (·, s)
        else invalid .keyNotString
    else wrongType ("struct " ++ record) (b :: r)

/-- The fields of a text that holds one record and nothing else but white space. -/
def decodeRecord (record : String) (fields : List Field) (text : List UInt8) :
    Except RecordFault (List FieldValue) :=
  match readRecord record fields text with
  | .error e => .error e
  | .ok (vs, rest) => if skipBlank rest = [] then .ok vs else invalid .trailingCharacters

/-! ## Writing records -/

/-- The compact text of a field value that is there. -/
def FieldValue.encode? : FieldValue → Option (List UInt8)
  | .absent => none
  | .text s => some (encodeString s)
  | .texts ss => some (encodeItems (ss.map encodeString))
  | .integer n => some (encodeInt n)

/-- The compact text of a record: an object of the fields that have a value, in order. -/
def encodeRecord (fields : List Field) (values : List FieldValue) : List UInt8 :=
  encodeMembers ((fields.zip values).filterMap fun (f, v) => v.encode?.map (f.name, ·))

end DeviceAuth.Json
