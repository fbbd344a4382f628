import DeviceAuth.Bytes
import DeviceAuth.Sha256
import DeviceAuth.Text.Utf8

/-!
# DeviceAuth.Log

Log records as values.  An operation that logs gives a `Logged` result: its value, and the records
in the order in which they arose.  Client identifiers and token subjects never stand in a record;
a pseudonym, the start of their SHA-256 digest, stands for them.  A fault is logged by the type of
its cause and without its text, which could show parts of a key.
-/

namespace DeviceAuth

namespace Log

/-! ## Records -/

/-- How grave a record is. -/
inductive Level where
  | debug
  | warn
  | error
  deriving DecidableEq, Repr

/-- The name of a level. -/
def Level.name : Level → String
  | .debug => "DEBUG"
  | .warn => "WARN"
  | .error => "ERROR"

/-- One line of the log. -/
structure Record where
  level : Level
  text : String
  deriving DecidableEq, Repr

/-- The digits of a pseudonym. -/
def pseudonymDigits : Nat := 12

/-- What stands for an identifier in the log: `#` and the first digits of its digest. -/
def pseudonym (identifier : String) : String :=
  "#" ++ encodeHex ((Sha256.hash (Text.Utf8.encode identifier)).take (pseudonymDigits / 2))

/-! ## Wording -/

/-- A token was issued; one without an expiry says so. -/
def tokenIssued (variant subject : String) (expiry : Option Int) : Record :=
  let exp := match expiry with
    | some t => toString t
    | none => "none"
  ⟨.debug, "Issued " ++ variant ++ " token (subject_hash: " ++ pseudonym subject ++ ", exp: " ++
    exp ++ ")"⟩

/-- The word for a truth value. -/
def word (b : Bool) : String :=
  if b then "true" else "false"

/-- A certificate was resolved to an identity. -/
def identityResolved (clientId : String) (hasPublicKey : Bool) : Record :=
  ⟨.debug, "Resolved certificate identity (client_hash: " ++ pseudonym clientId ++
    ", public_key: " ++ word hasPublicKey ++ ")"⟩

/-- A block is about to be encrypted. -/
def encryption (length limit : Nat) : Record :=
  ⟨.debug, s!"RSA PKCS#1 v1.5 encryption ({length}/{limit} bytes)"⟩

/-- A request was turned down before any key was used. -/
def rejected (operation reason : String) : Record :=
  ⟨.warn, "Rejected " ++ operation ++ ": " ++ reason⟩

/-- The types of fault that are logged without their text. -/
inductive FaultType where
  /-- A key did not load. -/
  | key
  /-- The block cipher refused. -/
  | rsa
  deriving DecidableEq, Repr

/-- The qualified name of a type of fault. -/
def FaultType.path : FaultType → String
  | .key => "tokensmith_key::error::KeyError"
  | .rsa => "rsa::errors::Error"

/-- A cryptographic operation failed. -/
def cryptoFault (operation : String) (type : FaultType) : Record :=
  ⟨.error, "Cryptographic operation failed: " ++ operation ++ " (error_type: " ++ type.path ++ ")"⟩

end Log

/-! ## Logged results -/

/-- A value with the records that arose on the way to it. -/
structure Logged (α : Type) where
  value : α
  records : List Log.Record
  deriving DecidableEq, Repr, Inhabited

namespace Logged

/-- A value without records. -/
def quiet {α : Type} (a : α) : Logged α :=
  ⟨a, []⟩

/-- A value with one record. -/
def noting {α : Type} (r : Log.Record) (a : α) : Logged α :=
  ⟨a, [r]⟩

/-- The result under a function. -/
def map {α β : Type} (f : α → β) (x : Logged α) : Logged β :=
  ⟨f x.value, x.records⟩

/-- One operation after another; the records follow in the same order. -/
def andThen {α β : Type} (x : Logged α) (f : α → Logged β) : Logged β :=
  ⟨(f x.value).value, x.records ++ (f x.value).records⟩

@[simp]
theorem value_map {α β : Type} (f : α → β) (x : Logged α) : (x.map f).value = f x.value := rfl

@[simp]
theorem records_map {α β : Type} (f : α → β) (x : Logged α) : (x.map f).records = x.records := rfl

@[simp]
theorem value_andThen {α β : Type} (x : Logged α) (f : α → Logged β) :
    (x.andThen f).value = (f x.value).value := rfl

@[simp]
theorem records_andThen {α β : Type} (x : Logged α) (f : α → Logged β) :
    (x.andThen f).records = x.records ++ (f x.value).records := rfl

end Logged

end DeviceAuth
