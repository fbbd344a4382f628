import DeviceAuth.Proofs.Key.Load
import DeviceAuth.Token.Issue

/-!
# DeviceAuth.Proofs.Log.Refusal

What the log gives away of a verifying key that does not load.  Unlike issuing, which logs such a
fault by its type alone (`Log.cryptoFault`), a verifier without a handler logs its whole wording.

* a number that is written out in front of something else is read back (`toDigits_append_inj`), so
  the wording of a Base64 fault shows the fault (`Base64.Fault.message_inj`);
* a verifying key fails at its body, at its algorithm or because its bytes are malformed
  (`Key.reason_of_loadEcPublic`).  In the first two cases the wording shows the failure
  (`Key.message_eq_iff_of_described`); in the third it is what a parser says of the bytes, and shows
  what that tells apart (`Key.message_eq_iff_of_malformed`);
* so the record of a refusal tells texts apart that fail in different ways
  (`Token.records_verify_eq_iff`).
-/

namespace DeviceAuth

/-! ## Wordings -/

/-- A number in decimal and what follows it are told apart by the first character that is no
digit. -/
theorem toDigits_append_inj {m n : Nat} {r s : List Char} (hr : ∀ c ∈ r.head?, c.isDigit = false)
    (hs : ∀ c ∈ s.head?, c.isDigit = false) (h : Nat.toDigits 10 m ++ r = Nat.toDigits 10 n ++ s) :
    m = n ∧ r = s := by
  have htake : ∀ {k : Nat} {t : List Char}, (∀ c ∈ t.head?, c.isDigit = false) →
      (Nat.toDigits 10 k ++ t).takeWhile Char.isDigit = Nat.toDigits 10 k := by
    intro k t ht
    have hdigits : ∀ c ∈ Nat.toDigits 10 k, c.isDigit = true :=
      fun c hc => Nat.isDigit_of_mem_toDigits (by decide) (by decide) hc
    rw [List.takeWhile_append_of_pos hdigits]
    cases t with
    | nil => simp
    | cons c t => simp [ht c rfl]
  have hdigits := congrArg (List.takeWhile Char.isDigit) h
  rw [htake hr, htake hs] at hdigits
  rw [hdigits] at h
  have hnumber := congrArg (Nat.ofDigitChars 10 · 0) hdigits
  simp only [Nat.ofDigitChars_ten_toDigits] at hnumber
  exact ⟨hnumber, List.append_cancel_left h⟩

namespace Base64

/-- The wording of a byte at an offset. -/
def placeWords (b : UInt8) (o : Nat) : List Char :=
  Nat.toDigits 10 b.toNat ++ (", offset ".toList ++ (Nat.toDigits 10 o ++ ['.']))

theorem Fault.toList_message_symbol (b : UInt8) (o : Nat) :
    (Fault.symbol b o).message.toList = "Invalid symbol ".toList ++ placeWords b o := by
  show ("Invalid symbol " ++ b.toNat.repr ++ ", offset " ++ o.repr ++ ".").toList = _
  simp [placeWords]

theorem Fault.toList_message_length (n : Nat) :
    (Fault.length n).message.toList = "Invalid input length: ".toList ++ Nat.toDigits 10 n := by
  show ("Invalid input length: " ++ n.repr).toList = _
  simp

theorem Fault.toList_message_lastSymbol (b : UInt8) (o : Nat) :
    (Fault.lastSymbol b o).message.toList = "Invalid last symbol ".toList ++ placeWords b o := by
  show ("Invalid last symbol " ++ b.toNat.repr ++ ", offset " ++ o.repr ++ ".").toList = _
  simp [placeWords]

theorem Fault.toList_message_padding : Fault.padding.message.toList = "Invalid padding".toList :=
  rfl

/-- The byte and the offset are read back. -/
theorem placeWords_inj {b c : UInt8} {o p : Nat} (h : placeWords b o = placeWords c p) :
    b = c ∧ o = p := by
  have hcomma : ∀ r : List Char, ∀ d ∈ (", offset ".toList ++ r).head?, d.isDigit = false := by
    intro r
    simp
  have hstop : ∀ d ∈ ['.'].head?, d.isDigit = false := by simp
  obtain ⟨hbyte, hrest⟩ := toDigits_append_inj (hcomma _) (hcomma _) h
  obtain ⟨hoffset, -⟩ := toDigits_append_inj hstop hstop (List.append_cancel_left hrest)
  exact ⟨UInt8.toNat_inj.1 hbyte, hoffset⟩

/-- The wording of a fault shows the fault. -/
theorem Fault.message_inj {f g : Fault} (h : f.message = g.message) : f = g := by
  replace h := congrArg String.toList h
  cases f <;> cases g
  case symbol.symbol b o c p =>
    rw [toList_message_symbol, toList_message_symbol] at h
    obtain ⟨rfl, rfl⟩ := placeWords_inj (List.append_cancel_left h)
    rfl
  case length.length m n =>
    rw [toList_message_length, toList_message_length, List.append_cancel_left_eq] at h
    have hend : ∀ c ∈ ([] : List Char).head?, c.isDigit = false := by simp
    obtain ⟨rfl, -⟩ := toDigits_append_inj hend hend (congrArg (· ++ []) h)
    rfl
  case lastSymbol.lastSymbol b o c p =>
    rw [toList_message_lastSymbol, toList_message_lastSymbol] at h
    obtain ⟨rfl, rfl⟩ := placeWords_inj (List.append_cancel_left h)
    rfl
  case padding.padding => rfl
  -- two kinds of fault differ in the character after "Invalid "
  all_goals simp [toList_message_symbol, toList_message_length, toList_message_lastSymbol,
    toList_message_padding] at h

end Base64

namespace Key

/-! ## Reasons and failures -/

section Wording

variable {words : ParserWords}

theorem toList_message_algorithm (o : Der.Oid) : ((Reason.algorithm o).message words).toList =
    "unknown/unsupported algorithm OID: ".toList ++ o.dotted.toList :=
  String.toList_append

theorem toList_message_base64 (f : Base64.Fault) : ((Reason.base64 f).message words).toList =
    "invalid Base64 body: ".toList ++ f.message.toList :=
  String.toList_append

theorem dotted_ecPublicKey_ne :
    Der.Oid.ecPublicKey.dotted.toList ≠ Der.Oid.prime256v1.dotted.toList := by
  decide +kernel

/-- The wording of a reason that is described shows the reason. -/
theorem Reason.Described.eq_of_message {r s : Reason} (hr : r.Described) (hs : s.Described)
    (h : r.message words = s.message words) : r = s := by
  replace h := congrArg String.toList h
  cases hr <;> cases hs
  case base64.base64 f g =>
    rw [toList_message_base64, toList_message_base64, List.append_cancel_left_eq] at h
    rw [Base64.Fault.message_inj (String.toList_inj.1 h)]
  case algorithm.algorithm => rfl
  case curve.curve => rfl
  case algorithm.curve =>
    rw [toList_message_algorithm, toList_message_algorithm, List.append_cancel_left_eq] at h
    exact absurd h dotted_ecPublicKey_ne
  case curve.algorithm =>
    rw [toList_message_algorithm, toList_message_algorithm, List.append_cancel_left_eq] at h
    exact absurd h.symm dotted_ecPublicKey_ne
  all_goals simp [toList_message_algorithm, toList_message_base64] at h

/-- The wording of a failure shows the wording of its reason. -/
theorem Failure.message_eq_iff {f g : Failure} (h : f.role = g.role) :
    f.message words = g.message words ↔ f.reason.message words = g.reason.message words := by
  show "Failed to load " ++ f.role.describe ++ ": " ++ f.reason.message words =
    "Failed to load " ++ g.role.describe ++ ": " ++ g.reason.message words ↔ _
  rw [h, String.append_right_inj]

/-! ### Verifying keys -/

variable {pem pem' : String} {f f' : Failure}

theorem role_eq_of_loadEcPublic (h : loadEcPublic pem = .error f)
    (h' : loadEcPublic pem' = .error f') : f.role = f'.role := by
  rw [role_of_loadWith h, role_of_loadWith h']

/-- Where the failures of two verifying keys are described, their wordings show them. -/
theorem message_eq_iff_of_described (h : loadEcPublic pem = .error f)
    (h' : loadEcPublic pem' = .error f') (hf : f.reason.Described) (hf' : f'.reason.Described) :
    f.message words = f'.message words ↔ f = f' := by
  have hrole := role_eq_of_loadEcPublic h h'
  constructor
  · intro hmessage
    have hreason : f.reason = f'.reason :=
      hf.eq_of_message hf' ((Failure.message_eq_iff hrole).1 hmessage)
    calc f = ⟨f.role, f.reason⟩ := rfl
      _ = ⟨f'.role, f'.reason⟩ := by rw [hrole, hreason]
  · exact congrArg _

/-- Where the bytes of two verifying keys are malformed, all that their wordings show is what the
parser says. -/
theorem message_eq_iff_of_malformed {der der' : List UInt8} (h : loadEcPublic pem = .error f)
    (h' : loadEcPublic pem' = .error f') (hf : f.reason = .malformed .ecPublic der)
    (hf' : f'.reason = .malformed .ecPublic der') :
    f.message words = f'.message words ↔ words .ecPublic der = words .ecPublic der' := by
  rw [Failure.message_eq_iff (role_eq_of_loadEcPublic h h'), hf, hf']
  rfl

end Wording

end Key

namespace Log

/-! ## Records -/

/-- Records of one operation show what it was turned down for. -/
theorem rejected_inj {operation reason reason' : String} :
    rejected operation reason = rejected operation reason' ↔ reason = reason' := by
  show Record.mk .warn ("Rejected " ++ operation ++ ": " ++ reason) =
    Record.mk .warn ("Rejected " ++ operation ++ ": " ++ reason') ↔ _
  rw [Record.mk.injEq, String.append_right_inj, and_iff_right rfl]

theorem rejected_ne_cryptoFault {operation operation' reason : String} {type : FaultType} :
    rejected operation reason ≠ cryptoFault operation' type :=
  fun h => Level.noConfusion (congrArg Record.level h)

end Log

namespace Token

/-! ## Refusals -/

/-- The record of a refusal for a key that does not load shows the wording of the failure. -/
theorem refused_key_inj {words : Key.ParserWords} {f f' : Key.Failure} :
    refused words (.key f) = refused words (.key f') ↔ f.message words = f'.message words :=
  Log.rejected_inj

section Unloaded

variable (words : Key.ParserWords) {pem pem' : String} {f f' : Key.Failure}

/-- A verifier whose key does not load refuses every token for that alone. -/
theorem records_verify_of_unloaded (h : Key.loadEcPublic pem = .error f) (token : String)
    (now : Int) :
    (Verifier.verify words ⟨pem, none⟩ token now).records = [refused words (.key f)] := by
  simp [Verifier.verify, verifyWithPem, h, Logged.noting]

/-- Two such refusals leave the same record exactly when the failures have the same wording. -/
theorem records_verify_eq_iff_message (h : Key.loadEcPublic pem = .error f)
    (h' : Key.loadEcPublic pem' = .error f') (token token' : String) (now now' : Int) :
    (Verifier.verify words ⟨pem, none⟩ token now).records =
      (Verifier.verify words ⟨pem', none⟩ token' now').records ↔
        f.message words = f'.message words := by
  rw [records_verify_of_unloaded words h, records_verify_of_unloaded words h', List.cons.injEq,
    and_iff_left rfl, refused_key_inj]

/-- What the log gives away of a verifying key that does not load, for any words of the parsers of
DER.  Whatever the token and the time, a verifier without a handler leaves one record, that of a
refusal with the wording of the failure in it, and never one that names a fault by its type alone.
So two keys that do not load leave the same record exactly when their failures have the same
wording.  Where both fail at their body or at their algorithm, that is when their failures are the
same; where both are malformed in their bytes, it is when the parser says the same of both; and
each fails in one of these two ways. -/
theorem records_verify_eq_iff (h : Key.loadEcPublic pem = .error f)
    (h' : Key.loadEcPublic pem' = .error f') (token token' : String) (now now' : Int) :
    (Verifier.verify words ⟨pem, none⟩ token now).records = [refused words (.key f)] ∧
    (∀ operation type,
      (Verifier.verify words ⟨pem, none⟩ token now).records ≠ [Log.cryptoFault operation type]) ∧
    ((Verifier.verify words ⟨pem, none⟩ token now).records =
      (Verifier.verify words ⟨pem', none⟩ token' now').records ↔
        f.message words = f'.message words) ∧
    (f.reason.Described → f'.reason.Described →
      ((Verifier.verify words ⟨pem, none⟩ token now).records =
        (Verifier.verify words ⟨pem', none⟩ token' now').records ↔ f = f')) ∧
    (∀ der der', f.reason = .malformed .ecPublic der → f'.reason = .malformed .ecPublic der' →
      ((Verifier.verify words ⟨pem, none⟩ token now).records =
        (Verifier.verify words ⟨pem', none⟩ token' now').records ↔
          words .ecPublic der = words .ecPublic der')) ∧
    (f.reason.Described ∨
      ∃ der, Pem.decode pem = .ok der ∧ f.reason = .malformed .ecPublic der) := by
  have hrecords := records_verify_of_unloaded words h token now
  have hmessage := records_verify_eq_iff_message words h h' token token' now now'
  refine ⟨hrecords, ?_, hmessage, ?_, ?_, Key.reason_of_loadEcPublic h⟩
  · intro operation type
    rw [hrecords]
    exact fun heq => Log.rejected_ne_cryptoFault (List.cons.inj heq).1
  · intro hf hf'
    rw [hmessage, Key.message_eq_iff_of_described h h' hf hf']
  · intro der der' hf hf'
    rw [hmessage, Key.message_eq_iff_of_malformed h h' hf hf']

end Unloaded

/-- A text whose third symbol is no symbol of the alphabet. -/
def atSignPublicPem : String :=
  "-----BEGIN PUBLIC KEY-----\nAB@D\n-----END PUBLIC KEY-----\n"

/-- The same text with another character in that place. -/
def bangPublicPem : String :=
  "-----BEGIN PUBLIC KEY-----\nAB!D\n-----END PUBLIC KEY-----\n"

/-- A text of other symbols with the same one in that place. -/
def laterPublicPem : String :=
  "-----BEGIN PUBLIC KEY-----\nZZ@ZZZZZ\n-----END PUBLIC KEY-----\n"

/-- A text with a body of three bytes, which are no key. -/
def zerosPublicPem : String :=
  "-----BEGIN PUBLIC KEY-----\nAAAA\n-----END PUBLIC KEY-----\n"

/-- The failure of a key that has `@` for its third symbol. -/
def atSignFailure : Key.Failure :=
  ⟨.publicKey, .base64 (.symbol 0x40 2)⟩

theorem loadEcPublic_atSignPublicPem :
    Key.loadEcPublic atSignPublicPem = .error atSignFailure := by
  decide +kernel

theorem loadEcPublic_laterPublicPem :
    Key.loadEcPublic laterPublicPem = .error atSignFailure := by
  decide +kernel

theorem loadEcPublic_bangPublicPem :
    Key.loadEcPublic bangPublicPem = .error ⟨.publicKey, .base64 (.symbol 0x21 2)⟩ := by
  decide +kernel

theorem loadEcPublic_empty :
    Key.loadEcPublic "" = .error ⟨.publicKey, .malformed .ecPublic []⟩ := by
  decide +kernel

theorem loadEcPublic_zerosPublicPem :
    Key.loadEcPublic zerosPublicPem = .error ⟨.publicKey, .malformed .ecPublic [0, 0, 0]⟩ := by
  decide +kernel

/-- Two texts that fail at the same byte and offset leave the same record; two texts of malformed
bytes do so when the parser says the same of both. -/
theorem records_verify_same_symbol :
    Key.loadEcPublic atSignPublicPem = .error atSignFailure ∧
    Key.loadEcPublic laterPublicPem = .error atSignFailure ∧
    atSignFailure.reason.Described ∧
    Key.loadEcPublic "" = .error ⟨.publicKey, .malformed .ecPublic []⟩ ∧
    Key.loadEcPublic zerosPublicPem = .error ⟨.publicKey, .malformed .ecPublic [0, 0, 0]⟩ ∧
    ∀ words,
      (Verifier.verify words ⟨atSignPublicPem, none⟩ "a.b.c" 0).records =
        [refused words (.key atSignFailure)] ∧
      (Verifier.verify words ⟨atSignPublicPem, none⟩ "a.b.c" 0).records =
        (Verifier.verify words ⟨laterPublicPem, none⟩ "a.b.c" 0).records ∧
      ((Verifier.verify words ⟨"", none⟩ "a.b.c" 0).records =
        (Verifier.verify words ⟨zerosPublicPem, none⟩ "a.b.c" 0).records ↔
          words .ecPublic [] = words .ecPublic [0, 0, 0]) := by
  have hdescribed : atSignFailure.reason.Described := .base64 _
  refine ⟨loadEcPublic_atSignPublicPem, loadEcPublic_laterPublicPem, hdescribed,
    loadEcPublic_empty, loadEcPublic_zerosPublicPem, fun words => ?_⟩
  obtain ⟨hrecords, -, -, htold, -⟩ := records_verify_eq_iff words loadEcPublic_atSignPublicPem
    loadEcPublic_laterPublicPem "a.b.c" "a.b.c" 0 0
  obtain ⟨-, -, -, -, hparser, -⟩ := records_verify_eq_iff words loadEcPublic_empty
    loadEcPublic_zerosPublicPem "a.b.c" "a.b.c" 0 0
  exact ⟨hrecords, (htold hdescribed hdescribed).2 rfl, hparser _ _ rfl rfl⟩

/-- Two texts that fail at one place in different bytes leave different records, whatever the
parsers of DER say. -/
theorem records_verify_other_symbol :
    ¬ ∃ words, ∀ (token : String) (now now' : Int) (pem pem' : String) (f f' : Key.Failure),
      Key.loadEcPublic pem = .error f → Key.loadEcPublic pem' = .error f' →
      (Verifier.verify words ⟨pem, none⟩ token now).records =
        (Verifier.verify words ⟨pem', none⟩ token now').records := by
  rintro ⟨words, hall⟩
  have hrecords := hall "a.b.c" 0 0 _ _ _ _ loadEcPublic_atSignPublicPem
    loadEcPublic_bangPublicPem
  rw [records_verify_eq_iff_message words loadEcPublic_atSignPublicPem loadEcPublic_bangPublicPem,
    Key.message_eq_iff_of_described loadEcPublic_atSignPublicPem loadEcPublic_bangPublicPem
      (.base64 _) (.base64 _)] at hrecords
  exact absurd hrecords (by decide)

end Token

end DeviceAuth
