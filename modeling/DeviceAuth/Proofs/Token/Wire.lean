import DeviceAuth.Proofs.Json.Fields
import DeviceAuth.Token.Claims

/-!
# DeviceAuth.Proofs.Token.Wire

Headers and claims on the wire.  Their compact text is read back as they were, so it names them,
and whatever else is read as a header or as claims (`null` for a member without a value, members
in another order, members that are none of theirs, an array in place of an object) is brought into
that one form by reading and writing it (`wire_round_trip`).
-/

namespace DeviceAuth.Token

open Json (Field FieldValue)

/-! ## Values of members -/

/-- Claims with times of 64 bits. -/
def Claims.Fits (c : Claims) : Prop :=
  ∀ v ∈ c.values, v.Fits

section Optional

variable {f : Field} (hoptional : f.optional = true)

include hoptional

theorem holds_textValue (htype : f.type = .text) (s : Option String) :
    f.Holds (textValue s) := by
  cases s with
  | none => exact .absent hoptional
  | some s => exact .text htype s

theorem holds_textsValue (htype : f.type = .texts) (ss : Option (List String)) :
    f.Holds (textsValue ss) := by
  cases ss with
  | none => exact .absent hoptional
  | some ss => exact .texts htype ss

theorem holds_integerValue (htype : f.type = .integer) {n : Option Int}
    (hn : (integerValue n).Fits) : f.Holds (integerValue n) := by
  cases n with
  | none => exact .absent hoptional
  | some n => exact .integer htype hn

end Optional

@[simp] theorem textOf?_textValue (s : Option String) : textOf? (textValue s) = s := by
  cases s <;> rfl

@[simp] theorem textsOf?_textsValue (ss : Option (List String)) :
    textsOf? (textsValue ss) = ss := by
  cases ss <;> rfl

@[simp] theorem integerOf?_integerValue (n : Option Int) : integerOf? (integerValue n) = n := by
  cases n <;> rfl

theorem fits_integerValue_integerOf? {v : FieldValue} (h : v.Fits) :
    (integerValue (integerOf? v)).Fits := by
  cases v with
  | integer n => exact h
  | absent | text | texts => trivial

/-- The values of a header are those of its members. -/
theorem Header.holds_values (h : Header) : List.Forall₂ Field.Holds fields h.values :=
  .cons (.text rfl _) (.cons (.text rfl _) (.cons (holds_textValue rfl rfl _)
    (.cons (holds_textsValue rfl rfl _) .nil)))

/-- The values of claims are those of their members, if the times have 64 bits. -/
theorem Claims.holds_values {c : Claims} (h : c.Fits) :
    List.Forall₂ Field.Holds fields c.values := by
  have hcreated : (integerValue c.created).Fits := h _ (by simp [values])
  have hissued : (FieldValue.integer c.issuedAt).Fits := h _ (by simp [values])
  have hexpiry : (integerValue c.expiry).Fits := h _ (by simp [values])
  exact .cons (.text rfl _) (.cons (.texts rfl _) (.cons (holds_integerValue rfl rfl hcreated)
    (.cons (holds_textValue rfl rfl _) (.cons (holds_textValue rfl rfl _)
    (.cons (holds_textValue rfl rfl _) (.cons (holds_textValue rfl rfl _)
    (.cons (holds_textValue rfl rfl _) (.cons (.integer rfl hissued)
    (.cons (holds_integerValue rfl rfl hexpiry) .nil)))))))))

theorem Header.ofValues?_values (h : Header) : ofValues? h.values = some h := by
  simp [values, ofValues?]

theorem Claims.ofValues?_values (c : Claims) : ofValues? c.values = some c := by
  simp [values, ofValues?]

/-- Claims made of values that fit have times of 64 bits. -/
theorem Claims.fits_of_ofValues? {vs : List FieldValue} {c : Claims}
    (h : ofValues? vs = some c) (hvs : ∀ v ∈ vs, v.Fits) : c.Fits := by
  have htext : ∀ s, (textValue s).Fits := by
    intro s
    cases s <;> trivial
  unfold ofValues? at h
  split at h
  · next subject audience created scope idp session access imei issued expiry =>
    obtain rfl := Option.some.inj h
    have hcreated : created.Fits := hvs _ (by simp)
    have hissued : (FieldValue.integer issued).Fits := hvs _ (by simp)
    have hexpiry : expiry.Fits := hvs _ (by simp)
    simp only [Fits, values, List.forall_mem_cons]
    exact ⟨trivial, trivial, fits_integerValue_integerOf? hcreated, htext _, htext _, htext _,
      htext _, htext _, hissued, fits_integerValue_integerOf? hexpiry, List.forall_mem_nil _⟩
  · contradiction

/-! ## Reading -/

section OfRecord

variable {α : Type} {record : String} {fields : List Field} {make : List FieldValue → Option α}

theorem ofRecord_of_decodeRecord {text : List UInt8} {vs : List FieldValue} {a : α}
    (h : Json.decodeRecord record fields text = .ok vs) (hmake : make vs = some a) :
    ofRecord record fields make text = .ok a := by
  rw [ofRecord, h]
  dsimp only
  rw [hmake]

theorem exists_of_ofRecord {text : List UInt8} {a : α}
    (h : ofRecord record fields make text = .ok a) :
    ∃ vs, Json.decodeRecord record fields text = .ok vs ∧ make vs = some a := by
  rw [ofRecord] at h
  split at h
  · contradiction
  · next vs hread =>
    split at h
    · next b hmake =>
      rw [Except.ok.injEq] at h
      exact ⟨vs, hread, by rw [hmake, h]⟩
    · contradiction

end OfRecord

/-- A header is read from members that spell it, whatever their order. -/
theorem Header.decode_of_spells {h : Header} {members : List (String × List UInt8)}
    (hspells : Json.SpellsRecord fields h.values members) :
    decode (Json.encodeMembers members) = .ok h :=
  ofRecord_of_decodeRecord (Json.decodeRecord_of_spellsRecord hspells) h.ofValues?_values

/-- Claims are read from members that spell them, whatever their order. -/
theorem Claims.decode_of_spells {c : Claims} {members : List (String × List UInt8)}
    (hspells : Json.SpellsRecord fields c.values members) :
    decode (Json.encodeMembers members) = .ok c :=
  ofRecord_of_decodeRecord (Json.decodeRecord_of_spellsRecord hspells) c.ofValues?_values

/-- A header is read back as it was written. -/
theorem Header.decode_encode (h : Header) : decode h.encode = .ok h :=
  ofRecord_of_decodeRecord (Json.decodeRecord_encodeRecord (by decide) h.holds_values)
    h.ofValues?_values

/-- Claims with times of 64 bits are read back as they were written. -/
theorem Claims.decode_encode {c : Claims} (h : c.Fits) : decode c.encode = .ok c :=
  ofRecord_of_decodeRecord (Json.decodeRecord_encodeRecord (by decide) (holds_values h))
    c.ofValues?_values

/-- Claims that are read have times of 64 bits, whatever their text. -/
theorem Claims.fits_of_decode {text : List UInt8} {c : Claims} (h : decode text = .ok c) :
    c.Fits := by
  obtain ⟨vs, hread, hmake⟩ := exists_of_ofRecord h
  exact fits_of_ofValues? hmake (Json.fits_of_decodeRecord hread)

/-- The wire types, over all headers, claims and texts.  A header is read back from its compact
text, and so are claims with times of 64 bits; a text that is read as either at all is brought into
the compact form of what it was read as, and that form is read as the same and written as the same
again; values with one compact text are equal.  Members that spell the values are read alike in any
order, with or without a `null` where there is no value. -/
theorem wire_round_trip :
    (∀ h : Header, Header.decode h.encode = .ok h) ∧
    (∀ c : Claims, c.Fits → Claims.decode c.encode = .ok c) ∧
    (∀ text h, Header.decode text = .ok h → Header.decode h.encode = .ok h ∧
      (Header.decode h.encode).map Header.encode = .ok h.encode) ∧
    (∀ text c, Claims.decode text = .ok c → c.Fits ∧ Claims.decode c.encode = .ok c ∧
      (Claims.decode c.encode).map Claims.encode = .ok c.encode) ∧
    (∀ h h' : Header, h.encode = h'.encode → h = h') ∧
    (∀ c c' : Claims, c.Fits → c'.Fits → c.encode = c'.encode → c = c') ∧
    (∀ (h : Header) members, Json.SpellsRecord Header.fields h.values members →
      Header.decode (Json.encodeMembers members) = .ok h) ∧
    (∀ (c : Claims) members, Json.SpellsRecord Claims.fields c.values members →
      Claims.decode (Json.encodeMembers members) = .ok c) := by
  refine ⟨Header.decode_encode, fun c => Claims.decode_encode, ?_, ?_, ?_, ?_,
    fun h members => Header.decode_of_spells, fun c members => Claims.decode_of_spells⟩
  · intro text h _
    rw [Header.decode_encode]
    exact ⟨rfl, rfl⟩
  · intro text c hread
    have hfits := Claims.fits_of_decode hread
    rw [Claims.decode_encode hfits]
    exact ⟨hfits, rfl, rfl⟩
  · intro h h' heq
    have hread := h.decode_encode
    rw [heq, h'.decode_encode, Except.ok.injEq] at hread
    exact hread.symm
  · intro c c' hc hc' heq
    have hread := Claims.decode_encode hc
    rw [heq, Claims.decode_encode hc', Except.ok.injEq] at hread
    exact hread.symm

/-- Claims out of order, with a `null`, an escape and a member that is none of theirs. -/
def scatteredClaims : List UInt8 :=
  Text.Utf8.encode ("\x7b\"exp\": null, \"iat\": -1, \"extra\": [\x7b\x7d], " ++
    "\"aud\": [], \"sub\": \"\\u00e9\"\x7d")

/-- The claims that are read from them. -/
def gatheredClaims : Claims := ⟨"é", [], none, none, none, none, none, none, -1, none⟩

/-- Members of these claims from the last to the first, with a `null` for the expiry. -/
def backwardMembers : List (String × List UInt8) :=
  [("exp", Json.encode .null), ("iat", Json.encodeInt (-1)), ("aud", Json.encodeItems []),
    ("sub", Json.encodeString "é")]

theorem spellsRecord_backwardMembers :
    Json.SpellsRecord Claims.fields gatheredClaims.values backwardMembers := by
  have hmembers : List.Forall₂ (Json.SpellsField Claims.fields) backwardMembers
      [("exp", .absent), ("iat", .integer (-1)), ("aud", .texts []), ("sub", .text "é")] :=
    .cons ⟨rfl, _, rfl, Field.spells_null rfl⟩
      (.cons ⟨rfl, _, rfl, Field.spells_encode (.integer rfl (by decide)) rfl⟩
        (.cons ⟨rfl, _, rfl, Field.spells_encode (.texts rfl _) rfl⟩
          (.cons ⟨rfl, _, rfl, Field.spells_encode (.text rfl _) rfl⟩ .nil)))
  refine ⟨_, hmembers, by decide, ?_⟩
  simp [Json.Found, Claims.fields, Claims.values, gatheredClaims, textValue, integerValue,
    List.lookup_cons]

/-- The scattered text, the compact one and the one from the last member to the first are read
alike. -/
theorem wire_round_trip_scattered :
    Claims.decode scatteredClaims = .ok gatheredClaims ∧ gatheredClaims.Fits ∧
      Claims.decode gatheredClaims.encode = .ok gatheredClaims ∧
      gatheredClaims.encode =
        Text.Utf8.encode "\x7b\"sub\":\"é\",\"aud\":[],\"iat\":-1\x7d" ∧
      Json.SpellsRecord Claims.fields gatheredClaims.values backwardMembers ∧
      Claims.decode (Json.encodeMembers backwardMembers) = .ok gatheredClaims := by
  obtain ⟨-, -, -, hnormal, -, -, -, hmembers⟩ := wire_round_trip
  have hread : Claims.decode scatteredClaims = .ok gatheredClaims := by decide +kernel
  obtain ⟨hfits, hagain, -⟩ := hnormal scatteredClaims gatheredClaims hread
  exact ⟨hread, hfits, hagain, by decide +kernel, spellsRecord_backwardMembers,
    hmembers _ _ spellsRecord_backwardMembers⟩

end DeviceAuth.Token
