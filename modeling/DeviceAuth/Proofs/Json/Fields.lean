import DeviceAuth.Proofs.Json.Literal
import DeviceAuth.Proofs.Json.Record

/-!
# DeviceAuth.Proofs.Json.Fields

Reading records.  What is written for a field is read back as its value, and `null` is read as no
value (`Field.spells_encode`, `Field.spells_null`).  The members of a record may come in any order,
and one without a value may be left out (`decodeRecord_of_spellsRecord`), so the text that the
printer writes is read back as it was (`decodeRecord_encodeRecord`).  In the other direction, every
integer that a record is read with has 64 bits (`fits_of_decodeRecord`).
-/

namespace DeviceAuth.Json

/-! ## Fields and their values -/

/-- A value that a field can have: none if it is optional, and otherwise one of its type, integers
with 64 bits and a sign. -/
inductive Field.Holds (f : Field) : FieldValue → Prop
  | absent (h : f.optional = true) : f.Holds .absent
  | text (h : f.type = .text) (s : String) : f.Holds (.text s)
  | texts (h : f.type = .texts) (ss : List String) : f.Holds (.texts ss)
  | integer (h : f.type = .integer) {n : Int} (hn : -(2 ^ 63) ≤ n ∧ n < 2 ^ 63) :
    f.Holds (.integer n)

/-- A field is read from a text as a value, whatever may follow. -/
def Field.Spells (f : Field) (text : List UInt8) (v : FieldValue) : Prop :=
  ∀ rest, Closed rest → f.read (text ++ rest) = .ok (v, rest)

/-! ## Texts -/

theorem readTextField_encodeString (s : String) (rest : List UInt8) :
    readTextField (encodeString s ++ rest) = .ok (s, rest) := by
  rw [encodeString, List.cons_append, List.append_assoc, List.singleton_append, readTextField,
    skipBlank_cons (by decide)]
  dsimp only
  rw [if_pos rfl, readString_encodeString]
  rfl

theorem commaSeparated_encodeString_start {ss : List String} (hne : ss ≠ []) :
    ∃ r, commaSeparated (ss.map encodeString) = 0x22 :: r := by
  obtain ⟨s, ss, rfl⟩ := List.exists_cons_of_ne_nil hne
  cases ss with
  | nil => exact ⟨_, rfl⟩
  | cons s' ss => exact ⟨_, rfl⟩

/-- Strings with commas between them are read, as many as the fuel allows. -/
theorem readTextItems_commaSeparated {ss : List String} (hne : ss ≠ []) {fuel : Nat}
    (hfuel : ss.length ≤ fuel) (rest : List UInt8) :
    readTextItems fuel (commaSeparated (ss.map encodeString) ++ 0x5D :: rest) =
      .ok (ss, rest) := by
  induction ss generalizing fuel with
  | nil => contradiction
  | cons s ss ih =>
    obtain ⟨fuel, rfl⟩ := Nat.exists_eq_add_one_of_ne_zero (Nat.ne_of_gt
      (Nat.lt_of_lt_of_le (Nat.succ_pos ss.length) hfuel))
    cases ss with
    | nil =>
      rw [readTextItems, List.map_singleton, commaSeparated, readTextField_encodeString]
      dsimp only
      rw [skipBlank_cons (by decide)]
      rfl
    | cons s' ss =>
      have hrest := ih (List.cons_ne_nil s' ss) (Nat.le_of_succ_le_succ hfuel)
      obtain ⟨r, hr⟩ := commaSeparated_encodeString_start (List.cons_ne_nil s' ss)
      rw [hr, List.cons_append] at hrest
      rw [readTextItems, List.map_cons, commaSeparated_cons _ (by simp), List.append_assoc,
        List.cons_append, readTextField_encodeString, hr]
      dsimp only
      rw [skipBlank_cons (by decide)]
      dsimp only
      rw [if_neg (by decide), if_pos rfl, List.cons_append, skipBlank_cons (by decide)]
      dsimp only
      rw [if_neg (by decide), hrest]

theorem readTextsField_encodeItems (ss : List String) (rest : List UInt8) :
    readTextsField (encodeItems (ss.map encodeString) ++ rest) = .ok (ss, rest) := by
  rw [encodeItems, List.cons_append, List.append_assoc, List.singleton_append, readTextsField,
    skipBlank_cons (by decide)]
  dsimp only
  rw [if_pos rfl]
  cases ss with
  | nil =>
    rw [List.map_nil, commaSeparated, List.nil_append, skipBlank_cons (by decide)]
    rfl
  | cons s ss =>
    have hne : s :: ss ≠ [] := List.cons_ne_nil s ss
    obtain ⟨r, hr⟩ := commaSeparated_encodeString_start hne
    have hlen : ((s :: ss).map encodeString).length ≤
        (commaSeparated ((s :: ss).map encodeString)).length :=
      length_le_length_commaSeparated (by simp [encodeString])
    have hfuel : (s :: ss).length ≤ (0x22 :: (r ++ 0x5D :: rest)).length := by
      rw [hr, List.length_map] at hlen
      simp only [List.length_cons, List.length_append] at hlen ⊢
      omega
    have hitems := readTextItems_commaSeparated hne hfuel rest
    rw [hr, List.cons_append] at hitems ⊢
    rw [skipBlank_cons (by decide)]
    dsimp only
    rw [if_neg (by decide), hitems]

/-! ## Integers -/

theorem integerOfNumber_int {n : Int} (hn : n < 2 ^ 63) (rest : List UInt8) :
    integerOfNumber (.int n, rest) = .ok (n, rest) := by
  rw [integerOfNumber, Text.int64Max, if_pos (by omega)]

theorem readIntegerField_encodeInt {n : Int} (hn : -(2 ^ 63) ≤ n ∧ n < 2 ^ 63)
    {rest : List UInt8} (hrest : Closed rest) :
    readIntegerField (encodeInt n ++ rest) = .ok (n, rest) := by
  have habs : n.natAbs < significandLimit := by
    unfold significandLimit
    omega
  rw [encodeInt]
  split
  · next hneg =>
    have hint : integerOf true n.natAbs = .int n :=
      integerOf_eq_int_iff.2 ⟨by rw [if_pos rfl]; omega, fun _ => by omega⟩
    rw [List.cons_append, readIntegerField, skipBlank_cons (by decide)]
    dsimp only
    rw [if_pos rfl, readNumber_encodeNat true habs hrest, hint]
    exact integerOfNumber_int hn.2 rest
  · next hpos =>
    have hint : integerOf false n.natAbs = .int n :=
      integerOf_eq_int_iff.2 ⟨by rw [if_neg (by decide)]; omega, fun h => absurd h (by decide)⟩
    obtain ⟨b, r, hbr, -⟩ := encodeNat_eq_cons n.natAbs
    have hb : isDigit b = true :=
      isDigit_of_mem_encodeNat b (by rw [hbr]; exact List.mem_cons_self)
    have hread := readNumber_encodeNat false habs hrest
    have hminus : b ≠ 0x2D := by
      rintro rfl
      contradiction
    rw [hbr, List.cons_append] at hread ⊢
    rw [readIntegerField, skipBlank_cons (blank_lt_of_isDigit hb)]
    dsimp only
    rw [if_neg hminus, if_pos hb, hread, hint]
    exact integerOfNumber_int hn.2 rest

/-! ## Field by field -/

/-- What does not begin as `null` does is read by the type of the field. -/
theorem Field.read_of_ne {f : Field} {b : UInt8} (hblank : 0x20 < b) (hnull : b ≠ 0x6E)
    (r : List UInt8) : f.read (b :: r) = f.type.read (b :: r) := by
  rw [read, skipBlank_cons hblank]
  dsimp only
  rw [if_neg (fun h => hnull h.2)]

theorem encodeInt_start (n : Int) :
    ∃ b r, encodeInt n = b :: r ∧ 0x20 < b ∧ b ≠ 0x6E := by
  rw [encodeInt]
  split
  · exact ⟨0x2D, _, rfl, by decide, by decide⟩
  · obtain ⟨b, r, hbr, -⟩ := encodeNat_eq_cons n.natAbs
    have hb : isDigit b = true :=
      isDigit_of_mem_encodeNat b (by rw [hbr]; exact List.mem_cons_self)
    refine ⟨b, r, hbr, blank_lt_of_isDigit hb, ?_⟩
    rintro rfl
    contradiction

/-- What is written for a field is read back as its value. -/
theorem Field.spells_encode {f : Field} {v : FieldValue} {text : List UInt8} (h : f.Holds v)
    (htext : v.encode? = some text) : f.Spells text v := by
  intro rest hrest
  cases h with
  | absent => contradiction
  | text htype s =>
    obtain rfl := Option.some.inj htext
    have hread := readTextField_encodeString s rest
    rw [encodeString, List.cons_append] at hread ⊢
    rw [read_of_ne (by decide) (by decide), htype, FieldType.read]
    dsimp only
    rw [hread]
    rfl
  | texts htype ss =>
    obtain rfl := Option.some.inj htext
    have hread := readTextsField_encodeItems ss rest
    rw [encodeItems, List.cons_append] at hread ⊢
    rw [read_of_ne (by decide) (by decide), htype, FieldType.read]
    dsimp only
    rw [hread]
    rfl
  | @integer htype n hn =>
    obtain rfl := Option.some.inj htext
    have hread := readIntegerField_encodeInt hn hrest
    obtain ⟨b, r, hbr, hblank, hnull⟩ := encodeInt_start n
    rw [hbr, List.cons_append] at hread ⊢
    rw [read_of_ne hblank hnull, htype, FieldType.read]
    dsimp only
    rw [hread]
    rfl

/-- An optional field is read from `null` as no value. -/
theorem Field.spells_null {f : Field} (h : f.optional = true) :
    f.Spells (encode .null) .absent := by
  intro rest _
  have htext : encode .null ++ rest = 0x6E :: 0x75 :: 0x6C :: 0x6C :: rest := rfl
  rw [htext, read, skipBlank_cons (by decide)]
  dsimp only
  rw [if_pos ⟨h, rfl⟩]
  rfl

/-! ## Members in any order -/

/-- A member is read as the value of a field of its name. -/
def SpellsField (fields : List Field) (m : String × List UInt8) (p : String × FieldValue) : Prop :=
  m.1 = p.1 ∧ ∃ f, fields.find? (·.name == p.1) = some f ∧ f.Spells m.2 p.2

section Members

variable {fields : List Field}

/-- A member is added to what was found before, unless its field was. -/
theorem readFieldMember_memberTail {m : String × List UInt8} {p : String × FieldValue}
    {found : List (String × FieldValue)} (h : SpellsField fields m p)
    (hnew : p.1 ∉ found.map (·.1)) {rest : List UInt8} (hrest : Closed rest) :
    readFieldMember fields found (memberTail m ++ rest) = .ok (found ++ [p], rest) := by
  obtain ⟨n, text⟩ := m
  obtain ⟨n', v⟩ := p
  obtain ⟨rfl, f, hf, hread⟩ := h
  have hlookup : found.lookup n = none := by
    rw [List.lookup_eq_none_iff]
    intro q hq
    rw [bne_iff_ne]
    exact fun hn => hnew (List.mem_map.2 ⟨q, hq, hn.symm⟩)
  rw [memberTail, List.append_assoc, List.cons_append, List.cons_append, readFieldMember,
    readString_encodeString]
  dsimp only [placeless, Except.mapError]
  rw [hf, hlookup, readColon, skipBlank_cons (by decide)]
  dsimp only
  rw [if_neg (by decide), if_pos rfl]
  dsimp only
  rw [hread rest hrest]
  rfl

/-- Members with commas between them are all found after the first quote, as many as the fuel
allows. -/
theorem readFieldMembers_commaSeparated {members : List (String × List UInt8)}
    {found found' : List (String × FieldValue)}
    (h : List.Forall₂ (SpellsField fields) members found') (hne : members ≠ [])
    (hnodup : ((found ++ found').map (·.1)).Nodup) (rest : List UInt8) :
    ∃ r, commaSeparated (members.map fun m => encodeString m.1 ++ 0x3A :: m.2) = 0x22 :: r ∧
      ∀ fuel, members.length ≤ fuel →
        readFieldMembers fields fuel found (r ++ 0x7D :: rest) = .ok (found ++ found', rest) := by
  induction h generalizing found with
  | nil => contradiction
  | @cons m p ms ps hm hms ih =>
    have hnew : p.1 ∉ found.map (·.1) := by
      rw [List.map_append, List.nodup_append] at hnodup
      exact fun hmem => hnodup.2.2 _ hmem _ (by simp) rfl
    rw [List.map_cons, encodeMember_eq]
    by_cases hnil : ms = []
    · subst hnil
      cases hms
      refine ⟨memberTail m, rfl, ?_⟩
      intro fuel hfuel
      obtain ⟨fuel, rfl⟩ := Nat.exists_eq_add_one_of_ne_zero (Nat.ne_of_gt hfuel)
      rw [readFieldMembers, readFieldMember_memberTail hm hnew (closed_brace rest)]
      dsimp only
      rw [skipBlank_cons (by decide)]
      rfl
    · have hnodup' : ((found ++ [p] ++ ps).map (·.1)).Nodup := by
        rwa [List.append_assoc, List.singleton_append]
      obtain ⟨r, hr, hread⟩ := ih hnil hnodup'
      have hmap : (ms.map fun m => encodeString m.1 ++ 0x3A :: m.2) ≠ [] := by simpa using hnil
      rw [commaSeparated_cons _ hmap, hr]
      refine ⟨memberTail m ++ 0x2C :: 0x22 :: r, rfl, ?_⟩
      intro fuel hfuel
      rw [List.length_cons] at hfuel
      obtain ⟨fuel, rfl⟩ := Nat.exists_eq_add_one_of_ne_zero (Nat.ne_of_gt
        (Nat.lt_of_lt_of_le (Nat.succ_pos ms.length) hfuel))
      rw [readFieldMembers, List.append_assoc, List.cons_append, List.cons_append,
        readFieldMember_memberTail hm hnew (closed_comma _)]
      dsimp only
      rw [skipBlank_cons (by decide)]
      dsimp only
      rw [if_neg (by decide), if_pos rfl, skipBlank_cons (by decide)]
      dsimp only
      rw [if_pos rfl, hread fuel (by omega), List.append_assoc, List.singleton_append]

/-- A field has the value that was found for it; nothing need be found for one without a value. -/
def Found (found : List (String × FieldValue)) (f : Field) (v : FieldValue) : Prop :=
  found.lookup f.name = some v ∨
    (found.lookup f.name = none ∧ f.optional = true ∧ v = .absent)

theorem collect_of_found {found : List (String × FieldValue)} {values : List FieldValue}
    (h : List.Forall₂ (Found found) fields values) : collect found fields = .ok values := by
  induction h with
  | nil => rfl
  | cons hf _ ih =>
    rcases hf with hv | ⟨hnone, hoptional, rfl⟩
    · rw [collect, hv, ih]
      rfl
    · rw [collect, hnone, ih]
      dsimp only
      rw [if_pos hoptional]
      rfl

/-- Members spell the values of a record: each is that of a field, no two are of one name, and a
field without a member has no value.  Nothing is said of their order. -/
def SpellsRecord (fields : List Field) (values : List FieldValue)
    (members : List (String × List UInt8)) : Prop :=
  ∃ found, List.Forall₂ (SpellsField fields) members found ∧ (found.map (·.1)).Nodup ∧
    List.Forall₂ (Found found) fields values

/-- A record is read from members that spell it, whatever their order. -/
theorem decodeRecord_of_spellsRecord {record : String} {values : List FieldValue}
    {members : List (String × List UInt8)} (h : SpellsRecord fields values members) :
    decodeRecord record fields (encodeMembers members) = .ok values := by
  obtain ⟨found, hmembers, hnodup, hvalues⟩ := h
  have hcollect := collect_of_found hvalues
  rw [decodeRecord, readRecord]
  by_cases hnil : members = []
  · subst hnil
    cases hmembers
    have htext : encodeMembers [] = [0x7B, 0x7D] := rfl
    rw [htext, skipBlank_cons (by decide)]
    dsimp only
    rw [if_neg (by decide), if_pos rfl, skipBlank_cons (by decide)]
    dsimp only
    rw [if_pos rfl, hcollect]
    rfl
  · have hnodup' : (([] ++ found).map Prod.fst).Nodup := hnodup
    obtain ⟨r, hr, hread⟩ := readFieldMembers_commaSeparated hmembers hnil hnodup' []
    have hpos : ∀ x ∈ members.map fun m => encodeString m.1 ++ 0x3A :: m.2, 0 < x.length := by
      intro x hx
      obtain ⟨m, -, rfl⟩ := List.mem_map.1 hx
      rw [encodeMember_eq]
      exact Nat.succ_pos _
    have hlen := length_le_length_commaSeparated hpos
    rw [hr, List.length_map, List.length_cons] at hlen
    have htext : encodeMembers members = 0x7B :: 0x22 :: (r ++ [0x7D]) :=
      congrArg (fun t => 0x7B :: (t ++ [0x7D])) hr
    rw [htext, skipBlank_cons (by decide)]
    dsimp only
    rw [if_neg (by decide), if_pos rfl, skipBlank_cons (by decide)]
    dsimp only
    rw [if_neg (by decide), if_pos rfl, hread _ (by rw [List.length_append]; omega),
      List.nil_append]
    dsimp only
    rw [hcollect]
    rfl

end Members

/-! ## Written records -/

/-- The members that a record is written with. -/
def writtenMembers (fields : List Field) (values : List FieldValue) :
    List (String × List UInt8) :=
  (fields.zip values).filterMap fun (f, v) => v.encode?.map (f.name, ·)

/-- The values of those members. -/
def writtenValues (fields : List Field) (values : List FieldValue) : List (String × FieldValue) :=
  (fields.zip values).filterMap fun (f, v) => v.encode?.map fun _ => (f.name, v)

theorem writtenMembers_cons (f : Field) (v : FieldValue) (fs : List Field) (vs : List FieldValue) :
    writtenMembers (f :: fs) (v :: vs) =
      match v.encode? with
      | some text => (f.name, text) :: writtenMembers fs vs
      | none => writtenMembers fs vs := by
  rw [writtenMembers, List.zip_cons_cons, List.filterMap_cons]
  dsimp only
  cases v.encode? <;> rfl

theorem writtenValues_cons (f : Field) (v : FieldValue) (fs : List Field) (vs : List FieldValue) :
    writtenValues (f :: fs) (v :: vs) =
      match v.encode? with
      | some _ => (f.name, v) :: writtenValues fs vs
      | none => writtenValues fs vs := by
  rw [writtenValues, List.zip_cons_cons, List.filterMap_cons]
  dsimp only
  cases v.encode? <;> rfl

/-- Of fields with different names each is found by its own. -/
theorem find?_name {fields : List Field} (hfields : (fields.map (·.name)).Nodup) {f : Field}
    (hf : f ∈ fields) : fields.find? (·.name == f.name) = some f := by
  induction fields with
  | nil => contradiction
  | cons g fields ih =>
    rw [List.map_cons, List.nodup_cons] at hfields
    rw [List.find?_cons]
    rcases List.mem_cons.1 hf with rfl | hmem
    · rw [beq_self_eq_true]
    · have hne : g.name ≠ f.name := fun h => hfields.1 (h ▸ List.mem_map_of_mem hmem)
      rw [beq_false_of_ne hne]
      exact ih hfields.2 hmem

/-- Every member that is written is read as the value of its field. -/
theorem spellsField_written {all fields : List Field} {values : List FieldValue}
    (hall : ∀ f ∈ fields, all.find? (·.name == f.name) = some f)
    (h : List.Forall₂ Field.Holds fields values) :
    List.Forall₂ (SpellsField all) (writtenMembers fields values)
      (writtenValues fields values) := by
  induction h with
  | nil => exact .nil
  | @cons f v fs vs hv _ ih =>
    obtain ⟨hf, hfs⟩ := List.forall_mem_cons.1 hall
    rw [writtenMembers_cons, writtenValues_cons]
    cases htext : v.encode? with
    | none => exact ih hfs
    | some text => exact .cons ⟨rfl, f, hf, Field.spells_encode hv htext⟩ (ih hfs)

theorem writtenValues_sublist {fields : List Field} {values : List FieldValue}
    (h : List.Forall₂ Field.Holds fields values) :
    ((writtenValues fields values).map (·.1)).Sublist (fields.map (·.name)) := by
  induction h with
  | nil => exact .slnil
  | @cons f v fs vs _ _ ih =>
    rw [writtenValues_cons]
    cases v.encode? with
    | none => exact ih.cons _
    | some text => exact ih.cons_cons _

/-- What is found for some fields is found behind a member of another name. -/
theorem forall₂_found_cons {found : List (String × FieldValue)} {fields : List Field}
    {values : List FieldValue} (h : List.Forall₂ (Found found) fields values) {n : String}
    (hn : n ∉ fields.map (·.name)) (w : FieldValue) :
    List.Forall₂ (Found ((n, w) :: found)) fields values := by
  induction h with
  | nil => exact .nil
  | @cons f v fs vs hv _ ih =>
    rw [List.map_cons, List.mem_cons, not_or] at hn
    have hlookup : ((n, w) :: found).lookup f.name = found.lookup f.name := by
      rw [List.lookup_cons, beq_false_of_ne (Ne.symm hn.1)]
    refine .cons ?_ (ih hn.2)
    rw [Found, hlookup]
    exact hv

/-- Each field is found with its value among those that are written. -/
theorem found_writtenValues {fields : List Field} {values : List FieldValue}
    (hfields : (fields.map (·.name)).Nodup) (h : List.Forall₂ Field.Holds fields values) :
    List.Forall₂ (Found (writtenValues fields values)) fields values := by
  induction h with
  | nil => exact .nil
  | @cons f v fs vs hv hvs ih =>
    rw [List.map_cons, List.nodup_cons] at hfields
    obtain ⟨hf, hfs⟩ := hfields
    rw [writtenValues_cons]
    cases htext : v.encode? with
    | none =>
      -- a field without a text is optional, and none of the others has its name
      have hnone : (writtenValues fs vs).lookup f.name = none := by
        rw [List.lookup_eq_none_iff]
        intro q hq
        rw [bne_iff_ne]
        rintro hn
        exact hf ((writtenValues_sublist hvs).subset (List.mem_map.2 ⟨q, hq, hn.symm⟩))
      cases hv with
      | absent hoptional => exact .cons (.inr ⟨hnone, hoptional, rfl⟩) (ih hfs)
      | text | texts | integer => contradiction
    | some text =>
      have hself : ((f.name, v) :: writtenValues fs vs).lookup f.name = some v := by
        rw [List.lookup_cons, beq_self_eq_true]
      exact .cons (.inl hself) (forall₂_found_cons (ih hfs) hf v)

/-- A record is read back as it was written. -/
theorem decodeRecord_encodeRecord {record : String} {fields : List Field}
    {values : List FieldValue} (hfields : (fields.map (·.name)).Nodup)
    (h : List.Forall₂ Field.Holds fields values) :
    decodeRecord record fields (encodeRecord fields values) = .ok values :=
  decodeRecord_of_spellsRecord ⟨writtenValues fields values,
    spellsField_written (fun _ hf => find?_name hfields hf) h,
    (writtenValues_sublist h).nodup hfields, found_writtenValues hfields h⟩

/-! ## Integers of records -/

theorem placeless_eq_ok_iff {α : Type} {r : Except Fault α} {a : α} :
    placeless r = .ok a ↔ r = .ok a :=
  mapError_eq_ok_iff

/-- A value of the wrong type gives no result. -/
theorem wrongType_ne_ok {α : Type} (expected : String) (s : List UInt8) (a : α) :
    wrongType expected s ≠ .ok a := by
  intro h
  unfold wrongType at h
  dsimp only at h
  -- every branch ends in a fault, that of a scalar or one of the type
  repeat' split at h
  all_goals contradiction

/-- The integer of a number that is read has 64 bits. -/
theorem bounds_of_integerOfNumber {negative : Bool} {s rest : List UInt8} {n : Int}
    (h : (placeless (readNumber negative s)).bind integerOfNumber = .ok (n, rest)) :
    -(2 ^ 63) ≤ n ∧ n < 2 ^ 63 := by
  cases hread : readNumber negative s with
  | error e =>
    rw [hread] at h
    contradiction
  | ok p =>
    obtain ⟨x, r⟩ := p
    rw [hread] at h
    cases x with
    | float d => contradiction
    | int m =>
      obtain ⟨l, -, -, hnumber⟩ := exists_literal_of_readNumber hread
      have hlow := (Literal.bounds_of_number? hnumber).1
      have h' : integerOfNumber (.int m, r) = .ok (n, rest) := h
      rw [integerOfNumber, Text.int64Max] at h'
      split at h'
      · rw [Except.ok.injEq, Prod.mk.injEq] at h'
        rw [← h'.1]
        exact ⟨hlow, by omega⟩
      · contradiction

theorem bounds_of_readIntegerField {s rest : List UInt8} {n : Int}
    (h : readIntegerField s = .ok (n, rest)) : -(2 ^ 63) ≤ n ∧ n < 2 ^ 63 := by
  rw [readIntegerField] at h
  split at h
  · contradiction
  · split at h
    · exact bounds_of_integerOfNumber h
    · split at h
      · exact bounds_of_integerOfNumber h
      · exact absurd h (wrongType_ne_ok _ _ _)

/-- A value that is read for a field fits it. -/
theorem fits_of_read {f : Field} {s rest : List UInt8} {v : FieldValue}
    (h : f.read s = .ok (v, rest)) : v.Fits := by
  have htype : ∀ t, f.type.read t = .ok (v, rest) → v.Fits := by
    intro t ht
    cases htype : f.type with
    | text =>
      rw [htype] at ht
      obtain ⟨a, -, hv⟩ := map_eq_ok_iff.1 ht
      rw [← (Prod.mk.inj hv).1]
      trivial
    | texts =>
      rw [htype] at ht
      obtain ⟨a, -, hv⟩ := map_eq_ok_iff.1 ht
      rw [← (Prod.mk.inj hv).1]
      trivial
    | integer =>
      rw [htype] at ht
      obtain ⟨⟨n, t'⟩, hn, hv⟩ := map_eq_ok_iff.1 ht
      rw [← (Prod.mk.inj hv).1]
      exact bounds_of_readIntegerField hn
  rw [Field.read] at h
  split at h
  · split at h
    · -- an optional `null`
      obtain ⟨u, -, hv⟩ := map_eq_ok_iff.1 (placeless_eq_ok_iff.1 h)
      rw [← (Prod.mk.inj hv).1]
      trivial
    · exact htype _ h
  · exact htype _ h

theorem fits_of_readFieldItems {record : String} {total k : Nat} {fields : List Field}
    {s rest : List UInt8} {values : List FieldValue}
    (h : readFieldItems record total k fields s = .ok (values, rest)) :
    ∀ v ∈ values, v.Fits := by
  induction fields generalizing k s values rest with
  | nil =>
    rw [readFieldItems, Except.ok.injEq, Prod.mk.injEq] at h
    rw [← h.1]
    exact List.forall_mem_nil _
  | cons f fs ih =>
    rw [readFieldItems] at h
    split at h
    · contradiction
    · contradiction
    · split at h
      · contradiction
      · next v _ hread =>
        split at h
        · next hrest =>
          rw [Except.ok.injEq, Prod.mk.injEq] at h
          rw [← h.1]
          exact List.forall_mem_cons.2 ⟨fits_of_read hread, ih hrest⟩
        · contradiction

section Found

variable {fields : List Field} {found found' : List (String × FieldValue)}

/-- What is found with a member fits, if what was found before does. -/
theorem fits_of_readFieldMember {s rest : List UInt8} (hfound : ∀ p ∈ found, p.2.Fits)
    (h : readFieldMember fields found s = .ok (found', rest)) : ∀ p ∈ found', p.2.Fits := by
  rw [readFieldMember] at h
  split at h
  · contradiction
  · split at h
    · split at h
      · contradiction
      · split at h
        · contradiction
        · obtain ⟨⟨v, t⟩, hread, hp⟩ := map_eq_ok_iff.1 h
          rw [← (Prod.mk.inj hp).1]
          intro p hmem
          rcases List.mem_append.1 hmem with hold | hnew
          · exact hfound p hold
          · rw [List.mem_singleton.1 hnew]
            exact fits_of_read hread
    · split at h
      · contradiction
      · obtain ⟨t, -, hp⟩ := map_eq_ok_iff.1 h
        rw [← (Prod.mk.inj hp).1]
        exact hfound

theorem fits_of_readFieldMembers {fuel : Nat} {s rest : List UInt8}
    (hfound : ∀ p ∈ found, p.2.Fits)
    (h : readFieldMembers fields fuel found s = .ok (found', rest)) : ∀ p ∈ found', p.2.Fits := by
  induction fuel generalizing found s with
  | zero => contradiction
  | succ fuel ih =>
    rw [readFieldMembers] at h
    split at h
    · contradiction
    · next hread =>
      have hfits := fits_of_readFieldMember hfound hread
      split at h
      · contradiction
      · split at h
        · rw [Except.ok.injEq, Prod.mk.injEq] at h
          rw [← h.1]
          exact hfits
        · split at h
          · split at h
            · contradiction
            · split at h
              · exact ih hfits h
              · split at h <;> contradiction
          · contradiction

theorem fits_of_collect {values : List FieldValue} (hfound : ∀ p ∈ found, p.2.Fits)
    (h : collect found fields = .ok values) : ∀ v ∈ values, v.Fits := by
  induction fields generalizing values with
  | nil =>
    rw [collect, Except.ok.injEq] at h
    rw [← h]
    exact List.forall_mem_nil _
  | cons f fs ih =>
    rw [collect] at h
    split at h
    · next v hlookup =>
      obtain ⟨vs, hvs, rfl⟩ := map_eq_ok_iff.1 h
      obtain ⟨before, after, heq, -⟩ := List.lookup_eq_some_iff.1 hlookup
      have hmem : (f.name, v) ∈ found := by
        rw [heq]
        simp
      exact List.forall_mem_cons.2 ⟨hfound _ hmem, ih hvs⟩
    · split at h
      · obtain ⟨vs, hvs, rfl⟩ := map_eq_ok_iff.1 h
        exact List.forall_mem_cons.2 ⟨trivial, ih hvs⟩
      · contradiction

end Found

theorem fits_of_readRecord {record : String} {fields : List Field} {s rest : List UInt8}
    {values : List FieldValue} (h : readRecord record fields s = .ok (values, rest)) :
    ∀ v ∈ values, v.Fits := by
  rw [readRecord] at h
  split at h
  · contradiction
  · split at h
    · split at h
      · contradiction
      · next hread =>
        obtain ⟨t, -, hp⟩ := map_eq_ok_iff.1 h
        rw [← (Prod.mk.inj hp).1]
        exact fits_of_readFieldItems hread
    · split at h
      · split at h
        · contradiction
        · split at h
          · obtain ⟨vs, hvs, hp⟩ := map_eq_ok_iff.1 h
            rw [← (Prod.mk.inj hp).1]
            exact fits_of_collect (List.forall_mem_nil _) hvs
          · split at h
            · split at h
              · contradiction
              · next hread =>
                obtain ⟨vs, hvs, hp⟩ := map_eq_ok_iff.1 h
                rw [← (Prod.mk.inj hp).1]
                exact fits_of_collect (fits_of_readFieldMembers (List.forall_mem_nil _) hread) hvs
            · contradiction
      · exact absurd h (wrongType_ne_ok _ _ _)

/-- The integers of a record that is read have 64 bits, whatever its text. -/
theorem fits_of_decodeRecord {record : String} {fields : List Field} {text : List UInt8}
    {values : List FieldValue} (h : decodeRecord record fields text = .ok values) :
    ∀ v ∈ values, v.Fits := by
  rw [decodeRecord] at h
  split at h
  · contradiction
  · next hread =>
    split at h
    · rw [Except.ok.injEq] at h
      rw [← h]
      exact fits_of_readRecord hread
    · contradiction

end DeviceAuth.Json
