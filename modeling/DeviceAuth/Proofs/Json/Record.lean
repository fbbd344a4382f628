import DeviceAuth.Json.Record
import DeviceAuth.Proofs.Json.Value

/-!
# DeviceAuth.Proofs.Json.Record

A record is written as the object of its members (`encodeRecord_eq_encode`), so that a reader of
JSON values gives that object back, with the members that have a value, in order of their names.
-/

namespace DeviceAuth.Json

/-! ## Item by item -/

theorem encodeAll_eq_map (vs : List Json) : encodeAll vs = vs.map encode := by
  induction vs with
  | nil => rfl
  | cons v vs ih => rw [encodeAll, ih, List.map_cons]

theorem encodeEach_eq_map (ms : List (String × Json)) :
    encodeEach ms = ms.map fun m => (m.1, encode m.2) := by
  induction ms with
  | nil => rfl
  | cons m ms ih => rw [encodeEach, ih, List.map_cons]

/-- Portable values are portable together. -/
theorem all_of_portable {d : Nat} {vs : List Json} (h : ∀ v ∈ vs, v.Portable d) :
    ExactAll vs ∧ OrderedAll vs ∧ depthAll vs ≤ d := by
  induction vs with
  | nil => exact ⟨trivial, trivial, Nat.zero_le d⟩
  | cons v vs ih =>
    obtain ⟨hv, hvs⟩ := List.forall_mem_cons.1 h
    obtain ⟨hexact, hordered, hdepth⟩ := ih hvs
    exact ⟨⟨hv.exact, hexact⟩, ⟨hv.ordered, hordered⟩, Nat.max_le.2 ⟨hv.depth_le, hdepth⟩⟩

/-- Members with portable values are portable together, in whatever order they are. -/
theorem each_of_portable {d : Nat} {ms : List (String × Json)} (h : ∀ m ∈ ms, m.2.Portable d) :
    ExactEach ms ∧ OrderedEach ms ∧ depthEach ms ≤ d := by
  induction ms with
  | nil => exact ⟨trivial, trivial, Nat.zero_le d⟩
  | cons m ms ih =>
    obtain ⟨hm, hms⟩ := List.forall_mem_cons.1 h
    obtain ⟨hexact, hordered, hdepth⟩ := ih hms
    exact ⟨⟨hm.exact, hexact⟩, ⟨hm.ordered, hordered⟩, Nat.max_le.2 ⟨hm.depth_le, hdepth⟩⟩

theorem portable_string (d : Nat) (s : String) : (Json.string s).Portable d :=
  ⟨trivial, trivial, Nat.zero_le d⟩

theorem portable_array {d : Nat} {vs : List Json} (h : ∀ v ∈ vs, v.Portable d) :
    (Json.array vs).Portable (d + 1) := by
  obtain ⟨hexact, hordered, hdepth⟩ := all_of_portable h
  exact ⟨hexact, hordered, Nat.succ_le_succ hdepth⟩

/-! ## Field values -/

/-- The JSON value of a field value that is there. -/
def FieldValue.toJson? : FieldValue → Option Json
  | .absent => none
  | .text s => some (.string s)
  | .texts ss => some (.array (ss.map .string))
  | .integer n => some (.number (.int n))

/-- An integer of a field has 64 bits. -/
def FieldValue.Fits : FieldValue → Prop
  | .integer n => -(2 ^ 63) ≤ n ∧ n < 2 ^ 63
  | .absent | .text _ | .texts _ => True

/-- A field value is written as its JSON value. -/
theorem FieldValue.encode?_eq (v : FieldValue) : v.encode? = v.toJson?.map encode := by
  cases v with
  | absent => rfl
  | text s =>
    rw [encode?, toJson?, Option.map_some, encode]
  | texts ss =>
    have hmap : ss.map encodeString = encodeAll (ss.map .string) := by
      rw [encodeAll_eq_map, List.map_map]
      rfl
    rw [encode?, toJson?, Option.map_some, encode, hmap]
  | integer n =>
    rw [encode?, toJson?, Option.map_some, encode, Number.encode]

/-- The JSON value of a field that fits is at most an array of scalars. -/
theorem FieldValue.portable_of_toJson? {v : FieldValue} {j : Json} (hv : v.Fits)
    (hj : v.toJson? = some j) : j.Portable 1 := by
  cases v with
  | absent => contradiction
  | text s =>
    rw [toJson?, Option.some.injEq] at hj
    subst hj
    exact portable_string 1 s
  | texts ss =>
    rw [toJson?, Option.some.injEq] at hj
    subst hj
    refine portable_array fun v hv => ?_
    obtain ⟨s, -, rfl⟩ := List.mem_map.1 hv
    exact portable_string 0 s
  | integer n =>
    rw [toJson?, Option.some.injEq] at hj
    subst hj
    obtain ⟨hlow, hhigh⟩ := hv
    exact ⟨⟨hlow, by omega⟩, trivial, Nat.zero_le 1⟩

/-! ## Records -/

/-- The members that a record is written with, in the order of its fields. -/
def recordMembers (fields : List Field) (values : List FieldValue) : List (String × Json) :=
  (fields.zip values).filterMap fun (f, v) => v.toJson?.map (f.name, ·)

/-- A record is written as the object of its members. -/
theorem encodeRecord_eq_encode (fields : List Field) (values : List FieldValue) :
    encodeRecord fields values = encode (.object (recordMembers fields values)) := by
  rw [encodeRecord, encode, encodeEach_eq_map, recordMembers, List.map_filterMap]
  congr 2
  funext ⟨f, v⟩
  dsimp only
  rw [FieldValue.encode?_eq, Option.map_map, Option.map_map]
  rfl

/-- The value of a member is that of a field. -/
theorem exists_of_mem_recordMembers {fields : List Field} {values : List FieldValue}
    {m : String × Json} (h : m ∈ recordMembers fields values) :
    ∃ v ∈ values, v.toJson? = some m.2 := by
  rw [recordMembers, List.mem_filterMap] at h
  obtain ⟨⟨f, v⟩, hmem, hm⟩ := h
  rw [Option.map_eq_some_iff] at hm
  obtain ⟨j, hj, rfl⟩ := hm
  exact ⟨v, (List.of_mem_zip hmem).2, hj⟩

/-- A record is read back as the object of its members in order. -/
theorem decode_encodeRecord {fields : List Field} {values : List FieldValue}
    (h : ∀ v ∈ values, v.Fits) :
    decode (encodeRecord fields values) =
      .ok (.object (sortMembers (recordMembers fields values))) := by
  have hportable : ∀ m ∈ recordMembers fields values, m.2.Portable 1 := by
    intro m hm
    obtain ⟨v, hv, hj⟩ := exists_of_mem_recordMembers hm
    exact FieldValue.portable_of_toJson? (h v hv) hj
  obtain ⟨hexact, hordered, hdepth⟩ := each_of_portable hportable
  have hexact' : (Json.object (recordMembers fields values)).Exact := hexact
  have hdepth' : (Json.object (recordMembers fields values)).depth ≤ maxDepth :=
    Nat.le_trans (Nat.succ_le_succ hdepth) (by decide)
  rw [encodeRecord_eq_encode, decode_encode hexact' hdepth', sorted, sortedEach_eq_self _ hordered]

end DeviceAuth.Json
