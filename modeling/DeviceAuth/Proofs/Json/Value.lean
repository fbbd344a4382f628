import DeviceAuth.Proofs.Json.Scalar
import Mathlib.Data.List.Forall2
import Mathlib.Data.String.Basic

/-!
# DeviceAuth.Proofs.Json.Value

The compact text of a JSON value is read back as that value, as long as its numbers are integers of
64 bits and its arrays and objects nest no deeper than a reader follows (`decode_encode`).  An
object comes back with its members in order; a value that keeps that order (`Ordered`) comes back
as it was.

The readers of items and members are taken over any reader of what is inside, so that a text that
is not written by the printer for values (a record with its members in another order) has the same
laws.
-/

namespace DeviceAuth.Json

/-! ## Order -/

mutual

/-- A value with the members of all its objects in order, one value per name. -/
def sorted : Json → Json
  | .array items => .array (sortedAll items)
  | .object members => .object (sortMembers (sortedEach members))
  | .null => .null
  | .bool b => .bool b
  | .number n => .number n
  | .string s => .string s

/-- Values with the members of all their objects in order. -/
def sortedAll : List Json → List Json
  | [] => []
  | v :: vs => sorted v :: sortedAll vs

/-- Members with the members of all objects in their values in order. -/
def sortedEach : List (String × Json) → List (String × Json)
  | [] => []
  | (n, v) :: ms => (n, sorted v) :: sortedEach ms

end

mutual

/-- The names of every object strictly increase: the form in which values are kept. -/
def Ordered : Json → Prop
  | .array items => OrderedAll items
  | .object members => (members.map (·.1)).Pairwise (· < ·) ∧ OrderedEach members
  | .null | .bool _ | .number _ | .string _ => True

/-- Every one of some values is ordered. -/
def OrderedAll : List Json → Prop
  | [] => True
  | v :: vs => Ordered v ∧ OrderedAll vs

/-- The value of every one of some members is ordered. -/
def OrderedEach : List (String × Json) → Prop
  | [] => True
  | (_, v) :: ms => Ordered v ∧ OrderedEach ms

end

/-- A member whose name is above all others goes to the end. -/
theorem insertMember_eq_append {name : String} {v : Json} {acc : List (String × Json)}
    (h : ∀ m ∈ acc, m.1 < name) : insertMember name v acc = acc ++ [(name, v)] := by
  induction acc with
  | nil => rfl
  | cons m acc ih =>
    obtain ⟨hm, hacc⟩ := List.forall_mem_cons.1 h
    rw [insertMember, if_neg (lt_asymm hm), if_neg (ne_of_gt hm), ih hacc, List.cons_append]

theorem foldl_insertMember_eq_append {acc ms : List (String × Json)}
    (h : ((acc ++ ms).map (·.1)).Pairwise (· < ·)) :
    ms.foldl (fun acc (n, v) => insertMember n v acc) acc = acc ++ ms := by
  induction ms generalizing acc with
  | nil => rw [List.foldl_nil, List.append_nil]
  | cons m ms ih =>
    obtain ⟨n, v⟩ := m
    have hn : ∀ p ∈ acc, p.1 < n := by
      intro p hp
      rw [List.map_append, List.pairwise_append] at h
      exact h.2.2 p.1 (List.mem_map_of_mem hp) n (by simp)
    rw [List.foldl_cons]
    dsimp only
    rw [insertMember_eq_append hn, ih (by simpa using h), List.append_assoc]
    rfl

/-- Members in order stay as they are. -/
theorem sortMembers_eq_self {ms : List (String × Json)}
    (h : (ms.map (·.1)).Pairwise (· < ·)) : sortMembers ms = ms := by
  rw [sortMembers, foldl_insertMember_eq_append (by simpa using h), List.nil_append]

mutual

/-- An ordered value stays as it is. -/
theorem sorted_eq_self : (v : Json) → Ordered v → sorted v = v
  | .array items, h => by rw [sorted, sortedAll_eq_self items h]
  | .object members, h => by
    rw [sorted, sortedEach_eq_self members h.2, sortMembers_eq_self h.1]
  | .null, _ | .bool _, _ | .number _, _ | .string _, _ => by rw [sorted]

theorem sortedAll_eq_self : (vs : List Json) → OrderedAll vs → sortedAll vs = vs
  | [], _ => rfl
  | v :: vs, h => by rw [sortedAll, sorted_eq_self v h.1, sortedAll_eq_self vs h.2]

theorem sortedEach_eq_self : (ms : List (String × Json)) → OrderedEach ms → sortedEach ms = ms
  | [], _ => rfl
  | (n, v) :: ms, h => by rw [sortedEach, sorted_eq_self v h.1, sortedEach_eq_self ms h.2]

end

/-! ## Depth and numbers -/

mutual

/-- How deep arrays and objects nest in a value. -/
def depth : Json → Nat
  | .array items => depthAll items + 1
  | .object members => depthEach members + 1
  | .null | .bool _ | .number _ | .string _ => 0

/-- The greatest depth among some values. -/
def depthAll : List Json → Nat
  | [] => 0
  | v :: vs => max (depth v) (depthAll vs)

/-- The greatest depth among the values of some members. -/
def depthEach : List (String × Json) → Nat
  | [] => 0
  | (_, v) :: ms => max (depth v) (depthEach ms)

end

/-- An integer that a reader keeps exact. -/
def Number.Exact : Number → Prop
  | .int n => -(2 ^ 63) ≤ n ∧ n < 2 ^ 64
  | .float _ => False

mutual

/-- All numbers in a value are integers of 64 bits, signed or not. -/
def Exact : Json → Prop
  | .number n => n.Exact
  | .array items => ExactAll items
  | .object members => ExactEach members
  | .null | .bool _ | .string _ => True

/-- All numbers in some values are integers of 64 bits. -/
def ExactAll : List Json → Prop
  | [] => True
  | v :: vs => Exact v ∧ ExactAll vs

/-- All numbers in the values of some members are integers of 64 bits. -/
def ExactEach : List (String × Json) → Prop
  | [] => True
  | (_, v) :: ms => Exact v ∧ ExactEach ms

end

/-! ## Reading in front of more -/

/-- A reader takes a value from a text that starts one, whatever may follow it. -/
structure Reads {α : Type} (read : Reader α) (text : List UInt8) (a : α) : Prop where
  start : ∃ b r, text = b :: r ∧ 0x20 < b ∧ b ≠ 0x5D
  read_append : ∀ rest, Closed rest → read (text ++ rest) = .ok (a, rest)

/-- The same of a member: its name and the text of its value. -/
def ReadsMember {α : Type} (read : Reader α) (m : String × List UInt8) (p : String × α) : Prop :=
  m.1 = p.1 ∧ Reads read m.2 p.2

theorem length_pos_of_reads {α : Type} {read : Reader α} {texts : List (List UInt8)}
    {values : List α} (h : List.Forall₂ (Reads read) texts values) :
    ∀ x ∈ texts, 0 < x.length := by
  induction h with
  | nil => simp
  | cons hx _ ih =>
    obtain ⟨b, r, rfl, -, -⟩ := hx.start
    exact List.forall_mem_cons.2 ⟨by simp, ih⟩

/-- A text with a comma after it, or what ends the list. -/
theorem commaSeparated_cons (x : List UInt8) {xs : List (List UInt8)} (hxs : xs ≠ []) :
    commaSeparated (x :: xs) = x ++ 0x2C :: commaSeparated xs := by
  cases xs with
  | nil => contradiction
  | cons y ys => rfl

/-- A list of texts that are not empty is at least as long as they are many. -/
theorem length_le_length_commaSeparated {xs : List (List UInt8)}
    (h : ∀ x ∈ xs, 0 < x.length) : xs.length ≤ (commaSeparated xs).length := by
  induction xs with
  | nil => exact Nat.le_refl 0
  | cons x xs ih =>
    obtain ⟨hx, hxs⟩ := List.forall_mem_cons.1 h
    have hlen := ih hxs
    by_cases hnil : xs = []
    · subst hnil
      exact hx
    · rw [commaSeparated_cons x hnil, List.length_append, List.length_cons, List.length_cons]
      omega

section Containers

variable {α : Type} {item : Reader α}

/-- What begins a list of texts is what begins its first text. -/
theorem commaSeparated_start {texts : List (List UInt8)} {values : List α}
    (h : List.Forall₂ (Reads item) texts values) (hne : texts ≠ []) :
    ∃ b r, commaSeparated texts = b :: r ∧ 0x20 < b ∧ b ≠ 0x5D := by
  cases h with
  | nil => contradiction
  | @cons x a xs as hx hxs =>
    obtain ⟨b, r, rfl, hb, hclose⟩ := hx.start
    by_cases hnil : xs = []
    · subst hnil
      exact ⟨b, r, rfl, hb, hclose⟩
    · rw [commaSeparated_cons _ hnil]
      exact ⟨b, _, rfl, hb, hclose⟩

/-- Items with commas between them are read, as many as the fuel allows. -/
theorem readItems_commaSeparated {texts : List (List UInt8)} {values : List α}
    (h : List.Forall₂ (Reads item) texts values) (hne : texts ≠ []) {fuel : Nat}
    (hfuel : texts.length ≤ fuel) (rest : List UInt8) :
    readItems item fuel (commaSeparated texts ++ 0x5D :: rest) = .ok (values, rest) := by
  induction h generalizing fuel with
  | nil => contradiction
  | @cons x a xs as hx hxs ih =>
    obtain ⟨fuel, rfl⟩ := Nat.exists_eq_add_one_of_ne_zero (Nat.ne_of_gt
      (Nat.lt_of_lt_of_le (Nat.succ_pos xs.length) hfuel))
    by_cases hnil : xs = []
    · subst hnil
      cases hxs
      rw [readItems, commaSeparated, hx.read_append _ (closed_bracket rest)]
      dsimp only
      rw [skipBlank_cons (by decide)]
      rfl
    · obtain ⟨b, r, hbr, hb, hclose⟩ := commaSeparated_start hxs hnil
      have hfuel' : xs.length ≤ fuel := Nat.le_of_succ_le_succ hfuel
      have hrest := ih hnil hfuel'
      rw [hbr, List.cons_append] at hrest
      rw [readItems, commaSeparated_cons x hnil, List.append_assoc, List.cons_append,
        hx.read_append _ (closed_comma _), hbr, List.cons_append]
      dsimp only
      rw [skipBlank_cons (by decide)]
      dsimp only
      rw [if_neg (by decide), if_pos rfl, skipBlank_cons hb]
      dsimp only
      rw [if_neg hclose, hrest]

/-- An array is read after its opening bracket. -/
theorem readArray_commaSeparated {texts : List (List UInt8)} {values : List α}
    (h : List.Forall₂ (Reads item) texts values) (rest : List UInt8) :
    readArray item (commaSeparated texts ++ 0x5D :: rest) = .ok (values, rest) := by
  by_cases hnil : texts = []
  · subst hnil
    cases h
    rw [readArray, commaSeparated, List.nil_append, skipBlank_cons (by decide)]
    rfl
  · obtain ⟨b, r, hbr, hb, hclose⟩ := commaSeparated_start h hnil
    have hfuel : texts.length ≤ (b :: (r ++ 0x5D :: rest)).length := by
      have hlen := length_le_length_commaSeparated (length_pos_of_reads h)
      rw [hbr, List.length_cons] at hlen
      rw [List.length_cons, List.length_append]
      omega
    have hitems := readItems_commaSeparated h hnil hfuel rest
    rw [hbr, List.cons_append] at hitems ⊢
    rw [readArray, skipBlank_cons hb]
    dsimp only
    rw [if_neg hclose, hitems]

/-- The text of a member after the opening quote of its name. -/
def memberTail (m : String × List UInt8) : List UInt8 :=
  (Text.Utf8.encode m.1).flatMap escapeByte ++ 0x22 :: 0x3A :: m.2

theorem encodeMember_eq (m : String × List UInt8) :
    encodeString m.1 ++ 0x3A :: m.2 = 0x22 :: memberTail m := by
  simp [encodeString, memberTail]

/-- A member is read after the opening quote of its name. -/
theorem readMember_memberTail {m : String × List UInt8} {p : String × α}
    (h : ReadsMember item m p) {rest : List UInt8} (hrest : Closed rest) :
    readMember item (memberTail m ++ rest) = .ok (p, rest) := by
  obtain ⟨n, text⟩ := m
  obtain ⟨n', a⟩ := p
  obtain ⟨rfl, h⟩ := h
  rw [memberTail, List.append_assoc, List.cons_append, List.cons_append, readMember,
    readString_encodeString]
  dsimp only
  rw [readColon, skipBlank_cons (by decide)]
  dsimp only
  rw [if_pos rfl]
  dsimp only
  rw [h.read_append rest hrest]

/-- Members with commas between them are read after the first quote, as many as the fuel allows. -/
theorem readMembers_commaSeparated {members : List (String × List UInt8)}
    {values : List (String × α)} (h : List.Forall₂ (ReadsMember item) members values)
    (hne : members ≠ []) (rest : List UInt8) :
    ∃ r, commaSeparated (members.map fun m => encodeString m.1 ++ 0x3A :: m.2) = 0x22 :: r ∧
      ∀ fuel, members.length ≤ fuel →
        readMembers item fuel (r ++ 0x7D :: rest) = .ok (values, rest) := by
  induction h with
  | nil => contradiction
  | @cons m p ms ps hm hms ih =>
    rw [List.map_cons, encodeMember_eq]
    by_cases hnil : ms = []
    · subst hnil
      cases hms
      refine ⟨memberTail m, rfl, ?_⟩
      intro fuel hfuel
      obtain ⟨fuel, rfl⟩ := Nat.exists_eq_add_one_of_ne_zero (Nat.ne_of_gt hfuel)
      rw [readMembers, readMember_memberTail hm (closed_brace rest)]
      dsimp only
      rw [skipBlank_cons (by decide)]
      rfl
    · obtain ⟨r, hr, hread⟩ := ih hnil
      have hmap : (ms.map fun m => encodeString m.1 ++ 0x3A :: m.2) ≠ [] := by simpa using hnil
      rw [commaSeparated_cons _ hmap, hr]
      refine ⟨memberTail m ++ 0x2C :: 0x22 :: r, rfl, ?_⟩
      intro fuel hfuel
      rw [List.length_cons] at hfuel
      obtain ⟨fuel, rfl⟩ := Nat.exists_eq_add_one_of_ne_zero (Nat.ne_of_gt
        (Nat.lt_of_lt_of_le (Nat.succ_pos ms.length) hfuel))
      rw [readMembers, List.append_assoc, List.cons_append, List.cons_append,
        readMember_memberTail hm (closed_comma _)]
      dsimp only
      rw [skipBlank_cons (by decide)]
      dsimp only
      rw [if_neg (by decide), if_pos rfl, skipBlank_cons (by decide)]
      dsimp only
      rw [if_pos rfl, hread fuel (by omega)]

/-- An object is read after its opening brace. -/
theorem readObject_commaSeparated {members : List (String × List UInt8)}
    {values : List (String × α)} (h : List.Forall₂ (ReadsMember item) members values)
    (rest : List UInt8) :
    readObject item (commaSeparated (members.map fun m => encodeString m.1 ++ 0x3A :: m.2) ++
      0x7D :: rest) = .ok (values, rest) := by
  by_cases hnil : members = []
  · subst hnil
    cases h
    rw [List.map_nil, readObject, commaSeparated, List.nil_append, skipBlank_cons (by decide)]
    rfl
  · obtain ⟨r, hr, hread⟩ := readMembers_commaSeparated h hnil rest
    have hpos : ∀ x ∈ members.map fun m => encodeString m.1 ++ 0x3A :: m.2, 0 < x.length := by
      intro x hx
      obtain ⟨m, -, rfl⟩ := List.mem_map.1 hx
      rw [encodeMember_eq]
      exact Nat.succ_pos _
    have hlen := length_le_length_commaSeparated hpos
    rw [hr, List.length_map, List.length_cons] at hlen
    rw [hr, List.cons_append, readObject, skipBlank_cons (by decide)]
    dsimp only
    rw [if_neg (by decide), if_pos rfl, hread _ (by rw [List.length_append]; omega)]

end Containers

/-! ## Values -/

/-- Every level reads scalars alike. -/
theorem exists_readValue_eq (d : Nat) : ∃ inner, readValue d = readWith inner := by
  cases d with
  | zero => exact ⟨none, rfl⟩
  | succ d => exact ⟨some (readValue d), rfl⟩

/-- An array of texts that are read is read, one level further out. -/
theorem reads_encodeItems {d : Nat} {texts : List (List UInt8)} {values : List Json}
    (h : List.Forall₂ (Reads (readValue d)) texts values) :
    Reads (readValue (d + 1)) (encodeItems texts) (.array values) where
  start := ⟨0x5B, _, rfl, by decide, by decide⟩
  read_append rest _ := by
    rw [encodeItems, List.cons_append, List.append_assoc, List.singleton_append, readValue,
      readWith, skipBlank_cons (by decide)]
    dsimp only
    rw [readArray_commaSeparated h]
    rfl

/-- An object of members that are read is read, one level further out, in order. -/
theorem reads_encodeMembers {d : Nat} {members : List (String × List UInt8)}
    {values : List (String × Json)}
    (h : List.Forall₂ (ReadsMember (readValue d)) members values) :
    Reads (readValue (d + 1)) (encodeMembers members) (.object (sortMembers values)) where
  start := ⟨0x7B, _, rfl, by decide, by decide⟩
  read_append rest _ := by
    rw [encodeMembers, List.cons_append, List.append_assoc, List.singleton_append, readValue,
      readWith, skipBlank_cons (by decide)]
    dsimp only
    rw [readObject_commaSeparated h]
    rfl

theorem reads_encodeString (d : Nat) (s : String) :
    Reads (readValue d) (encodeString s) (.string s) where
  start := ⟨0x22, _, rfl, by decide, by decide⟩
  read_append rest _ := by
    obtain ⟨inner, hinner⟩ := exists_readValue_eq d
    rw [hinner, encodeString, List.cons_append, List.append_assoc, List.singleton_append,
      readWith, skipBlank_cons (by decide)]
    dsimp only
    rw [readString_encodeString]
    rfl

/-- A byte that begins a number begins nothing else. -/
theorem readWith_digit (inner : Option (Reader Json)) {b : UInt8} (hb : isDigit b = true)
    (r : List UInt8) : readWith inner (b :: r) = mapRead .number (readNumber false (b :: r)) := by
  have hne : ∀ c, isDigit c = false → b ≠ c := by
    rintro c hc rfl
    rw [hb] at hc
    contradiction
  have hspace : 0x20 < b := by
    rw [isDigit, Bool.and_eq_true, decide_eq_true_eq] at hb
    exact UInt8.lt_of_lt_of_le (by decide) hb.1
  rw [readWith, skipBlank_cons hspace]
  dsimp only
  rw [if_neg (hne _ (by decide)), if_neg (hne _ (by decide)), if_neg (hne _ (by decide)),
    if_neg (hne _ (by decide)), if_pos hb]

theorem reads_encodeInt (d : Nat) {n : Int} (hn : (Number.int n).Exact) :
    Reads (readValue d) (encodeInt n) (.number (.int n)) := by
  obtain ⟨inner, hinner⟩ := exists_readValue_eq d
  obtain ⟨hlow, hhigh⟩ := hn
  have habs : n.natAbs < significandLimit := by
    unfold significandLimit
    omega
  obtain ⟨b, r, hbr, -⟩ := encodeNat_eq_cons n.natAbs
  have hb : isDigit b = true :=
    isDigit_of_mem_encodeNat b (by rw [hbr]; exact List.mem_cons_self)
  rw [hinner, encodeInt]
  split
  · next hneg =>
    refine ⟨⟨0x2D, _, rfl, by decide, by decide⟩, fun rest hrest => ?_⟩
    have hint : integerOf true n.natAbs = .int n := by
      rw [integerOf, if_pos rfl, Text.int64Max, if_neg (by omega)]
      congr 1
      omega
    rw [List.cons_append, readWith, skipBlank_cons (by decide)]
    dsimp only
    rw [readNumber_encodeNat true habs hrest, hint]
    rfl
  · next hpos =>
    have hint : integerOf false n.natAbs = .int n := by
      rw [integerOf, if_neg (by decide)]
      congr 1
      omega
    refine ⟨⟨b, r, hbr, ?_, ?_⟩, fun rest hrest => ?_⟩
    · rw [isDigit, Bool.and_eq_true, decide_eq_true_eq] at hb
      exact UInt8.lt_of_lt_of_le (by decide) hb.1
    · rintro rfl
      contradiction
    · have hread := readNumber_encodeNat false habs hrest
      rw [hbr, List.cons_append] at hread ⊢
      rw [readWith_digit inner hb, hread, hint]
      rfl

mutual

/-- The compact text of a value is read back as the value with its objects in order. -/
theorem reads_encode (d : Nat) : (v : Json) → v.Exact → v.depth ≤ d →
    Reads (readValue d) (encode v) v.sorted
  | .null, _, _ => by
    obtain ⟨inner, hinner⟩ := exists_readValue_eq d
    rw [hinner]
    exact ⟨⟨0x6E, _, rfl, by decide, by decide⟩, fun _ _ => rfl⟩
  | .bool true, _, _ => by
    obtain ⟨inner, hinner⟩ := exists_readValue_eq d
    rw [hinner]
    exact ⟨⟨0x74, _, rfl, by decide, by decide⟩, fun _ _ => rfl⟩
  | .bool false, _, _ => by
    obtain ⟨inner, hinner⟩ := exists_readValue_eq d
    rw [hinner]
    exact ⟨⟨0x66, _, rfl, by decide, by decide⟩, fun _ _ => rfl⟩
  | .number (.int n), h, _ => reads_encodeInt d h
  | .number (.float _), h, _ => h.elim
  | .string s, _, _ => reads_encodeString d s
  | .array items, h, hd => by
    obtain ⟨d, rfl⟩ := Nat.exists_eq_add_one_of_ne_zero (Nat.ne_of_gt
      (Nat.lt_of_lt_of_le (Nat.succ_pos _) hd))
    exact reads_encodeItems (reads_encodeAll d items h (Nat.le_of_succ_le_succ hd))
  | .object members, h, hd => by
    obtain ⟨d, rfl⟩ := Nat.exists_eq_add_one_of_ne_zero (Nat.ne_of_gt
      (Nat.lt_of_lt_of_le (Nat.succ_pos _) hd))
    exact reads_encodeMembers (reads_encodeEach d members h (Nat.le_of_succ_le_succ hd))

theorem reads_encodeAll (d : Nat) : (vs : List Json) → ExactAll vs → depthAll vs ≤ d →
    List.Forall₂ (Reads (readValue d)) (encodeAll vs) (sortedAll vs)
  | [], _, _ => .nil
  | v :: vs, h, hd =>
    .cons (reads_encode d v h.1 (Nat.le_trans (Nat.le_max_left _ _) hd))
      (reads_encodeAll d vs h.2 (Nat.le_trans (Nat.le_max_right _ _) hd))

theorem reads_encodeEach (d : Nat) : (ms : List (String × Json)) → ExactEach ms →
    depthEach ms ≤ d →
    List.Forall₂ (ReadsMember (readValue d)) (encodeEach ms) (sortedEach ms)
  | [], _, _ => .nil
  | (_, v) :: ms, h, hd =>
    .cons ⟨rfl, reads_encode d v h.1 (Nat.le_trans (Nat.le_max_left _ _) hd)⟩
      (reads_encodeEach d ms h.2 (Nat.le_trans (Nat.le_max_right _ _) hd))

end

/-! ## Texts -/

/-- A text that is read in front of more is read for itself. -/
theorem decode_of_reads {text : List UInt8} {v : Json} (h : Reads (readValue maxDepth) text v) :
    decode text = .ok v := by
  have hread := h.read_append [] closed_nil
  rw [List.append_nil] at hread
  rw [decode, decodeWithin, readText, hread]
  rfl

/-- The compact text of a value is read back as the value with its objects in order. -/
theorem decode_encode {v : Json} (hexact : v.Exact) (hdepth : v.depth ≤ maxDepth) :
    decode (encode v) = .ok v.sorted :=
  decode_of_reads (reads_encode maxDepth v hexact hdepth)

/-- A value that a reader which follows to a depth gives back: its numbers are integers of 64 bits,
its objects are in order, and it nests no deeper than that. -/
structure Portable (d : Nat) (v : Json) : Prop where
  exact : v.Exact
  ordered : v.Ordered
  depth_le : v.depth ≤ d

/-- The compact text of a portable value is read back as the value. -/
theorem decode_encode_of_portable {v : Json} (h : v.Portable maxDepth) :
    decode (encode v) = .ok v := by
  rw [decode_encode h.exact h.depth_le, sorted_eq_self v h.ordered]

end DeviceAuth.Json
