import DeviceAuth.Proofs.Json.Literal

/-!
# DeviceAuth.Proofs.Json.Member

The members of an object that is read.  The value of a name is the one that comes last in the text
(`lookup_sortMembers`); what holds of every value that a reader gives holds of the values of all
members, so that a number among them is that of a literal (`exists_literal_of_member`).
-/

namespace DeviceAuth.Json

/-! ## The last of a name -/

theorem lookup_cons_eq_ite {α : Type} (k n : String) (a : α) (ms : List (String × α)) :
    ((n, a) :: ms).lookup k = if k = n then some a else ms.lookup k := by
  rw [List.lookup_cons]
  by_cases hk : k = n
  · rw [if_pos hk, beq_iff_eq.2 hk]
  · rw [if_neg hk, beq_false_of_ne hk]

theorem lookup_insertMember (k name : String) (v : Json) (acc : List (String × Json)) :
    (insertMember name v acc).lookup k = if k = name then some v else acc.lookup k := by
  induction acc with
  | nil => exact lookup_cons_eq_ite k name v []
  | cons m acc ih =>
    obtain ⟨n, w⟩ := m
    rw [insertMember]
    split
    · exact lookup_cons_eq_ite k name v _
    · split
      · next hn =>
        rw [lookup_cons_eq_ite, lookup_cons_eq_ite, hn]
        split <;> rfl
      · next hn =>
        rw [lookup_cons_eq_ite, lookup_cons_eq_ite, ih]
        by_cases hk : k = name
        · have hne : k ≠ n := fun h => hn (hk.symm.trans h)
          rw [if_neg hne, if_pos hk, if_pos hk]
        · rw [if_neg hk, if_neg hk]

/-- The value of a name is the one that comes last. -/
theorem lookup_sortMembers (k : String) (ms : List (String × Json)) :
    (sortMembers ms).lookup k = ms.reverse.lookup k := by
  induction ms using List.reverseRecOn with
  | nil => rfl
  | append_singleton ms m ih =>
    obtain ⟨n, v⟩ := m
    rw [sortMembers, List.foldl_append, List.foldl_cons, List.foldl_nil, lookup_insertMember,
      ← sortMembers, ih, List.reverse_append, List.reverse_singleton, List.singleton_append,
      lookup_cons_eq_ite]

/-! ## What a text says of a name -/

section Texts

variable {α : Type} {item : Reader α}

theorem reads_of_lookup {members : List (String × List UInt8)} {values : List (String × α)}
    (h : List.Forall₂ (ReadsMember item) members values) {k : String} {text : List UInt8}
    (hk : members.lookup k = some text) : ∃ a, values.lookup k = some a ∧ Reads item text a := by
  induction h with
  | nil => contradiction
  | @cons m p ms ps hm _ ih =>
    obtain ⟨n, t⟩ := m
    obtain ⟨n', a⟩ := p
    obtain ⟨rfl, hread⟩ := hm
    rw [List.lookup_cons] at hk ⊢
    cases hkn : k == n with
    | true =>
      rw [hkn] at hk
      obtain rfl := Option.some.inj hk
      exact ⟨a, rfl, hread⟩
    | false =>
      rw [hkn] at hk
      exact ih hk

end Texts

/-- The value of a name is that of the last text written for it. -/
theorem reads_member {d : Nat} {members : List (String × List UInt8)}
    {values : List (String × Json)}
    (h : List.Forall₂ (ReadsMember (readValue d)) members values) {k : String} {text : List UInt8}
    (hk : members.reverse.lookup k = some text) :
    ∃ v, (Json.object (sortMembers values)).member? k = some v ∧ Reads (readValue d) text v := by
  rw [member?, lookup_sortMembers]
  exact reads_of_lookup (List.forall₂_reverse_iff.2 h) hk

/-! ## What holds of all members -/

section Readers

variable {α : Type} {item : Reader α} {P : α → Prop}

/-- What holds of the values that a reader gives holds of a member that is read with it. -/
theorem of_readMember (hitem : ∀ s a rest, item s = .ok (a, rest) → P a) {s rest : List UInt8}
    {m : String × α} (h : readMember item s = .ok (m, rest)) : P m.2 := by
  rw [readMember] at h
  split at h
  · contradiction
  · split at h
    · contradiction
    · split at h
      · contradiction
      · next v _ hv =>
        rw [Except.ok.injEq, Prod.mk.injEq] at h
        rw [← h.1]
        exact hitem _ v _ hv

theorem forall_readMembers (hitem : ∀ s a rest, item s = .ok (a, rest) → P a) {fuel : Nat}
    {s rest : List UInt8} {ms : List (String × α)}
    (h : readMembers item fuel s = .ok (ms, rest)) : ∀ m ∈ ms, P m.2 := by
  induction fuel generalizing s ms rest with
  | zero => contradiction
  | succ fuel ih =>
    rw [readMembers] at h
    split at h
    · contradiction
    · next m _ hread =>
      have hm := of_readMember hitem hread
      split at h
      · contradiction
      · split at h
        · rw [Except.ok.injEq, Prod.mk.injEq] at h
          rw [← h.1]
          exact List.forall_mem_singleton.2 hm
        · split at h
          · split at h
            · contradiction
            · split at h
              · split at h
                · next hrest =>
                  rw [Except.ok.injEq, Prod.mk.injEq] at h
                  rw [← h.1]
                  exact List.forall_mem_cons.2 ⟨hm, ih hrest⟩
                · contradiction
              · split at h <;> contradiction
          · contradiction

theorem forall_readObject (hitem : ∀ s a rest, item s = .ok (a, rest) → P a)
    {s rest : List UInt8} {ms : List (String × α)} (h : readObject item s = .ok (ms, rest)) :
    ∀ m ∈ ms, P m.2 := by
  rw [readObject] at h
  split at h
  · contradiction
  · split at h
    · rw [Except.ok.injEq, Prod.mk.injEq] at h
      rw [← h.1]
      exact List.forall_mem_nil _
    · split at h
      · exact forall_readMembers hitem h
      · contradiction

end Readers

theorem mapRead_eq_ok_iff {α β : Type} {f : α → β} {r : Except Fault (α × List UInt8)} {b : β}
    {rest : List UInt8} : mapRead f r = .ok (b, rest) ↔ ∃ a, r = .ok (a, rest) ∧ b = f a := by
  cases r with
  | error e => simp [mapRead]
  | ok p =>
    obtain ⟨a, t⟩ := p
    rw [mapRead, Except.ok.injEq, Prod.mk.injEq]
    constructor
    · rintro ⟨rfl, rfl⟩
      exact ⟨a, rfl, rfl⟩
    · rintro ⟨a', h, rfl⟩
      rw [Except.ok.injEq, Prod.mk.injEq] at h
      exact ⟨by rw [h.1], h.2⟩

theorem map_readWord_eq_ok {v w : Json} {r : Except Fault (List UInt8)} {rest : List UInt8}
    (h : r.map (v, ·) = .ok (w, rest)) : w = v := by
  obtain ⟨_, -, heq⟩ := map_eq_ok_iff.1 h
  exact (Prod.mk.inj heq).1.symm

/-- What a reader of values can give, and what it was read by. -/
theorem readWith_cases {inner : Option (Reader Json)} {s rest : List UInt8} {v : Json}
    (h : readWith inner s = .ok (v, rest)) :
    v = .null ∨ (∃ b, v = .bool b) ∨
      (∃ negative r x, readNumber negative r = .ok (x, rest) ∧ v = .number x) ∨
      (∃ r t, readString r = .ok (t, rest) ∧ v = .string t) ∨
      (∃ item r vs, inner = some item ∧ readArray item r = .ok (vs, rest) ∧ v = .array vs) ∨
      (∃ item r ms, inner = some item ∧ readObject item r = .ok (ms, rest) ∧
        v = .object (sortMembers ms)) := by
  rw [readWith] at h
  split at h
  · contradiction
  · next b r _ =>
    split at h
    · exact .inl (map_readWord_eq_ok h)
    · split at h
      · exact .inr (.inl ⟨true, map_readWord_eq_ok h⟩)
      · split at h
        · exact .inr (.inl ⟨false, map_readWord_eq_ok h⟩)
        · split at h
          · exact .inr (.inr (.inl ⟨_, _, mapRead_eq_ok_iff.1 h⟩))
          · split at h
            · exact .inr (.inr (.inl ⟨_, _, mapRead_eq_ok_iff.1 h⟩))
            · split at h
              · exact .inr (.inr (.inr (.inl ⟨_, mapRead_eq_ok_iff.1 h⟩)))
              · split at h
                · split at h
                  · next item =>
                    obtain ⟨vs, hread, hv⟩ := mapRead_eq_ok_iff.1 h
                    exact .inr (.inr (.inr (.inr (.inl ⟨item, _, vs, rfl, hread, hv⟩))))
                  · contradiction
                · split at h
                  · split at h
                    · next item =>
                      obtain ⟨ms, hread, hv⟩ := mapRead_eq_ok_iff.1 h
                      exact .inr (.inr (.inr (.inr (.inr ⟨item, _, ms, rfl, hread, hv⟩))))
                    · contradiction
                  · contradiction

/-- A number that is read is that of a literal. -/
theorem exists_literal_of_readWith {inner : Option (Reader Json)} {s rest : List UInt8}
    {x : Number} (h : readWith inner s = .ok (.number x, rest)) :
    ∃ l : Literal, l.number? = some x := by
  rcases readWith_cases h with hv | ⟨b, hv⟩ | ⟨negative, r, y, hread, hv⟩ | ⟨r, t, -, hv⟩ |
    ⟨item, r, vs, -, -, hv⟩ | ⟨item, r, ms, -, -, hv⟩
  case inr.inr.inl =>
    obtain rfl := number.inj hv
    obtain ⟨l, -, -, hnumber⟩ := exists_literal_of_readNumber hread
    exact ⟨l, hnumber⟩
  all_goals contradiction

theorem exists_readValue_of_decode {text : List UInt8} {v : Json}
    (h : decode text = .ok v) : ∃ rest, readValue maxDepth text = .ok (v, rest) := by
  rw [decode, decodeWithin, mapError_eq_ok_iff, readText] at h
  split at h
  · contradiction
  · next w rest hread =>
    split at h
    · rw [Except.ok.injEq] at h
      exact ⟨rest, by rw [hread, h]⟩
    · contradiction

/-- A number that is a member of an object that is read is that of a literal. -/
theorem exists_literal_of_member {text : List UInt8} {v : Json} {k : String} {x : Number}
    (h : decode text = .ok v) (hk : v.member? k = some (.number x)) :
    ∃ l : Literal, l.number? = some x := by
  obtain ⟨rest, h⟩ := exists_readValue_of_decode h
  rw [maxDepth, readValue] at h
  rcases readWith_cases h with rfl | ⟨b, rfl⟩ | ⟨negative, r, y, -, rfl⟩ | ⟨r, t, -, rfl⟩ |
    ⟨item, r, vs, -, -, rfl⟩ | ⟨item, r, ms, hitem, hread, rfl⟩
  case inr.inr.inr.inr.inr =>
    obtain rfl := Option.some.inj hitem
    have hliteral : ∀ s w rest, readValue 126 s = .ok (w, rest) →
        ∀ x, w = .number x → ∃ l : Literal, l.number? = some x := by
      rintro s w rest hw x rfl
      obtain ⟨inner, hinner⟩ := exists_readValue_eq 126
      rw [hinner] at hw
      exact exists_literal_of_readWith hw
    rw [member?, lookup_sortMembers, List.lookup_eq_some_iff] at hk
    obtain ⟨before, after, hms, -⟩ := hk
    have hmem : (k, Json.number x) ∈ ms := by
      rw [← List.mem_reverse, hms]
      simp
    exact forall_readObject hliteral hread _ hmem x rfl
  all_goals contradiction

end DeviceAuth.Json
