import DeviceAuth.Proofs.Dotenv.Lines
import DeviceAuth.Proofs.Settings

/-!
# DeviceAuth.Proofs.Settings.Reference

References against lookups.  A line `NAME=${OTHER}` takes the value that the entries before it give
`OTHER` last, while a lookup of `OTHER` gives its first entry; the two agree exactly when these have
the same value (`get?_reference_iff`).

* `lines_encode` — a text without white space, quotes or backslashes is one logical line;
* `parseLine_referenceLine` — the line is an assignment of one reference;
* `read_referenceLine` — what it adds to the entries of a text before it.
-/

namespace DeviceAuth.Dotenv

/-! ## One line -/

/-- A character that a scan passes over, and that trimming keeps. -/
structure Solid (c : Char) : Prop where
  not_blank : Text.isBlank c = false
  opens_nothing : Scan.opened c = .plain
  ascii : c.toNat < 128

/-- White space is none of the characters that a scan passes over. -/
theorem Solid.ne {c d : Char} (hc : Solid c) (hd : Text.isBlank d = true) : c ≠ d := by
  rintro rfl
  rw [hc.not_blank] at hd
  contradiction

theorem trimStart_cons {c : Char} (hc : Text.isBlank c = false) (r : List Char) :
    Text.trimStart (c :: r) = c :: r := by
  rw [Text.trimStart, List.dropWhile_cons_of_neg (by simp [hc])]

/-- Nothing is trimmed off solid characters. -/
theorem trim_of_solid {cs : List Char} (hcs : ∀ c ∈ cs, Solid c) :
    Text.trimStart cs = cs ∧ Text.trimEnd cs = cs := by
  have hstart : ∀ ds : List Char, (∀ c ∈ ds, Solid c) → ds.dropWhile Text.isBlank = ds := by
    intro ds hds
    cases ds with
    | nil => rfl
    | cons c r => exact trimStart_cons (hds c List.mem_cons_self).not_blank r
  refine ⟨hstart cs hcs, ?_⟩
  rw [Text.trimEnd, hstart _ fun c hc => hcs c (List.mem_reverse.1 hc), List.reverse_reverse]

section Line

variable {cs ending : List Char}

theorem scan_plain (hcs : ∀ c ∈ cs, Scan.plain.next c = some .plain) :
    scan .plain cs = .reached .plain := by
  induction cs with
  | nil => rfl
  | cons c r ih =>
    obtain ⟨hc, hr⟩ := List.forall_mem_cons.1 hcs
    rw [scan, hc]
    dsimp only
    rw [ih hr]

/-- Solid characters leave nothing open, nor does a line feed after them. -/
theorem scan_of_solid (hcs : ∀ c ∈ cs, Solid c) (hending : ending = [] ∨ ending = ['\n']) :
    scan .plain (cs ++ ending) = .reached .plain := by
  refine scan_plain fun c hc => ?_
  rcases List.mem_append.1 hc with hc | hc
  · have hsolid := hcs c hc
    rw [Scan.next, if_neg (by simp [hsolid.not_blank]), hsolid.opens_nothing]
  · rcases hending with rfl | rfl
    · contradiction
    · rw [List.mem_singleton.1 hc]
      rfl

theorem dropLineEnd_of_solid (hcs : ∀ c ∈ cs, Solid c) (hending : ending = [] ∨ ending = ['\n']) :
    dropLineEnd (cs ++ ending) = cs := by
  have hmem : ∀ {d : Char} {r : List Char}, cs.reverse = d :: r → Solid d := fun h =>
    hcs _ (List.mem_reverse.1 (h ▸ List.mem_cons_self))
  rcases hending with rfl | rfl
  · rw [List.append_nil, dropLineEnd]
    split
    · next h => exact absurd rfl ((hmem h).ne (d := '\n') rfl)
    · next h => exact absurd rfl ((hmem h).ne (d := '\n') rfl)
    · rfl
  · rw [dropLineEnd, List.reverse_append, List.reverse_singleton, List.singleton_append]
    split
    · next h => exact absurd rfl ((hmem (List.cons.inj h).2).ne (d := '\r') rfl)
    · next h => rw [← (List.cons.inj h).2, List.reverse_reverse]
    · next h => exact absurd rfl (h _)

/-- An ASCII character is its own byte. -/
theorem utf8EncodeChar_of_lt {c : Char} (hc : c.toNat < 128) :
    String.utf8EncodeChar c = [UInt8.ofNat c.toNat] := by
  have hbyte : (UInt8.ofNat c.toNat).toNat = c.toNat := by
    rw [UInt8.toNat_ofNat', Nat.mod_eq_of_lt (by omega)]
  have h := Text.Utf8.utf8EncodeChar_ofNat (b := UInt8.ofNat c.toNat) (by omega)
  rwa [hbyte, Char.ofNat_toNat] at h

/-- Solid characters are one physical line, with or without a line feed after them. -/
theorem physicalLines_encode (hne : cs ≠ []) (hcs : ∀ c ∈ cs, Solid c)
    (hending : ending = [] ∨ ending = ['\n']) :
    physicalLines (Text.Utf8.encode (.ofList (cs ++ ending))) =
      [Text.Utf8.encode (.ofList (cs ++ ending))] := by
  have hbytes : ∀ b ∈ cs.flatMap String.utf8EncodeChar, b ≠ 0x0A := by
    intro b hb
    obtain ⟨c, hc, hb⟩ := List.mem_flatMap.1 hb
    rw [utf8EncodeChar_of_lt (hcs c hc).ascii, List.mem_singleton] at hb
    rintro rfl
    have hfeed : (0x0A : UInt8).toNat = c.toNat := by
      rw [hb, UInt8.toNat_ofNat', Nat.mod_eq_of_lt (Nat.lt_trans (hcs c hc).ascii (by decide))]
    exact (hcs c hc).ne (d := '\n') rfl (Char.toNat_inj.1 hfeed.symm)
  have hsome : cs.flatMap String.utf8EncodeChar ≠ [] := by
    obtain ⟨c, r, rfl⟩ := List.exists_cons_of_ne_nil hne
    rw [List.flatMap_cons, utf8EncodeChar_of_lt (hcs c List.mem_cons_self).ascii]
    exact List.cons_ne_nil _ _
  rw [Text.Utf8.encode_ofList, List.flatMap_append]
  refine physicalLines_of_forall hsome hbytes ?_
  rcases hending with rfl | rfl
  · exact .inl rfl
  · exact .inr rfl

/-- Solid characters are one logical line, with or without a line feed after them. -/
theorem lines_encode (hne : cs ≠ []) (hcs : ∀ c ∈ cs, Solid c) (hstart : cs.head? ≠ some '#')
    (hending : ending = [] ∨ ending = ['\n']) :
    lines (Text.Utf8.encode (.ofList (cs ++ ending))) = [.complete cs] := by
  have hcomment : isComment ([] ++ (cs ++ ending)) = false := by
    obtain ⟨c, r, rfl⟩ := List.exists_cons_of_ne_nil hne
    rw [isComment, List.nil_append, List.cons_append,
      trimStart_cons (hcs c List.mem_cons_self).not_blank]
    simpa using hstart
  rw [lines, physicalLines_encode hne hcs hending, List.map_singleton, Text.Utf8.decode?_encode,
    Option.map_some, String.toList_ofList, joinLines, hcomment, if_neg Bool.false_ne_true,
    scan_of_solid hcs hending]
  dsimp only
  rw [if_pos rfl, List.nil_append, dropLineEnd_of_solid hcs hending]
  rfl

end Line

/-! ## Names -/

/-- The characters of a text can be the name of an assignment. -/
def isName : List Char → Bool
  | c :: r => startsName c && r.all inName
  | [] => false

theorem solid_of_inName {c : Char} (hc : inName c = true) : Solid c := by
  have hclass : c.isAlphanum =
      ((decide (c.val ≥ 'A'.val ∧ c.val ≤ 'Z'.val) ||
        (decide (c.val ≥ 'a'.val) && decide (c.val ≤ 'z'.val))) ||
          (decide (c.val ≥ '0'.val) && decide (c.val ≤ '9'.val))) :=
    rfl
  have hrange : 0x2E ≤ c.toNat ∧ c.toNat ≤ 0x7A := by
    simp only [inName, hclass, Bool.or_eq_true, Bool.and_eq_true, decide_eq_true_eq, beq_iff_eq,
      UInt32.le_iff_toNat_le, ge_iff_le] at hc
    rcases hc with ((((⟨h, h'⟩ | ⟨h, h'⟩) | ⟨h, h'⟩) | rfl) | rfl)
    · exact ⟨Nat.le_trans (by decide) h, Nat.le_trans h' (by decide)⟩
    · exact ⟨Nat.le_trans (by decide) h, Nat.le_trans h' (by decide)⟩
    · exact ⟨Nat.le_trans (by decide) h, Nat.le_trans h' (by decide)⟩
    · decide
    · decide
  refine ⟨?_, ?_, by omega⟩
  · simp only [Text.isBlank, Bool.or_eq_false_iff, Bool.and_eq_false_iff, decide_eq_false_iff_not,
      beq_eq_false_iff_ne]
    omega
  · have hne : ∀ d, inName d = false → c ≠ d := by
      rintro d hd rfl
      rw [hc] at hd
      contradiction
    rw [Scan.opened, if_neg (hne _ (by decide)), if_neg (hne _ (by decide)),
      if_neg (hne _ (by decide))]

theorem inName_of_startsName {c : Char} (hc : startsName c = true) : inName c = true := by
  simp only [startsName, Bool.or_eq_true] at hc
  simp only [inName, Char.isAlphanum, Bool.or_eq_true]
  exact .inl (hc.imp_left .inl)

theorem inName_of_isName {name : List Char} (h : isName name = true) :
    ∀ c ∈ name, inName c = true := by
  cases name with
  | nil => contradiction
  | cons c r =>
    rw [isName, Bool.and_eq_true, List.all_eq_true] at h
    exact List.forall_mem_cons.2 ⟨inName_of_startsName h.1, h.2⟩

/-- A name is taken up to the first character that is none of it. -/
theorem takeName_append {name : List Char} (h : isName name = true) {c : Char}
    (hc : inName c = false) (r : List Char) :
    takeName (name ++ c :: r) = .ok (name, c :: r) := by
  have hall := inName_of_isName h
  have hhead : ¬ inName c = true := by rw [hc]; decide
  cases name with
  | nil => contradiction
  | cons d name =>
    rw [isName, Bool.and_eq_true] at h
    rw [List.cons_append, takeName, if_pos h.1, ← List.cons_append,
      List.takeWhile_append_of_pos hall, List.dropWhile_append_of_pos hall,
      List.takeWhile_cons_of_neg hhead, List.dropWhile_cons_of_neg hhead, List.append_nil]

/-- An assignment is taken apart at its sign. -/
theorem takeAssignment_append {name : List Char} (h : isName name = true) {v : Char}
    (hv : Text.isBlank v = false) (r : List Char) :
    takeAssignment (name ++ '=' :: v :: r) = .ok (name, v :: r) := by
  rw [takeAssignment, takeName_append h (by decide)]
  dsimp only [bind, Except.bind]
  rw [trimStart_cons (by decide), if_neg (fun hexport => hexport.2 rfl), takeEquals]
  dsimp only
  rw [trimStart_cons hv]
  rfl

/-! ## The line of a reference -/

/-- The line that gives one name the value of another. -/
def referenceLine (x k : String) : List Char :=
  x.toList ++ '=' :: '$' :: '\x7b' :: (k.toList ++ ['\x7d'])

/-- A name between braces is read up to the one that closes it. -/
theorem templateFrom_blockName {rest : List Char} (hrest : '\x7d' ∉ rest) (n : List Char)
    (index : Nat) : templateFrom false (.blockName n) index (rest ++ ['\x7d']) =
      .ok [.reference (n ++ rest)] := by
  induction rest generalizing n index with
  | nil =>
    rw [List.nil_append, List.append_nil, templateFrom, if_pos rfl]
    rfl
  | cons c r ih =>
    rw [List.mem_cons, not_or] at hrest
    obtain ⟨hc, hr⟩ := hrest
    rw [List.cons_append, templateFrom, if_neg (Ne.symm hc), ih hr, List.append_assoc,
      List.singleton_append]

/-- A name between braces after a dollar sign is a reference. -/
theorem template_reference {name : List Char} (hname : '\x7d' ∉ name) :
    template ('$' :: '\x7b' :: (name ++ ['\x7d'])) = .ok [.reference name] := by
  have hbrace : Text.isAlphanumeric '\x7b' = false := by decide +kernel
  rw [template, templateFrom, if_pos rfl, templateFrom, hbrace, if_neg Bool.false_ne_true,
    if_pos ⟨rfl, rfl⟩, templateFrom_blockName hname]
  rfl

section Reference

variable {x k : String}

theorem solid_of_mem_referenceLine (hx : isName x.toList = true) (hk : Named k) :
    ∀ c ∈ referenceLine x k, Solid c := by
  have hsign : ∀ c, c = '=' ∨ c = '$' ∨ c = '\x7b' ∨ c = '\x7d' → Solid c := by
    rintro c (rfl | rfl | rfl | rfl) <;> exact ⟨by decide, by decide, by decide⟩
  intro c hc
  simp only [referenceLine, List.mem_append, List.mem_cons, List.not_mem_nil, or_false] at hc
  rcases hc with hc | rfl | rfl | rfl | hc | rfl
  · exact solid_of_inName (inName_of_isName hx c hc)
  · exact hsign _ (by simp)
  · exact hsign _ (by simp)
  · exact hsign _ (by simp)
  · exact solid_of_inName (hk.2 c hc)
  · exact hsign _ (by simp)

/-- What starts the line of a reference is no comment. -/
theorem referenceLine_start (hx : isName x.toList = true) :
    ∃ c r, referenceLine x k = c :: r ∧ c ≠ '#' := by
  have hall := inName_of_isName hx
  rw [referenceLine]
  cases hx' : x.toList with
  | nil => rw [hx'] at hx; contradiction
  | cons c r =>
    refine ⟨c, _, rfl, ?_⟩
    rintro rfl
    exact absurd (hall '#' (hx' ▸ List.mem_cons_self)) (by decide)

/-- The line of a reference is an assignment of that reference alone. -/
theorem parseLine_referenceLine (hx : isName x.toList = true) (hk : Named k) :
    parseLine (referenceLine x k) = .ok (some (x, [.reference k.toList])) := by
  have hclose : '\x7d' ∉ k.toList := fun hmem => absurd (hk.2 _ hmem) (by decide)
  obtain ⟨hstart, hend⟩ := trim_of_solid (solid_of_mem_referenceLine hx hk)
  obtain ⟨c, r, hcr, hc⟩ := referenceLine_start (k := k) hx
  have hfirst : ¬ (referenceLine x k = [] ∨ (referenceLine x k).head? = some '#') := by
    rw [hcr]
    simpa using hc
  have hvalue : ¬ ('$' :: '\x7b' :: (k.toList ++ ['\x7d']) = [] ∨
      ('$' :: '\x7b' :: (k.toList ++ ['\x7d'])).head? = some '#') := by
    simp
  have htake : takeAssignment (referenceLine x k) =
      .ok (x.toList, '$' :: '\x7b' :: (k.toList ++ ['\x7d'])) :=
    takeAssignment_append hx (by decide) _
  unfold parseLine
  dsimp only
  rw [hend, hstart, if_neg hfirst, htake]
  dsimp only
  rw [templateAssigned, if_neg hvalue, template_reference hclose, String.ofList_toList]
  rfl

/-- A reference adds one entry to those of the text before it: the value of the process, or else
the last entry of the name. -/
theorem read_referenceLine {text : List UInt8} (htext : Whole text) (hx : isName x.toList = true)
    (hk : Named k) {ending : List Char} (hending : ending = [] ∨ ending = ['\n'])
    (process : Environment) :
    read process (text ++ Text.Utf8.encode (.ofList (referenceLine x k ++ ending))) =
      read process text ++
        [.ok (x, .ofList (valueOf process (entries (read process text)).reverse k.toList))] := by
  obtain ⟨c, r, hcr, hc⟩ := referenceLine_start (k := k) hx
  have hlines := lines_encode (by rw [hcr]; exact List.cons_ne_nil c r)
    (solid_of_mem_referenceLine hx hk) (by rw [hcr]; simpa using hc) hending
  rw [read_append htext, hlines, readLines, readLine_eq, parseLine_referenceLine hx hk]
  simp [Except.map, readLines, entryOf, expand, Piece.expand]

end Reference

/-- A name that has an entry is one that a line can assign. -/
theorem named_of_lookup {process : Environment} {text : List UInt8} {name v : String}
    (h : (entries (read process text)).lookup name = some v) : Named name := by
  obtain ⟨before, after, hsplit, -⟩ := List.lookup_eq_some_iff.1 h
  have hmem : name ∈ (entries (read process text)).map (·.1) := by
    rw [hsplit]
    simp
  rw [read_eq_evaluate, map_fst_entries_evaluate] at hmem
  obtain ⟨a, ha, rfl⟩ := List.mem_map.1 hmem
  exact named_of_mem_parseLines ha

end DeviceAuth.Dotenv

namespace DeviceAuth.Settings

/-- A lookup in detached settings gives the first entry. -/
theorem get?_detached (s : Settings) (name : String) :
    s.detached.get? name = s.entries.lookup name := by
  have hempty : ∀ v, Environment.empty.get? name = some v → v = "" := by
    intro v hv
    contradiction
  exact get?_withEnvironment_of_empty hempty s

/-- References against lookups, where the process has no variables.  After a whole text that defines
one name and not another, the line that refers the second to the first gives it the last entry of
the first, while a lookup of the first gives its first entry.  The two lookups agree exactly when
both entries have the same value. -/
theorem get?_reference_iff {text : List UInt8} (htext : Dotenv.Whole text) {x k : String}
    (hk : (ofDotenv .empty text).value.detached.get? k ≠ none)
    (hx : Dotenv.isName x.toList = true)
    (hnew : (ofDotenv .empty text).value.detached.get? x = none)
    {ending : List Char} (hending : ending = [] ∨ ending = ['\n']) :
    ∃ first last, Dotenv.FirstEntry (Dotenv.read .empty text) k first ∧
      Dotenv.LastEntry (Dotenv.read .empty text) k last ∧
      (ofDotenv .empty text).value.detached.get? k = some first ∧
      (ofDotenv .empty (text ++ Text.Utf8.encode
        (.ofList (Dotenv.referenceLine x k ++ ending)))).value.detached.get? k = some first ∧
      (ofDotenv .empty (text ++ Text.Utf8.encode
        (.ofList (Dotenv.referenceLine x k ++ ending)))).value.detached.get? x = some last ∧
      ((ofDotenv .empty (text ++ Text.Utf8.encode
          (.ofList (Dotenv.referenceLine x k ++ ending)))).value.detached.get? x =
        (ofDotenv .empty (text ++ Text.Utf8.encode
          (.ofList (Dotenv.referenceLine x k ++ ending)))).value.detached.get? k ↔
        first = last) := by
  obtain ⟨first, hfirst⟩ := Option.ne_none_iff_exists'.1 hk
  rw [get?_detached] at hfirst hnew
  rw [ofDotenv] at hfirst hnew
  dsimp only at hfirst hnew
  -- what has a first entry has a last one
  have hsome : (Dotenv.entries (Dotenv.read .empty text)).reverse.lookup k ≠ none := by
    intro hnone
    rw [List.lookup_eq_none_iff] at hnone
    have hnone' : (Dotenv.entries (Dotenv.read .empty text)).lookup k = none :=
      List.lookup_eq_none_iff.2 fun e he => hnone e (List.mem_reverse.2 he)
    rw [hfirst] at hnone'
    contradiction
  obtain ⟨last, hlast⟩ := Option.ne_none_iff_exists'.1 hsome
  have hvalue : Dotenv.valueOf .empty (Dotenv.entries (Dotenv.read .empty text)).reverse k.toList =
      last.toList := by
    rw [Dotenv.valueOf, String.ofList_toList, hlast]
    rfl
  have hentries : (ofDotenv .empty (text ++ Text.Utf8.encode
      (.ofList (Dotenv.referenceLine x k ++ ending)))).value.entries =
        Dotenv.entries (Dotenv.read .empty text) ++ [(x, last)] := by
    rw [ofDotenv, Dotenv.read_referenceLine htext hx (Dotenv.named_of_lookup hfirst) hending,
      hvalue, String.ofList_toList, Dotenv.entries_append]
    rfl
  have hgetk : (ofDotenv .empty (text ++ Text.Utf8.encode
      (.ofList (Dotenv.referenceLine x k ++ ending)))).value.detached.get? k = some first := by
    rw [get?_detached, hentries, List.lookup_append, hfirst]
    rfl
  have hgetx : (ofDotenv .empty (text ++ Text.Utf8.encode
      (.ofList (Dotenv.referenceLine x k ++ ending)))).value.detached.get? x = some last := by
    rw [get?_detached, hentries, List.lookup_append, hnew]
    simp
  refine ⟨first, last, Dotenv.lookup_entries_eq_some_iff.1 hfirst,
    Dotenv.lookup_reverse_entries_eq_some_iff.1 hlast, ?_, hgetk, hgetx, ?_⟩
  · rw [get?_detached]
    exact hfirst
  · rw [hgetx, hgetk, Option.some.injEq, eq_comm]

/-- A name that is assigned the same value twice, with a line between that is refused. -/
def sameTwice : List UInt8 :=
  Text.Utf8.encode "K='v'\nK=$\x7b\nK=v\n"

/-- A reference to such a name agrees with a lookup of it. -/
theorem get?_reference_iff_sameTwice :
    Dotenv.Whole sameTwice ∧ (ofDotenv .empty sameTwice).value.detached.get? "K" ≠ none ∧
    Dotenv.isName "X".toList = true ∧ (ofDotenv .empty sameTwice).value.detached.get? "X" = none ∧
    (ofDotenv .empty (sameTwice ++ Text.Utf8.encode
        (.ofList (Dotenv.referenceLine "X" "K" ++ ['\n'])))).value.detached.get? "X" =
      (ofDotenv .empty (sameTwice ++ Text.Utf8.encode
        (.ofList (Dotenv.referenceLine "X" "K" ++ ['\n'])))).value.detached.get? "K" := by
  have hwhole : Dotenv.Whole sameTwice := by decide +kernel
  have hk : (ofDotenv .empty sameTwice).value.detached.get? "K" ≠ none := by decide +kernel
  have hnew : (ofDotenv .empty sameTwice).value.detached.get? "X" = none := by decide +kernel
  have hread : Dotenv.entries (Dotenv.read .empty sameTwice) = [("K", "v"), ("K", "v")] := by
    decide +kernel
  obtain ⟨first, last, hfirst, hlast, -, -, -, hagree⟩ :=
    get?_reference_iff hwhole hk (by decide) hnew (.inr rfl)
  rw [← Dotenv.lookup_entries_eq_some_iff, hread] at hfirst
  rw [← Dotenv.lookup_reverse_entries_eq_some_iff, hread] at hlast
  refine ⟨hwhole, hk, by decide, hnew, hagree.2 ?_⟩
  exact Option.some.inj (hfirst.symm.trans hlast)

/-- A name that is assigned two values. -/
def twoValues : List UInt8 :=
  Text.Utf8.encode "DUP=one\nDUP=two\n"

/-- A reference to such a name takes the second value, and a lookup of it the first. -/
theorem reference_to_duplicate :
    Dotenv.Whole twoValues ∧ (ofDotenv .empty twoValues).value.detached.get? "DUP" = some "one" ∧
    Dotenv.isName "X".toList = true ∧ (ofDotenv .empty twoValues).value.detached.get? "X" = none ∧
    (ofDotenv .empty (twoValues ++ Text.Utf8.encode
      (.ofList (Dotenv.referenceLine "X" "DUP" ++ ['\n'])))).value.detached.get? "DUP" =
        some "one" ∧
    (ofDotenv .empty (twoValues ++ Text.Utf8.encode
      (.ofList (Dotenv.referenceLine "X" "DUP" ++ ['\n'])))).value.detached.get? "X" =
        some "two" := by
  decide +kernel

end DeviceAuth.Settings
