import DeviceAuth.Proofs.Key.Load
import Mathlib.Data.List.Basic
import Mathlib.Data.List.GetD
import Mathlib.Logic.Relation

/-!
# DeviceAuth.Proofs.Pem.Armour

What the body of a PEM text is, said without the scan that finds it: a line belongs to the body when
it is no boundary itself and, looking back from it, the nearest boundary opens.  The scan carries
one truth value along, whether the body is open, and after some lines it is open exactly when these
end open (`openAfter_iff`); so what the scan of a further line adds is what looking back from that
line decides (`bodyOf_eq_flatMap`).

From the scan in two parts (`bodyOf_append`) it follows what may be changed around a body without
changing it (`Edit`): line ends, white space at the ends of lines, lines where the body is closed,
and the wording of boundaries.
-/

namespace DeviceAuth.Pem

/-! ## Lines -/

/-- Some lines are a text cut at each carriage return and each line feed. -/
inductive Cut : List Char → List (List Char) → Prop
  | last {l : List Char} (hl : ∀ c ∈ l, isLineEnd c = false) : Cut l [l]
  | cons {l : List Char} {d : Char} {r : List Char} {ls : List (List Char)}
    (hl : ∀ c ∈ l, isLineEnd c = false) (hd : d = '\r' ∨ d = '\n') (hrest : Cut r ls) :
    Cut (l ++ d :: r) (l :: ls)

theorem isLineEnd_iff {d : Char} : isLineEnd d = true ↔ d = '\r' ∨ d = '\n' := by
  rw [isLineEnd, Bool.or_eq_true, beq_iff_eq, beq_iff_eq]

/-- A text is cut into its lines, and into no others. -/
theorem cut_iff {cs : List Char} {ls : List (List Char)} : Cut cs ls ↔ ls = lines cs := by
  constructor
  · intro h
    induction h with
    | last hl => exact (Text.splitWhere_of_forall hl).symm
    | cons hl hd hrest ih =>
      rw [lines, Text.splitWhere_append_cons hl (isLineEnd_iff.2 hd), ih, lines]
  · intro h
    induction ls generalizing cs with
    | nil => exact absurd h.symm (Text.splitWhere_ne_nil isLineEnd cs)
    | cons l ls ih =>
      obtain ⟨hl, hrest⟩ := Text.of_splitWhere_eq_cons h.symm
      rcases hrest with ⟨rfl, rfl⟩ | ⟨d, r, hd, rfl, hr⟩
      · exact .last hl
      · exact .cons hl (isLineEnd_iff.1 hd) (ih hr.symm)

theorem lines_append {d : Char} (hd : isLineEnd d = true) (a b : List Char) :
    lines (a ++ d :: b) = lines a ++ lines b :=
  Text.splitWhere_append hd a b

/-! ## Looking back -/

/-- A line that opens the body. -/
def Opens (line : List Char) : Prop :=
  ['B', 'E', 'G', 'I', 'N'] <:+: line

theorem lineKind_eq_opening_iff {line : List Char} : lineKind line = .opening ↔ Opens line := by
  unfold lineKind Opens
  rw [← holds_iff]
  split
  · simp [*]
  · split
    · simp [*]
    · simp [*]

instance (line : List Char) : Decidable (Opens line) :=
  decidable_of_iff _ lineKind_eq_opening_iff

/-- The nearest boundary, looking back from the end of some lines, exists and opens the body. -/
def EndsOpen (ls : List (List Char)) : Prop :=
  ∃ before l after, ls = before ++ l :: after ∧ Opens l ∧ ∀ m ∈ after, ¬ Marked m

theorem not_endsOpen_nil : ¬ EndsOpen [] := by
  rintro ⟨before, l, after, h, -⟩
  simp at h

/-- One more line opens, or leaves open what was. -/
theorem endsOpen_append_singleton_iff {ls : List (List Char)} {l : List Char} :
    EndsOpen (ls ++ [l]) ↔ Opens l ∨ (¬ Marked l ∧ EndsOpen ls) := by
  constructor
  · rintro ⟨before, m, after, h, hm, hafter⟩
    rcases List.eq_nil_or_concat after with rfl | ⟨after, n, rfl⟩
    · obtain ⟨-, rfl⟩ := List.append_inj' h rfl |>.imp_right List.singleton_inj.1
      exact .inl hm
    · rw [List.concat_eq_append, ← List.cons_append, ← List.append_assoc] at h
      obtain ⟨hls, hn⟩ := List.append_inj' h rfl
      rw [List.concat_eq_append] at hafter
      rw [List.singleton_inj.1 hn]
      exact .inr ⟨hafter n (by simp), before, m, after, hls, hm,
        fun k hk => hafter k (List.mem_append_left _ hk)⟩
  · rintro (hl | ⟨hl, before, m, after, rfl, hm, hafter⟩)
    · exact ⟨ls, l, [], rfl, hl, by simp⟩
    · refine ⟨before, m, after ++ [l], by simp, hm, fun k hk => ?_⟩
      rcases List.mem_append.1 hk with hk | hk
      · exact hafter k hk
      · rwa [List.mem_singleton.1 hk]

/-- Before the first line that opens the body, it is closed. -/
theorem not_endsOpen_of_not_opens {ls : List (List Char)} (h : ∀ l ∈ ls, ¬ Opens l) :
    ¬ EndsOpen ls := by
  rintro ⟨before, l, after, rfl, hl, -⟩
  exact h l (by simp) hl

/-- Right after a line that closes the body, it is closed. -/
theorem not_endsOpen_append_closing {l : List Char} (hmarked : Marked l) (hopens : ¬ Opens l)
    (ls : List (List Char)) : ¬ EndsOpen (ls ++ [l]) := by
  rw [endsOpen_append_singleton_iff]
  rintro (hl | ⟨hl, -⟩)
  · exact hopens hl
  · exact hl hmarked

/-! ## The scan -/

/-- Whether the body is open after one more line. -/
def openNext (isOpen : Bool) (line : List Char) : Bool :=
  match lineKind line with
  | .opening => true
  | .closing => false
  | .text => isOpen

/-- Whether the body is open after some lines. -/
def openAfter (isOpen : Bool) (ls : List (List Char)) : Bool :=
  ls.foldl openNext isOpen

/-- The scan of lines in two parts takes along whether the body is open. -/
theorem bodyOf_append (isOpen : Bool) (ls rest : List (List Char)) :
    bodyOf isOpen (ls ++ rest) = bodyOf isOpen ls ++ bodyOf (openAfter isOpen ls) rest := by
  induction ls generalizing isOpen with
  | nil => rfl
  | cons l ls ih =>
    rw [List.cons_append, bodyOf, bodyOf, openAfter, List.foldl_cons, openNext]
    cases lineKind l with
    | opening => exact ih true
    | closing => exact ih false
    | text =>
      cases isOpen with
      | true => simp [ih, openAfter]
      | false => simp [ih, openAfter]

/-- The body is open after some lines exactly when they end open. -/
theorem openAfter_iff {ls : List (List Char)} : openAfter false ls = true ↔ EndsOpen ls := by
  induction ls using List.reverseRecOn with
  | nil => simp [openAfter, not_endsOpen_nil]
  | append_singleton ls l ih =>
    rw [endsOpen_append_singleton_iff, ← ih, openAfter, List.foldl_append, List.foldl_cons,
      List.foldl_nil, openNext, ← lineKind_eq_opening_iff, ← lineKind_eq_text_iff]
    cases lineKind l <;> simp [openAfter]

instance (ls : List (List Char)) : Decidable (EndsOpen ls) :=
  decidable_of_iff _ openAfter_iff

theorem openAfter_eq_false {ls : List (List Char)} (h : ¬ EndsOpen ls) :
    openAfter false ls = false := by
  rwa [← openAfter_iff, Bool.not_eq_true] at h

/-- The line at a place belongs to the body: it is no boundary, and the lines before it end open. -/
def InBody (ls : List (List Char)) (i : Nat) : Prop :=
  ¬ Marked (ls.getD i []) ∧ EndsOpen (ls.take i)

instance (ls : List (List Char)) (i : Nat) : Decidable (InBody ls i) :=
  inferInstanceAs (Decidable (_ ∧ _))

/-- The line after some lines belongs to the body exactly when the scan adds it. -/
theorem bodyOf_singleton (ls : List (List Char)) (l : List Char) :
    bodyOf (openAfter false ls) [l] =
      if ¬ Marked l ∧ EndsOpen ls then Text.trim l else [] := by
  simp only [← lineKind_eq_text_iff, ← openAfter_iff, bodyOf]
  cases lineKind l with
  | opening => simp
  | closing => simp
  | text => simp

/-- The scan finds the lines that belong to the body, and joins them in order. -/
theorem bodyOf_eq_flatMap (ls : List (List Char)) :
    bodyOf false ls =
      ((List.range ls.length).filter fun i => InBody ls i).flatMap fun i =>
        Text.trim (ls.getD i []) := by
  induction ls using List.reverseRecOn with
  | nil => rfl
  | append_singleton ls l ih =>
    -- the lines before the last one are looked back from as they were without it
    have hearlier : ∀ i ∈ List.range ls.length,
        (ls ++ [l]).getD i [] = ls.getD i [] ∧ (InBody (ls ++ [l]) i ↔ InBody ls i) := by
      intro i hi
      have hlt := List.mem_range.1 hi
      have hget : (ls ++ [l]).getD i [] = ls.getD i [] := List.getD_append _ _ _ _ hlt
      rw [InBody, hget, List.take_append_of_le_length (Nat.le_of_lt hlt), InBody]
      exact ⟨rfl, Iff.rfl⟩
    have hlast : (ls ++ [l]).getD ls.length [] = l := by simp
    have hinBody : InBody (ls ++ [l]) ls.length ↔ ¬ Marked l ∧ EndsOpen ls := by
      rw [InBody, hlast, List.take_left']
      rfl
    have hfilter : (List.range ls.length).filter (fun i => InBody (ls ++ [l]) i) =
        (List.range ls.length).filter fun i => InBody ls i :=
      List.filter_congr fun i hi => decide_eq_decide.2 (hearlier i hi).2
    rw [bodyOf_append, ih, bodyOf_singleton, List.length_append, List.length_singleton,
      List.range_succ, List.filter_append, List.flatMap_append, hfilter]
    congr 1
    · exact List.flatMap_congr fun i hi => by
        rw [(hearlier i (List.mem_filter.1 hi).1).1]
    · by_cases h : ¬ Marked l ∧ EndsOpen ls
      · simp [h, hinBody.2 h]
      · simp [h, mt hinBody.1 h]

/-! ## Changes around a body -/

/-- The body depends on a line by what the line does to the body and, if that is nothing, by the
trimmed line. -/
theorem bodyOf_replace {l l' : List Char} (hkind : lineKind l' = lineKind l)
    (htrim : lineKind l = .text → Text.trim l' = Text.trim l) (before after : List (List Char)) :
    bodyOf false (before ++ l' :: after) = bodyOf false (before ++ l :: after) := by
  rw [bodyOf_append, bodyOf_append, bodyOf, bodyOf, hkind]
  cases h : lineKind l with
  | opening => rfl
  | closing => rfl
  | text => rw [htrim h]

/-- Without boundaries the body stays as it is, open or closed. -/
theorem openAfter_of_not_marked {ls : List (List Char)} (h : ∀ l ∈ ls, ¬ Marked l)
    (isOpen : Bool) : openAfter isOpen ls = isOpen := by
  induction ls with
  | nil => rfl
  | cons l ls ih =>
    obtain ⟨hl, hls⟩ := List.forall_mem_cons.1 h
    rw [openAfter, List.foldl_cons, openNext, lineKind_eq_text_iff.2 hl]
    exact ih hls

/-- Lines that are added where the body is closed add nothing to it. -/
theorem bodyOf_insert {before added : List (List Char)} (hclosed : ¬ EndsOpen before)
    (hadded : ∀ l ∈ added, ¬ Marked l) (after : List (List Char)) :
    bodyOf false (before ++ (added ++ after)) = bodyOf false (before ++ after) := by
  rw [bodyOf_append, bodyOf_append false before, openAfter_eq_false hclosed, bodyOf_append,
    bodyOf_eq_nil hadded, openAfter_of_not_marked hadded, List.nil_append]

/-- The ways to write a line break. -/
def lineBreaks : List (List Char) :=
  [['\n'], ['\r'], ['\r', '\n']]

/-- However a line break is written, the body is that of the lines on both sides of it. -/
theorem bodyOf_lineBreak {e : List Char} (he : e ∈ lineBreaks) (a b : List Char) :
    bodyOf false (lines (a ++ (e ++ b))) = bodyOf false (lines a ++ lines b) := by
  simp only [lineBreaks, List.mem_cons, List.not_mem_nil, or_false] at he
  rcases he with rfl | rfl | rfl
  · exact congrArg _ (lines_append rfl a b)
  · exact congrArg _ (lines_append rfl a b)
  · -- between the two characters there is an empty line
    have hempty : ∀ isOpen, bodyOf isOpen [[]] = [] ∧ openAfter isOpen [[]] = isOpen := by
      decide
    have hlines : lines (a ++ '\r' :: ([] ++ '\n' :: b)) = lines a ++ ([[]] ++ lines b) := by
      rw [lines_append rfl, lines_append rfl]
      rfl
    rw [List.cons_append, List.singleton_append, ← List.nil_append ('\n' :: b), hlines,
      bodyOf_append, bodyOf_append, (hempty _).1, (hempty _).2, List.nil_append, bodyOf_append]

/-- White space before a text is no part of a word in it. -/
theorem infix_pad_left {word w cs : List Char} (hne : word ≠ [])
    (hword : ∀ c ∈ word, Text.isBlank c = false) (hw : ∀ c ∈ w, Text.isBlank c = true) :
    word <:+: w ++ cs ↔ word <:+: cs := by
  obtain ⟨c, r, rfl⟩ := List.exists_cons_of_ne_nil hne
  have hc := hword c List.mem_cons_self
  induction w with
  | nil => rfl
  | cons d w ih =>
    obtain ⟨hd, hrest⟩ := List.forall_mem_cons.1 hw
    have hcd : c ≠ d := by
      rintro rfl
      rw [hc] at hd
      contradiction
    have hprefix : ¬ c :: r <+: d :: (w ++ cs) := fun h => hcd (List.cons_prefix_cons.1 h).1
    rw [List.cons_append, List.infix_cons_iff, or_iff_right hprefix]
    exact ih hrest

/-- White space around a text is no part of a word in it. -/
theorem infix_pad {word w w' cs : List Char} (hne : word ≠ [])
    (hword : ∀ c ∈ word, Text.isBlank c = false) (hw : ∀ c ∈ w, Text.isBlank c = true)
    (hw' : ∀ c ∈ w', Text.isBlank c = true) : word <:+: w ++ (cs ++ w') ↔ word <:+: cs := by
  -- what follows a text precedes its reverse
  have hreverse : word.reverse <:+: w'.reverse ++ cs.reverse ↔ word.reverse <:+: cs.reverse :=
    infix_pad_left (List.reverse_eq_nil_iff.not.2 hne)
      (fun c hc => hword c (List.mem_reverse.1 hc)) (fun c hc => hw' c (List.mem_reverse.1 hc))
  rw [infix_pad_left hne hword hw, ← List.reverse_infix, List.reverse_append, hreverse,
    List.reverse_infix]

/-- What a line does to the body is decided by the two words alone. -/
theorem lineKind_congr {l l' : List Char} (hbegin : Opens l' ↔ Opens l)
    (hend : ['E', 'N', 'D'] <:+: l' ↔ ['E', 'N', 'D'] <:+: l) : lineKind l' = lineKind l := by
  rw [Opens, Opens, ← holds_iff, ← holds_iff, Bool.coe_iff_coe] at hbegin
  rw [← holds_iff, ← holds_iff, Bool.coe_iff_coe] at hend
  rw [lineKind, lineKind, hbegin, hend]

theorem lineKind_pad {w w' l : List Char} (hw : ∀ c ∈ w, Text.isBlank c = true)
    (hw' : ∀ c ∈ w', Text.isBlank c = true) : lineKind (w ++ (l ++ w')) = lineKind l :=
  lineKind_congr (infix_pad (by simp) (by simp [Text.isBlank]) hw hw')
    (infix_pad (by simp) (by simp [Text.isBlank]) hw hw')

/-- A change to a text that its body does not show. -/
inductive Edit (s t : String) : Prop
  /-- A line break is written in another way. -/
  | lineBreak (a b d e : List Char) (hs : s.toList = a ++ (d ++ b)) (ht : t.toList = a ++ (e ++ b))
    (hd : d ∈ lineBreaks) (he : e ∈ lineBreaks)
  /-- A line gets white space before it and after it. -/
  | pad (before after : List (List Char)) (l w w' : List Char)
    (hs : lines s.toList = before ++ l :: after)
    (ht : lines t.toList = before ++ (w ++ (l ++ w')) :: after)
    (hw : ∀ c ∈ w, Text.isBlank c = true) (hw' : ∀ c ∈ w', Text.isBlank c = true)
  /-- Lines that are no boundaries are added where the body is closed, as it is before the first
  line that opens it and right after one that closes it. -/
  | add (before added after : List (List Char))
    (hs : lines s.toList = before ++ after) (ht : lines t.toList = before ++ (added ++ after))
    (hclosed : ¬ EndsOpen before) (hadded : ∀ l ∈ added, ¬ Marked l)
  /-- A boundary is worded in another way, but with the same of the two words in it. -/
  | reword (before after : List (List Char)) (l l' : List Char)
    (hs : lines s.toList = before ++ l :: after) (ht : lines t.toList = before ++ l' :: after)
    (hmarked : Marked l) (hbegin : Opens l' ↔ Opens l)
    (hend : ['E', 'N', 'D'] <:+: l' ↔ ['E', 'N', 'D'] <:+: l)

theorem Edit.strip_eq {s t : String} (h : Edit s t) : strip t = strip s := by
  rw [strip, strip]
  congr 1
  cases h with
  | lineBreak a b d e hs ht hd he =>
    rw [hs, ht, bodyOf_lineBreak hd, bodyOf_lineBreak he]
  | pad before after l w w' hs ht hw hw' =>
    rw [hs, ht]
    exact bodyOf_replace (lineKind_pad hw hw') (fun _ => Text.trim_pad hw hw' l) before after
  | add before added after hs ht hclosed hadded =>
    rw [hs, ht]
    exact bodyOf_insert hclosed hadded after
  | reword before after l l' hs ht hmarked hbegin hend =>
    rw [hs, ht]
    refine bodyOf_replace (lineKind_congr hbegin hend) (fun htext => ?_) before after
    exact absurd hmarked (lineKind_eq_text_iff.1 htext)

/-- Any number of changes. -/
theorem strip_eq_of_edits {s t : String} (h : Relation.ReflTransGen Edit s t) :
    strip t = strip s := by
  induction h with
  | refl => rfl
  | tail _ hedit ih => rw [hedit.strip_eq, ih]

/-- Two texts with a line break between them have the bodies of both, if the first ends closed. -/
theorem strip_append {s e : String} (he : e.toList ∈ lineBreaks)
    (hclosed : ¬ EndsOpen (lines s.toList)) (t : String) :
    strip (s ++ e ++ t) = strip s ++ strip t := by
  rw [strip, String.toList_append, String.toList_append, List.append_assoc, bodyOf_lineBreak he,
    bodyOf_append, openAfter_eq_false hclosed, String.ofList_append, strip, strip]

/-- The body by looking back.  A text is cut at every carriage return and every line feed, and in
one way.  Its body are the trimmed lines, in order, that hold neither `BEGIN` nor `END` and for
which the nearest line before them that holds one of these exists and holds `BEGIN`.  No number of
changes to line breaks, to white space at the ends of lines, to lines where the body is closed and
to the wording of boundaries changes the body, nor what any loader makes of the text.  The body of
two texts with a line break between them is that of the first and then that of the second, whenever
the first ends closed. -/
theorem strip_looks_back (pem : String) :
    (∀ ls, Cut pem.toList ls ↔ ls = lines pem.toList) ∧
    strip pem =
      .ofList (((List.range (lines pem.toList).length).filter
        fun i => InBody (lines pem.toList) i).flatMap
          fun i => Text.trim ((lines pem.toList).getD i [])) ∧
    (∀ other, Relation.ReflTransGen Edit pem other →
      strip other = strip pem ∧ (∀ kind, Key.load kind other = Key.load kind pem) ∧
      Key.loadEcPrivate other = Key.loadEcPrivate pem ∧
      Key.loadEcPublic other = Key.loadEcPublic pem ∧
      Key.loadRsaPublic other = Key.loadRsaPublic pem) ∧
    (∀ e other, e.toList ∈ lineBreaks → ¬ EndsOpen (lines pem.toList) →
      strip (pem ++ e ++ other) = strip pem ++ strip other) := by
  refine ⟨fun ls => cut_iff, ?_, fun other hedits => ?_,
    fun e other he hclosed => strip_append he hclosed other⟩
  · rw [strip, bodyOf_eq_flatMap]
  · have hstrip := strip_eq_of_edits hedits
    refine ⟨hstrip, fun kind => ?_, Key.loadWith_of_strip_eq hstrip,
      Key.loadWith_of_strip_eq hstrip, Key.loadWith_of_strip_eq hstrip⟩
    rw [Key.load_eq_loadWith, Key.load_eq_loadWith, Key.loadWith_of_strip_eq hstrip]

/-- A body of one line. -/
def plainBlock : String :=
  "BEGIN\nQUI=\nEND"

/-- The same body in more armour. -/
def dressedBlock : String :=
  "note\n-----BEGIN X-----\r\n\t QUI= \nEND\nQUJD"

/-- The changes from one to the other, one of each kind and lines added on both sides. -/
theorem edits_dressedBlock : Relation.ReflTransGen Edit plainBlock dressedBlock := by
  have hbreak : Edit plainBlock "BEGIN\r\nQUI=\nEND" :=
    .lineBreak "BEGIN".toList "QUI=\nEND".toList ['\n'] ['\r', '\n'] (by decide +kernel)
      (by decide +kernel) (by decide) (by decide)
  have hpad : Edit "BEGIN\r\nQUI=\nEND" "BEGIN\r\n\t QUI= \nEND" :=
    .pad ["BEGIN".toList, []] ["END".toList] "QUI=".toList ['\t', ' '] [' '] (by decide +kernel)
      (by decide +kernel) (by simp [Text.isBlank]) (by simp [Text.isBlank])
  have hreword : Edit "BEGIN\r\n\t QUI= \nEND" "-----BEGIN X-----\r\n\t QUI= \nEND" :=
    .reword [] [[], "\t QUI= ".toList, "END".toList] "BEGIN".toList "-----BEGIN X-----".toList
      (by decide +kernel) (by decide +kernel) (by decide +kernel) (by decide +kernel)
      (by decide +kernel)
  have hbefore : Edit "-----BEGIN X-----\r\n\t QUI= \nEND"
      "note\n-----BEGIN X-----\r\n\t QUI= \nEND" :=
    .add [] ["note".toList]
      ["-----BEGIN X-----".toList, [], "\t QUI= ".toList, "END".toList] (by decide +kernel)
      (by decide +kernel) (not_endsOpen_of_not_opens (by simp)) (by decide +kernel)
  have hafter : Edit "note\n-----BEGIN X-----\r\n\t QUI= \nEND" dressedBlock :=
    .add (["note".toList, "-----BEGIN X-----".toList, [], "\t QUI= ".toList] ++ ["END".toList])
      ["QUJD".toList] [] (by decide +kernel) (by decide +kernel)
      (not_endsOpen_append_closing (by decide +kernel) (by decide +kernel) _) (by decide +kernel)
  exact ((((Relation.ReflTransGen.single hbreak).tail hpad).tail hreword).tail hbefore).tail hafter

/-- More armour does not change the body, and a second block after the first one adds its own. -/
theorem strip_looks_back_dressed :
    Relation.ReflTransGen Edit plainBlock dressedBlock ∧
    strip dressedBlock = "QUI=" ∧
    "\r".toList ∈ lineBreaks ∧ ¬ EndsOpen (lines plainBlock.toList) ∧
    strip (plainBlock ++ "\r" ++ dressedBlock) = "QUI=QUI=" := by
  have hplain : strip plainBlock = "QUI=" := by decide +kernel
  have hclosed : ¬ EndsOpen (lines plainBlock.toList) := by decide +kernel
  obtain ⟨-, -, hedits, hjoin⟩ := strip_looks_back plainBlock
  obtain ⟨hdressed, -⟩ := hedits dressedBlock edits_dressedBlock
  rw [hplain] at hdressed
  refine ⟨edits_dressedBlock, hdressed, by decide +kernel, hclosed, ?_⟩
  rw [hjoin "\r" dressedBlock (by decide +kernel) hclosed, hplain, hdressed]
  rfl

/-- A line with both words opens the body, and a body that nothing closes goes on to the end. -/
example : strip "END BEGIN\nQU\nI=" = "QUI=" := by
  decide +kernel

end DeviceAuth.Pem
