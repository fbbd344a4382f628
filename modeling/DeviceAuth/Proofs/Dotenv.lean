import DeviceAuth.Dotenv
import DeviceAuth.Proofs.Bytes
import Mathlib.Data.List.TakeWhile

/-!
# DeviceAuth.Proofs.Dotenv

Dotenv texts before any variable has a value.  What a line writes is a template: characters, and
references to variables (`Piece`).  Which names a text assigns which templates, and which of its
lines are faults, depends on the text alone (`parse`); an environment comes in only when the
templates are expanded, each with the entries before it (`read_eq_evaluate`).
-/

namespace DeviceAuth.Dotenv

/-! ## Templates -/

/-- A piece of a value. -/
inductive Piece where
  /-- A character as it stands. -/
  | char (c : Char)
  /-- The value of a variable. -/
  | reference (name : List Char)
  deriving DecidableEq, Repr

/-- The characters of a piece, given the values of variables. -/
def Piece.expand (vars : List Char → List Char) : Piece → List Char
  | .char c => [c]
  | .reference name => vars name

/-- The characters of a template, given the values of variables. -/
def expand (vars : List Char → List Char) (t : List Piece) : List Char :=
  t.flatMap (Piece.expand vars)

@[simp] theorem expand_nil (vars : List Char → List Char) : expand vars [] = [] := rfl

theorem expand_cons (vars : List Char → List Char) (p : Piece) (t : List Piece) :
    expand vars (p :: t) = p.expand vars ++ expand vars t :=
  List.flatMap_cons

theorem expand_append (vars : List Char → List Char) (t u : List Piece) :
    expand vars (t ++ u) = expand vars t ++ expand vars u :=
  List.flatMap_append

/-- Variables to which a template refers decide what it expands to. -/
theorem expand_congr {vars others : List Char → List Char} {t : List Piece}
    (h : ∀ n, .reference n ∈ t → vars n = others n) : expand vars t = expand others t := by
  induction t with
  | nil => rfl
  | cons p t ih =>
    have htail := ih fun n hn => h n (List.mem_cons_of_mem p hn)
    rw [expand_cons, expand_cons, htail]
    cases p with
    | char c => rfl
    | reference n => rw [Piece.expand, Piece.expand, h n List.mem_cons_self]

/-- A template to which some values give more characters, and none fewer, gets longer. -/
theorem length_expand_lt {vars others : List Char → List Char} {t : List Piece}
    (hle : ∀ n, (vars n).length ≤ (others n).length) {n : List Char} (hn : .reference n ∈ t)
    (hlt : (vars n).length < (others n).length) :
    (expand vars t).length < (expand others t).length := by
  have hpiece : ∀ p : Piece, (p.expand vars).length ≤ (p.expand others).length := by
    intro p
    cases p with
    | char c => exact Nat.le_refl 1
    | reference m => exact hle m
  have hall : ∀ t : List Piece, (expand vars t).length ≤ (expand others t).length := by
    intro t
    induction t with
    | nil => exact Nat.le_refl 0
    | cons p t ih =>
      rw [expand_cons, expand_cons, List.length_append, List.length_append]
      exact Nat.add_le_add (hpiece p) ih
  obtain ⟨before, after, rfl⟩ := List.append_of_mem hn
  have hbefore := hall before
  have hafter := hall after
  simp only [expand_append, expand_cons, List.length_append, Piece.expand]
  omega

/-! ## Values -/

/-- Pieces put before what follows. -/
def prependPieces (ps : List Piece) :
    Except ValueFault (List Piece) → Except ValueFault (List Piece)
  | .ok r => .ok (ps ++ r)
  | .error f => .error f

/-- The template that ends where the reader stands. -/
def finishTemplate (weak : Bool) (mode : Mode) : Except ValueFault (List Piece) :=
  if weak then .error .unclosed
  else
    match mode with
    | .strong | .blockName _ => .error .unclosed
    | .bareName n => .ok [.reference n]
    | _ => .ok []

/-- The template of the rest of a value, read as its characters are. -/
def templateFrom (weak : Bool) (mode : Mode) (index : Nat) :
    List Char → Except ValueFault (List Piece)
  | [] => finishTemplate weak mode
  | c :: cs =>
    match mode with
    | .ended =>
      if isGap c then templateFrom weak .ended (index + 1) cs
      else if c = '#' then .ok []
      else .error (.character index)
    | .escape =>
      match unescape? c with
      | some d => prependPieces [.char d] (templateFrom weak .text (index + 1) cs)
      | none => .error (.character index)
    | .strong =>
      if c = '\'' then templateFrom weak .text (index + 1) cs
      else prependPieces [.char c] (templateFrom weak .strong (index + 1) cs)
    | .bareName n =>
      if Text.isAlphanumeric c then templateFrom weak (.bareName (n ++ [c])) (index + 1) cs
      else if c = '\x7b' ∧ n = [] then templateFrom weak (.blockName []) (index + 1) cs
      else if c = '$' then
        prependPieces [.reference n] (templateFrom weak (.bareName []) (index + 1) cs)
      else prependPieces [.reference n, .char c] (templateFrom weak .text (index + 1) cs)
    | .blockName n =>
      if c = '\x7d' then prependPieces [.reference n] (templateFrom weak .text (index + 1) cs)
      else templateFrom weak (.blockName (n ++ [c])) (index + 1) cs
    | .text =>
      if c = '$' then templateFrom weak (.bareName []) (index + 1) cs
      else if c = '\\' then templateFrom weak .escape (index + 1) cs
      else if c = '"' then templateFrom (!weak) .text (index + 1) cs
      else if weak then prependPieces [.char c] (templateFrom weak .text (index + 1) cs)
      else if c = '\'' then templateFrom weak .strong (index + 1) cs
      else if isGap c then templateFrom weak .ended (index + 1) cs
      else prependPieces [.char c] (templateFrom weak .text (index + 1) cs)

/-- The template that a value writes. -/
def template (cs : List Char) : Except ValueFault (List Piece) :=
  templateFrom false .text 0 cs

theorem prepend_map_expand (vars : List Char → List Char) (ps : List Piece)
    (x : Except ValueFault (List Piece)) :
    prepend (expand vars ps) (x.map (expand vars)) = (prependPieces ps x).map (expand vars) := by
  cases x with
  | error f => rfl
  | ok t => simp only [prependPieces, Except.map, prepend, expand_append]

/-- Reading a value is expanding its template. -/
theorem readFrom_eq (vars : List Char → List Char) (weak : Bool) (mode : Mode) (index : Nat)
    (cs : List Char) :
    readFrom vars weak mode index cs = (templateFrom weak mode index cs).map (expand vars) := by
  induction cs generalizing weak mode index with
  | nil =>
    rw [readFrom, templateFrom]
    cases weak with
    | true => rfl
    | false =>
      cases mode with
      | bareName n => exact congrArg Except.ok (List.append_nil _).symm
      | text | ended | escape | strong | blockName _ => rfl
  | cons c cs ih =>
    -- in each mode both readers test the character alike and go on in the same mode; what the one
    -- puts before the rest is what the other's pieces expand to
    have hchar : ∀ d, [d] = expand vars [.char d] := fun d => rfl
    have hreference : ∀ n, vars n = expand vars [.reference n] := fun n => (List.append_nil _).symm
    have hboth : ∀ n d, vars n ++ [d] = expand vars [.reference n, .char d] := fun n d => rfl
    cases mode with
    | ended =>
      rw [readFrom, templateFrom, ih]
      split_ifs <;> rfl
    | escape =>
      rw [readFrom, templateFrom]
      cases unescape? c with
      | none => rfl
      | some d =>
        dsimp only
        rw [ih, hchar, prepend_map_expand]
    | strong =>
      rw [readFrom, templateFrom, ih, ih, hchar, prepend_map_expand]
      split_ifs <;> rfl
    | bareName n =>
      rw [readFrom, templateFrom, ih, ih, ih, ih, hboth, hreference, prepend_map_expand,
        prepend_map_expand]
      split_ifs <;> rfl
    | blockName n =>
      rw [readFrom, templateFrom, ih, ih, hreference, prepend_map_expand]
      split_ifs <;> rfl
    | text =>
      rw [readFrom, templateFrom, ih, ih, ih, ih, ih, ih, hchar, prepend_map_expand]
      split_ifs <;> rfl

theorem readValue_eq (vars : List Char → List Char) (cs : List Char) :
    readValue vars cs = (template cs).map (expand vars) :=
  readFrom_eq vars false .text 0 cs

/-! ## Lines -/

/-- A name and the template of its value. -/
abbrev Assignment := String × List Piece

/-- The entry that an assignment makes, given the values of variables. -/
def entryOf (vars : List Char → List Char) (a : Assignment) : Entry :=
  (a.1, .ofList (expand vars a.2))

@[simp] theorem entryOf_fst (vars : List Char → List Char) (a : Assignment) :
    (entryOf vars a).1 = a.1 := rfl

/-- The template of an assignment; nothing, or a comment, is the empty one. -/
def templateAssigned (value : List Char) : Except Fault (List Piece) :=
  if value = [] ∨ value.head? = some '#' then .ok []
  else
    match template value with
    | .ok t => .ok t
    | .error f => .error (f.toFault value)

/-- The assignment on a line, if there is one. -/
def parseLine (line : List Char) : Except Fault (Option Assignment) :=
  let kept := Text.trimEnd line
  let s := Text.trimStart kept
  if s = [] ∨ s.head? = some '#' then .ok none
  else
    match takeAssignment s with
    | .error rest => .error (.text (.ofList line) (byteSize kept - byteSize rest))
    | .ok (name, value) => (templateAssigned value).map fun t => some (.ofList name, t)

theorem readAssigned_eq (vars : List Char → List Char) (value : List Char) :
    readAssigned vars value = (templateAssigned value).map fun t => .ofList (expand vars t) := by
  rw [readAssigned, templateAssigned, readValue_eq]
  split_ifs
  · rfl
  · cases template value <;> rfl

/-- Reading a line is expanding its assignment. -/
theorem readLine_eq (vars : List Char → List Char) (line : List Char) :
    readLine vars line = (parseLine line).map (Option.map (entryOf vars)) := by
  unfold readLine parseLine
  dsimp only
  split_ifs
  · rfl
  · cases takeAssignment (Text.trimStart (Text.trimEnd line)) with
    | error rest => rfl
    | ok r =>
      obtain ⟨name, value⟩ := r
      dsimp only
      rw [readAssigned_eq]
      cases templateAssigned value <;> rfl

/-! ## Texts -/

/-- The assignments and faults of some lines, in order. -/
def parseLines : List Line → List (Except Fault Assignment)
  | [] => []
  | .notUtf8 :: r => .error .notUtf8 :: parseLines r
  | .unfinished cs :: r => .error (.text (.ofList cs) (byteSize cs)) :: parseLines r
  | .complete cs :: r =>
    match parseLine cs with
    | .ok none => parseLines r
    | .ok (some a) => .ok a :: parseLines r
    | .error f => .error f :: parseLines r

/-- The assignments and faults of a text, in order. -/
def parse (bytes : List UInt8) : List (Except Fault Assignment) :=
  parseLines (lines bytes)

/-- The entries of some assignments in an environment, given the entries before them, the latest
first; faults stay. -/
def evaluate (process : Environment) (known : List Entry) :
    List (Except Fault Assignment) → List (Except Fault Entry)
  | [] => []
  | .error f :: r => .error f :: evaluate process known r
  | .ok a :: r =>
    let e := entryOf (valueOf process known) a
    .ok e :: evaluate process (e :: known) r

theorem readLines_eq_evaluate (process : Environment) (known : List Entry) (ls : List Line) :
    readLines process known ls = evaluate process known (parseLines ls) := by
  induction ls generalizing known with
  | nil => rfl
  | cons l r ih =>
    cases l with
    | notUtf8 => exact congrArg (_ :: ·) (ih known)
    | unfinished cs => exact congrArg (_ :: ·) (ih known)
    | complete cs =>
      rw [readLines, parseLines, readLine_eq]
      cases parseLine cs with
      | error f => exact congrArg (_ :: ·) (ih known)
      | ok o =>
        cases o with
        | none => exact ih known
        | some a => exact congrArg (_ :: ·) (ih _)

/-- Reading a text is expanding what it assigns. -/
theorem read_eq_evaluate (process : Environment) (bytes : List UInt8) :
    read process bytes = evaluate process [] (parse bytes) :=
  readLines_eq_evaluate process [] (lines bytes)

/-- The assignments among some results. -/
def assignments (rs : List (Except Fault Assignment)) : List Assignment :=
  rs.filterMap Except.toOption

@[simp] theorem assignments_cons_error (f : Fault) (rs : List (Except Fault Assignment)) :
    assignments (.error f :: rs) = assignments rs := rfl

@[simp] theorem assignments_cons_ok (a : Assignment) (rs : List (Except Fault Assignment)) :
    assignments (.ok a :: rs) = a :: assignments rs := rfl

/-- An assignment makes its entry, which those after it know. -/
theorem entries_evaluate_cons (process : Environment) (known : List Entry) (a : Assignment)
    (rs : List (Except Fault Assignment)) :
    entries (evaluate process known (.ok a :: rs)) =
      entryOf (valueOf process known) a ::
        entries (evaluate process (entryOf (valueOf process known) a :: known) rs) := rfl

/-- The faults of a text do not depend on an environment. -/
theorem faults_evaluate (p q : Environment) (known others : List Entry)
    (rs : List (Except Fault Assignment)) :
    faults (evaluate p known rs) = faults (evaluate q others rs) := by
  induction rs generalizing known others with
  | nil => rfl
  | cons r rs ih =>
    cases r with
    | error f => exact congrArg (f :: ·) (ih known others)
    | ok a => exact ih _ _

/-- Environments that agree on the variables to which a text refers give the same entries. -/
theorem evaluate_congr {p q : Environment} {rs : List (Except Fault Assignment)}
    (h : ∀ a ∈ assignments rs, ∀ n, .reference n ∈ a.2 → p.get? (.ofList n) = q.get? (.ofList n))
    (known : List Entry) : evaluate p known rs = evaluate q known rs := by
  induction rs generalizing known with
  | nil => rfl
  | cons r rs ih =>
    cases r with
    | error f => exact congrArg (_ :: ·) (ih h known)
    | ok a =>
      have hentry : entryOf (valueOf p known) a = entryOf (valueOf q known) a := by
        rw [entryOf, entryOf, expand_congr]
        intro n hn
        rw [valueOf, valueOf, h a List.mem_cons_self n hn]
      rw [evaluate, evaluate, hentry]
      exact congrArg (_ :: ·) (ih (fun b hb => h b (List.mem_cons_of_mem a hb)) _)

/-- A name that a text does not assign has no entry. -/
theorem lookup_evaluate_of_none {process : Environment} {rs : List (Except Fault Assignment)}
    {name : String} (h : (assignments rs).lookup name = none) (known : List Entry) :
    (entries (evaluate process known rs)).lookup name = none := by
  induction rs generalizing known with
  | nil => rfl
  | cons r rs ih =>
    cases r with
    | error f => exact ih h known
    | ok a =>
      rw [assignments_cons_ok, List.lookup_cons] at h
      rw [entries_evaluate_cons, List.lookup_cons, entryOf_fst]
      cases hname : name == a.1 with
      | true => rw [hname] at h; contradiction
      | false =>
        rw [hname] at h
        exact ih h _

/-- The entry of a name is what the first template assigned to it expands to, with the entries
before it. -/
theorem lookup_evaluate_of_some {process : Environment} {rs : List (Except Fault Assignment)}
    {name : String} {t : List Piece} (h : (assignments rs).lookup name = some t)
    {P : String → Prop} (hrs : ∀ a ∈ assignments rs, P a.1) {known : List Entry}
    (hknown : ∀ e ∈ known, P e.1) :
    ∃ before, (∀ e ∈ before, P e.1) ∧ (entries (evaluate process known rs)).lookup name =
      some (.ofList (expand (valueOf process before) t)) := by
  -- the entries that are known grow along the text, and all of them have names that it assigns
  induction rs generalizing known with
  | nil => contradiction
  | cons r rs ih =>
    cases r with
    | error f => exact ih h hrs hknown
    | ok a =>
      obtain ⟨ha, hrest⟩ := List.forall_mem_cons.1 hrs
      rw [assignments_cons_ok, List.lookup_cons] at h
      rw [entries_evaluate_cons, List.lookup_cons, entryOf_fst]
      cases hname : name == a.1 with
      | true =>
        rw [hname, Option.some.injEq] at h
        subst h
        exact ⟨known, hknown, rfl⟩
      | false =>
        rw [hname] at h
        exact ih h hrest (List.forall_mem_cons.2 ⟨ha, hknown⟩)

/-! ## Names -/

/-- A text that may be the name in an assignment, going by its characters. -/
def Named (name : String) : Prop :=
  name ≠ "" ∧ ∀ c ∈ name.toList, inName c = true

theorem named_of_takeName {s name r : List Char} (h : takeName s = .ok (name, r)) :
    Named (.ofList name) := by
  unfold takeName at h
  split at h
  · next c cs =>
    split at h
    · next hstart =>
      rw [Except.ok.injEq, Prod.mk.injEq] at h
      obtain ⟨rfl, -⟩ := h
      have hname : inName c = true := by
        simp only [startsName, Bool.or_eq_true] at hstart
        simp only [inName, Char.isAlphanum, Bool.or_eq_true]
        exact .inl (hstart.imp_left .inl)
      refine ⟨?_, fun d hd => List.mem_takeWhile_imp (String.toList_ofList ▸ hd)⟩
      rw [List.takeWhile_cons_of_pos hname]
      simp [← String.toList_inj]
    · contradiction
  · contradiction

theorem named_of_takeAssignment {s name value : List Char}
    (h : takeAssignment s = .ok (name, value)) : Named (.ofList name) := by
  unfold takeAssignment at h
  obtain ⟨⟨first, r⟩, hfirst, h⟩ := bind_eq_ok_iff.1 h
  dsimp only at h
  split at h
  · obtain ⟨⟨second, r'⟩, hsecond, h⟩ := bind_eq_ok_iff.1 h
    obtain ⟨rest, -, h⟩ := bind_eq_ok_iff.1 h
    rw [← (Prod.mk.inj (Except.ok.inj h)).1]
    exact named_of_takeName hsecond
  · obtain ⟨rest, -, h⟩ := bind_eq_ok_iff.1 h
    rw [← (Prod.mk.inj (Except.ok.inj h)).1]
    exact named_of_takeName hfirst

theorem named_of_parseLine {line : List Char} {a : Assignment}
    (h : parseLine line = .ok (some a)) : Named a.1 := by
  unfold parseLine at h
  dsimp only at h
  split_ifs at h
  · exact nomatch Except.ok.inj h
  · split at h
    · contradiction
    · next name value hassignment =>
      obtain ⟨t, -, ht⟩ := map_eq_ok_iff.1 h
      rw [← Option.some.inj ht]
      exact named_of_takeAssignment hassignment

/-- What a text assigns has a name. -/
theorem named_of_mem_parseLines {ls : List Line} {a : Assignment}
    (h : a ∈ assignments (parseLines ls)) : Named a.1 := by
  induction ls with
  | nil => contradiction
  | cons l r ih =>
    cases l with
    | notUtf8 => exact ih h
    | unfinished cs => exact ih h
    | complete cs =>
      rw [parseLines] at h
      cases hline : parseLine cs with
      | error f => rw [hline] at h; exact ih h
      | ok o =>
        rw [hline] at h
        cases o with
        | none => exact ih h
        | some b =>
          rcases List.mem_cons.1 h with rfl | h
          · exact named_of_parseLine hline
          · exact ih h

end DeviceAuth.Dotenv
