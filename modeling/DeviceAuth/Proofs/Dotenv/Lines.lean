import DeviceAuth.Proofs.Dotenv

/-!
# DeviceAuth.Proofs.Dotenv.Lines

Dotenv texts one after the other.  A text is `Whole` when it ends its last line and leaves nothing
open there; whatever follows it is then read as a text of its own, except that references in it also
know the entries before it (`read_append`).  A whole text that makes no entry can therefore be taken
out from between two others (`entries_read_insert`), whether it is a comment, a blank line or a line
that is refused.
-/

namespace DeviceAuth.Dotenv

/-! ## Physical lines -/

/-- A text that is not empty has a line. -/
theorem physicalLines_ne_nil {bytes : List UInt8} (h : bytes ≠ []) : physicalLines bytes ≠ [] := by
  cases bytes with
  | nil => contradiction
  | cons b r =>
    rw [physicalLines]
    split_ifs
    · exact List.cons_ne_nil _ _
    · cases physicalLines r <;> exact List.cons_ne_nil _ _

/-- The bytes end in a line feed, if there are any. -/
def EndsLine (bytes : List UInt8) : Prop :=
  ∀ b ∈ bytes.getLast?, b = 0x0A

instance (bytes : List UInt8) : Decidable (EndsLine bytes) :=
  inferInstanceAs (Decidable (∀ b ∈ bytes.getLast?, b = 0x0A))

/-- The lines of a text that ends its last one stay as they are, whatever follows. -/
theorem physicalLines_append {a : List UInt8} (ha : EndsLine a) (b : List UInt8) :
    physicalLines (a ++ b) = physicalLines a ++ physicalLines b := by
  induction a with
  | nil => rfl
  | cons c r ih =>
    rcases eq_or_ne r [] with rfl | hr
    · have hc : c = 0x0A := ha c rfl
      rw [List.singleton_append, physicalLines, if_pos hc, physicalLines, if_pos hc]
      rfl
    · have hlast : EndsLine r := by
        rw [EndsLine, ← List.getLast?_cons_of_ne_nil hr]
        exact ha
      obtain ⟨l, ls, hls⟩ := List.exists_cons_of_ne_nil (physicalLines_ne_nil hr)
      rw [List.cons_append, physicalLines, ih hlast, physicalLines, hls]
      split_ifs <;> rfl

/-- A text without a line feed is one line, with or without one at its end. -/
theorem physicalLines_of_forall {a ending : List UInt8} (hne : a ≠ []) (ha : ∀ b ∈ a, b ≠ 0x0A)
    (hending : ending = [] ∨ ending = [0x0A]) : physicalLines (a ++ ending) = [a ++ ending] := by
  induction a with
  | nil => contradiction
  | cons c r ih =>
    obtain ⟨hc, hr⟩ := List.forall_mem_cons.1 ha
    rw [List.cons_append, physicalLines, if_neg hc]
    rcases eq_or_ne r [] with rfl | hne
    · rcases hending with rfl | rfl <;> rfl
    · rw [ih hne hr]

/-! ## Logical lines -/

/-- A logical line that the text did not end before. -/
def Line.Finished : Line → Prop
  | .unfinished _ => False
  | .complete _ | .notUtf8 => True

instance : DecidablePred Line.Finished
  | .unfinished _ => .isFalse not_false
  | .complete _ | .notUtf8 => .isTrue trivial

/-- Physical lines after which nothing is open leave what follows them alone. -/
theorem joinLines_append {pending : List Char} {s : Scan} {ls : List (Option (List Char))}
    (hstart : s = .plain → pending = []) (h : ∀ l ∈ joinLines pending s ls, l.Finished)
    (ms : List (Option (List Char))) :
    joinLines pending s (ls ++ ms) = joinLines pending s ls ++ joinLines [] .plain ms := by
  induction ls generalizing pending s with
  | nil =>
    by_cases hs : s = .plain
    · obtain rfl := hstart hs
      rw [hs]
      rfl
    · rw [joinLines, if_neg hs] at h
      exact absurd (h _ List.mem_cons_self) not_false
  | cons l r ih =>
    have hreset : ∀ first, (∀ l ∈ first :: joinLines [] .plain r, l.Finished) →
        joinLines [] .plain (r ++ ms) = joinLines [] .plain r ++ joinLines [] .plain ms :=
      fun first hr => ih (fun _ => rfl) fun l hl => hr l (List.mem_cons_of_mem _ hl)
    cases l with
    | none => exact congrArg (_ :: ·) (hreset _ h)
    | some l =>
      rw [List.cons_append, joinLines, joinLines]
      rw [joinLines] at h
      split_ifs at h ⊢
      · exact congrArg (_ :: ·) (hreset _ h)
      · cases hscan : scan s l with
        | comment kept =>
          rw [hscan] at h
          exact congrArg (_ :: ·) (hreset _ h)
        | reached t =>
          rw [hscan] at h
          dsimp only at h ⊢
          split_ifs at h ⊢ with ht
          · exact congrArg (_ :: ·) (hreset _ h)
          · exact ih (fun hplain => absurd hplain ht) h

/-- A text ends its last line, and no quote or escape is open there. -/
structure Whole (text : List UInt8) : Prop where
  ends_line : EndsLine text
  finished : ∀ l ∈ lines text, l.Finished

instance (text : List UInt8) : Decidable (Whole text) :=
  decidable_of_iff (EndsLine text ∧ ∀ l ∈ lines text, l.Finished)
    ⟨fun h => ⟨h.1, h.2⟩, fun h => ⟨h.ends_line, h.finished⟩⟩

/-- The logical lines of a whole text stay as they are, whatever follows. -/
theorem lines_append {a : List UInt8} (ha : Whole a) (b : List UInt8) :
    lines (a ++ b) = lines a ++ lines b := by
  rw [lines, physicalLines_append ha.ends_line, List.map_append]
  exact joinLines_append (fun _ => rfl) ha.finished _

/-- Two whole texts make a whole text. -/
theorem Whole.append {a b : List UInt8} (ha : Whole a) (hb : Whole b) : Whole (a ++ b) where
  ends_line := by
    intro c hc
    rw [List.getLast?_append, Option.mem_def, Option.or_eq_some_iff] at hc
    rcases hc with hc | ⟨-, hc⟩
    · exact hb.ends_line c hc
    · exact ha.ends_line c hc
  finished := by
    intro l hl
    rw [lines_append ha, List.mem_append] at hl
    exact hl.elim (ha.finished l) (hb.finished l)

/-! ## Entries -/

/-- The entries of some lines are known to the lines after them. -/
theorem readLines_append (process : Environment) (known : List Entry) (ls ms : List Line) :
    readLines process known (ls ++ ms) = readLines process known ls ++
      readLines process ((entries (readLines process known ls)).reverse ++ known) ms := by
  induction ls generalizing known with
  | nil => rfl
  | cons l r ih =>
    cases l with
    | notUtf8 => exact congrArg (_ :: ·) (ih known)
    | unfinished cs => exact congrArg (_ :: ·) (ih known)
    | complete cs =>
      rw [List.cons_append, readLines, readLines]
      cases readLine (valueOf process known) cs with
      | error f => exact congrArg (_ :: ·) (ih known)
      | ok o =>
        cases o with
        | none => exact ih known
        | some e =>
          have hknown : (entries (.ok e :: readLines process (e :: known) r)).reverse ++ known =
              (entries (readLines process (e :: known) r)).reverse ++ e :: known := by
            simp [entries]
          rw [hknown]
          exact congrArg (_ :: ·) (ih (e :: known))

/-- What follows a whole text is read as a text that knows its entries. -/
theorem read_append {a : List UInt8} (ha : Whole a) (process : Environment) (b : List UInt8) :
    read process (a ++ b) = read process a ++
      readLines process (entries (read process a)).reverse (lines b) := by
  rw [read, lines_append ha, readLines_append, List.append_nil]
  rfl

theorem entries_append (rs ss : List (Except Fault Entry)) :
    entries (rs ++ ss) = entries rs ++ entries ss :=
  List.filterMap_append

@[simp] theorem entries_cons_error (f : Fault) (rs : List (Except Fault Entry)) :
    entries (.error f :: rs) = entries rs := rfl

@[simp] theorem entries_cons_ok (e : Entry) (rs : List (Except Fault Entry)) :
    entries (.ok e :: rs) = e :: entries rs := rfl

/-- The names of the entries of a text are those that it assigns, whatever the values are. -/
theorem map_fst_entries_evaluate (process : Environment) (known : List Entry)
    (rs : List (Except Fault Assignment)) :
    (entries (evaluate process known rs)).map (·.1) = (assignments rs).map (·.1) := by
  induction rs generalizing known with
  | nil => rfl
  | cons r rs ih =>
    cases r with
    | error f => exact ih known
    | ok a =>
      rw [entries_evaluate_cons, assignments_cons_ok, List.map_cons, List.map_cons, ih, entryOf_fst]

/-- Lines that make no entry on their own make none after others. -/
theorem entries_readLines_eq_nil {process : Environment} {ls : List Line}
    (h : entries (readLines process [] ls) = []) (known : List Entry) :
    entries (readLines process known ls) = [] := by
  have hnames := map_fst_entries_evaluate process [] (parseLines ls)
  rw [← readLines_eq_evaluate, h, List.map_nil] at hnames
  have hall := map_fst_entries_evaluate process known (parseLines ls)
  rw [← readLines_eq_evaluate, ← hnames] at hall
  exact List.map_eq_nil_iff.1 hall

/-- A whole text that makes no entry on its own can stand between two others. -/
theorem entries_read_insert {a m : List UInt8} (ha : Whole a) (hm : Whole m)
    {process : Environment} (h : entries (read process m) = []) (b : List UInt8) :
    entries (read process (a ++ m ++ b)) = entries (read process (a ++ b)) := by
  have hnone : entries (read process (a ++ m)) = entries (read process a) := by
    rw [read_append ha, entries_append, entries_readLines_eq_nil h, List.append_nil]
  rw [read_append (ha.append hm), entries_append, hnone, read_append ha process b, entries_append]

/-! ## First and last entries -/

/-- The first entry of a name has a value; lines that are refused make none. -/
def FirstEntry (rs : List (Except Fault Entry)) (name v : String) : Prop :=
  ∃ before after, rs = before ++ .ok (name, v) :: after ∧ ∀ e, .ok e ∈ before → e.1 ≠ name

/-- The last entry of a name has a value. -/
def LastEntry (rs : List (Except Fault Entry)) (name v : String) : Prop :=
  ∃ before after, rs = before ++ .ok (name, v) :: after ∧ ∀ e, .ok e ∈ after → e.1 ≠ name

theorem firstEntry_cons_iff {r : Except Fault Entry} {rs : List (Except Fault Entry)}
    {name v : String} : FirstEntry (r :: rs) name v ↔
      r = .ok (name, v) ∨ ((∀ e, r = .ok e → e.1 ≠ name) ∧ FirstEntry rs name v) := by
  constructor
  · rintro ⟨before, after, hsplit, hbefore⟩
    cases before with
    | nil => exact .inl (List.cons.inj hsplit).1
    | cons b before =>
      obtain ⟨rfl, rfl⟩ := List.cons.inj hsplit
      refine .inr ⟨fun e he => hbefore e (he ▸ List.mem_cons_self), before, after, rfl, ?_⟩
      exact fun e he => hbefore e (List.mem_cons_of_mem r he)
  · rintro (rfl | ⟨hr, before, after, rfl, hbefore⟩)
    · exact ⟨[], rs, rfl, fun e he => nomatch he⟩
    · refine ⟨r :: before, after, rfl, fun e he => ?_⟩
      rcases List.mem_cons.1 he with he | he
      · exact hr e he.symm
      · exact hbefore e he

/-- Looking a name up gives its first entry. -/
theorem lookup_entries_eq_some_iff {rs : List (Except Fault Entry)} {name v : String} :
    (entries rs).lookup name = some v ↔ FirstEntry rs name v := by
  induction rs with
  | nil =>
    refine ⟨nofun, ?_⟩
    rintro ⟨before, after, hnil, -⟩
    exact absurd hnil.symm (List.append_ne_nil_of_right_ne_nil before (List.cons_ne_nil _ _))
  | cons r rs ih =>
    rw [firstEntry_cons_iff, ← ih]
    cases r with
    | error f => simp
    | ok e =>
      obtain ⟨n, w⟩ := e
      rw [entries_cons_ok, List.lookup_cons]
      by_cases hn : name = n
      · subst hn
        simp
      · have hne : (name == n) = false := by simpa using hn
        simp [hne, Ne.symm hn]

/-- Looking a name up from the end gives its last entry. -/
theorem lookup_reverse_entries_eq_some_iff {rs : List (Except Fault Entry)} {name v : String} :
    (entries rs).reverse.lookup name = some v ↔ LastEntry rs name v := by
  have hreverse : (entries rs).reverse = entries rs.reverse := List.filterMap_reverse.symm
  rw [hreverse, lookup_entries_eq_some_iff]
  constructor
  · rintro ⟨before, after, hsplit, hbefore⟩
    refine ⟨after.reverse, before.reverse, ?_, fun e he => hbefore e (List.mem_reverse.1 he)⟩
    rw [List.reverse_eq_iff.1 hsplit]
    simp
  · rintro ⟨before, after, rfl, hafter⟩
    refine ⟨after.reverse, before.reverse, ?_, fun e he => hafter e (List.mem_reverse.1 he)⟩
    simp

end DeviceAuth.Dotenv
