import DeviceAuth.Proofs.Dotenv.Lines
import DeviceAuth.Proofs.Settings

/-!
# DeviceAuth.Proofs.Settings.Layers

Lookups in settings that were built in any way.  Settings are read from a dotenv text, and then
their environment is replaced any number of times.  What a lookup gives (`Answers`) is said with the
two layers alone: in an environment the last assignment of a name counts, among the entries the
first one, and an environment's empty value counts as none.

* `Environment.get?_eq_some_iff` — the last assignment of a name, declaratively;
* `after_append_singleton` — of several environments the last one stays, without a trace of others;
* `get?_iff_answers` — a lookup against `Answers`;
* `get?_after_exact` — all of it, with a text that may be put in between.
-/

namespace DeviceAuth.Environment

/-- The last assignment of a name gives it a value. -/
def Gives (e : Environment) (name v : String) : Prop :=
  ∃ before after, e.assignments = before ++ (name, v) :: after ∧ ∀ a ∈ after, a.1 ≠ name

theorem get?_eq_some_iff {e : Environment} {name v : String} :
    e.get? name = some v ↔ e.Gives name v := by
  have hne : ∀ a : String × String, (name != a.1) = true ↔ a.1 ≠ name := by
    intro a
    rw [bne_iff_ne, ne_comm]
  rw [get?, List.lookup_eq_some_iff]
  simp only [hne]
  constructor
  · rintro ⟨later, earlier, hsplit, hlater⟩
    refine ⟨earlier.reverse, later.reverse, ?_, ?_⟩
    · rw [List.reverse_eq_iff.1 hsplit]
      simp
    · exact fun a ha => hlater a (List.mem_reverse.1 ha)
  · rintro ⟨before, after, hsplit, hafter⟩
    refine ⟨after.reverse, before.reverse, ?_, fun a ha => hafter a (List.mem_reverse.1 ha)⟩
    rw [hsplit]
    simp

end DeviceAuth.Environment

namespace DeviceAuth.Settings

/-! ## Environments one after the other -/

/-- A call that puts an environment in the place of the one that settings have. -/
inductive Call where
  | withEnvironment (vars : Environment)
  | detached
  deriving DecidableEq, Repr

/-- The settings that a call makes. -/
def Call.apply (s : Settings) : Call → Settings
  | .withEnvironment vars => s.withEnvironment vars
  | .detached => s.detached

/-- The settings after some calls, in order. -/
def after (s : Settings) (calls : List Call) : Settings :=
  calls.foldl Call.apply s

/-- The variables of a call. -/
def Call.variables : Call → Environment
  | .withEnvironment vars => vars
  | .detached => .empty

/-- The variables of the last call, or those of the process if there is none. -/
def deciding (process : Environment) (calls : List Call) : Environment :=
  (calls.getLast?.map Call.variables).getD process

/-- A call replaces the environment and nothing else. -/
theorem Call.apply_eq (s : Settings) (c : Call) : c.apply s = ⟨c.variables, s.entries⟩ := by
  cases c <;> rfl

/-- No call changes the entries. -/
theorem entries_after (s : Settings) (calls : List Call) : (s.after calls).entries = s.entries := by
  induction calls generalizing s with
  | nil => rfl
  | cons c calls ih => rw [after, List.foldl_cons, ← after, ih, c.apply_eq]

/-- The last call leaves no trace of those before it. -/
theorem after_append_singleton (s : Settings) (calls : List Call) (c : Call) :
    s.after (calls ++ [c]) = c.apply s := by
  rw [after, List.foldl_append, List.foldl_cons, List.foldl_nil, ← after, c.apply_eq, c.apply_eq,
    entries_after]

/-- Settings after some calls are their entries under the environment that decides. -/
theorem after_eq (s : Settings) (calls : List Call) :
    s.after calls = ⟨deciding s.environment calls, s.entries⟩ := by
  rcases List.eq_nil_or_concat calls with rfl | ⟨before, c, rfl⟩
  · rfl
  · rw [List.concat_eq_append, after_append_singleton, c.apply_eq, deciding, List.getLast?_concat]
    rfl

/-! ## Lookups -/

/-- What a lookup gives, from an environment and what was read from a text: the value that the
environment gives the name last, if that is not empty, and otherwise the first entry of the name. -/
inductive Answers (vars : Environment) (rs : List (Except Dotenv.Fault Dotenv.Entry))
    (name : String) : Option String → Prop
  | given {v : String} (h : vars.Gives name v) (hv : v ≠ "") : Answers vars rs name (some v)
  | entry {v : String} (hvars : ∀ w, vars.Gives name w → w = "")
    (h : Dotenv.FirstEntry rs name v) : Answers vars rs name (some v)
  | missing (hvars : ∀ w, vars.Gives name w → w = "")
    (h : ∀ v, ¬ Dotenv.FirstEntry rs name v) : Answers vars rs name none

/-- Where the environment does not decide, the first entry does. -/
theorem answers_of_empty {vars : Environment} {rs : List (Except Dotenv.Fault Dotenv.Entry)}
    {name : String} (hvars : ∀ w, vars.Gives name w → w = "") :
    Answers vars rs name ((Dotenv.entries rs).lookup name) := by
  cases h : (Dotenv.entries rs).lookup name with
  | some v => exact .entry hvars (Dotenv.lookup_entries_eq_some_iff.1 h)
  | none =>
    refine .missing hvars fun v hv => ?_
    rw [Dotenv.lookup_entries_eq_some_iff.2 hv] at h
    contradiction

/-- There is one answer. -/
theorem Answers.unique {vars : Environment} {rs : List (Except Dotenv.Fault Dotenv.Entry)}
    {name : String} {r r' : Option String} (h : Answers vars rs name r)
    (h' : Answers vars rs name r') : r = r' := by
  have hvalue : ∀ {v w}, vars.Gives name v → vars.Gives name w → v = w := by
    intro v w hv hw
    rw [← Environment.get?_eq_some_iff] at hv hw
    exact Option.some.inj (hv.symm.trans hw)
  have hentry : ∀ {v w}, Dotenv.FirstEntry rs name v → Dotenv.FirstEntry rs name w → v = w := by
    intro v w hv hw
    rw [← Dotenv.lookup_entries_eq_some_iff] at hv hw
    exact Option.some.inj (hv.symm.trans hw)
  cases h with
  | given hv hne =>
    cases h' with
    | given hw _ => rw [hvalue hv hw]
    | entry hempty _ | missing hempty _ => exact absurd (hempty _ hv) hne
  | entry hempty hv =>
    cases h' with
    | given hw hne => exact absurd (hempty _ hw) hne
    | entry _ hw => rw [hentry hv hw]
    | missing _ hnone => exact absurd hv (hnone _)
  | missing hempty hnone =>
    cases h' with
    | given hw hne => exact absurd (hempty _ hw) hne
    | entry _ hw => exact absurd hw (hnone _)
    | missing _ _ => rfl

/-- A lookup gives the answer that the two layers have. -/
theorem get?_iff_answers {vars : Environment} {rs : List (Except Dotenv.Fault Dotenv.Entry)}
    {name : String} {r : Option String} :
    (Settings.mk vars (Dotenv.entries rs)).get? name = r ↔ Answers vars rs name r := by
  have hget : Answers vars rs name ((Settings.mk vars (Dotenv.entries rs)).get? name) := by
    by_cases hdecides : ∃ v, vars.Gives name v ∧ v ≠ ""
    · obtain ⟨v, hv, hne⟩ := hdecides
      have hsome := get?_withEnvironment_of_some (Environment.get?_eq_some_iff.2 hv) hne
        ⟨vars, Dotenv.entries rs⟩
      rw [withEnvironment] at hsome
      rw [hsome]
      exact .given hv hne
    · have hempty : ∀ w, vars.Gives name w → w = "" :=
        fun w hw => Classical.not_not.1 fun hne => hdecides ⟨w, hw, hne⟩
      have hentry := get?_withEnvironment_of_empty
        (fun w hw => hempty w (Environment.get?_eq_some_iff.1 hw)) ⟨vars, Dotenv.entries rs⟩
      rw [withEnvironment] at hentry
      rw [hentry]
      exact answers_of_empty hempty
  constructor
  · rintro rfl
    exact hget
  · exact fun h => hget.unique h

/-- Lookups in settings built in any way, exactly.  After any calls a lookup in the settings of a
text gives what the last call's variables, or without a call those of the process, and the entries
of the text answer.  The last call leaves no trace of others, the entries never change, and a whole
text that makes no entry on its own, such as a line that is refused, changes no lookup where it is
put between two lines. -/
theorem get?_after_exact (process : Environment) (text : List UInt8) :
    (∀ calls name r, ((ofDotenv process text).value.after calls).get? name = r ↔
      Answers (deciding process calls) (Dotenv.read process text) name r) ∧
    (∀ calls c, (ofDotenv process text).value.after (calls ++ [c]) =
      c.apply (ofDotenv process text).value) ∧
    (∀ calls, ((ofDotenv process text).value.after calls).entries =
      (ofDotenv process text).value.entries) ∧
    (∀ a m b, text = a ++ b → Dotenv.Whole a → Dotenv.Whole m →
      Dotenv.entries (Dotenv.read process m) = [] →
      ∀ calls name, ((ofDotenv process (a ++ m ++ b)).value.after calls).get? name =
        ((ofDotenv process text).value.after calls).get? name) := by
  refine ⟨fun calls name r => ?_, fun calls c => after_append_singleton _ calls c,
    fun calls => entries_after _ calls, ?_⟩
  · rw [after_eq]
    exact get?_iff_answers
  · rintro a m b rfl ha hm hnone calls name
    rw [ofDotenv, ofDotenv]
    dsimp only
    rw [Dotenv.entries_read_insert ha hm hnone]

/-- Two environments, of which the last sets one name twice and then to nothing. -/
def twoCalls : List Call :=
  [.withEnvironment ⟨[("A", "old")]⟩, .withEnvironment ⟨[("A", "x"), ("B", "y"), ("A", "")]⟩]

/-- A line that is refused, put between two lines of a name that the last environment leaves empty:
the first line still decides that name, and the environment the other. -/
theorem get?_after_exact_refused_line :
    Dotenv.Whole (Text.Utf8.encode "A=1\n") ∧ Dotenv.Whole (Text.Utf8.encode "A=\"2\" 3\n") ∧
    Dotenv.entries (Dotenv.read .empty (Text.Utf8.encode "A=\"2\" 3\n")) = [] ∧
    ((ofDotenv .empty (Text.Utf8.encode "A=1\n" ++ Text.Utf8.encode "A=\"2\" 3\n" ++
      Text.Utf8.encode "A=4\nB=5\n")).value.after twoCalls).get? "A" = some "1" ∧
    ((ofDotenv .empty (Text.Utf8.encode "A=1\n" ++ Text.Utf8.encode "A=\"2\" 3\n" ++
      Text.Utf8.encode "A=4\nB=5\n")).value.after twoCalls).get? "B" = some "y" := by
  have hbefore : Dotenv.Whole (Text.Utf8.encode "A=1\n") := by decide +kernel
  have hline : Dotenv.Whole (Text.Utf8.encode "A=\"2\" 3\n") := by decide +kernel
  have hnone : Dotenv.entries (Dotenv.read .empty (Text.Utf8.encode "A=\"2\" 3\n")) = [] := by
    decide +kernel
  have hread : Dotenv.read .empty (Text.Utf8.encode "A=1\n" ++ Text.Utf8.encode "A=4\nB=5\n") =
      [.ok ("A", "1"), .ok ("A", "4"), .ok ("B", "5")] := by
    decide +kernel
  obtain ⟨hanswers, -, -, hinsert⟩ := get?_after_exact .empty
    (Text.Utf8.encode "A=1\n" ++ Text.Utf8.encode "A=4\nB=5\n")
  have hempty : ∀ w, (deciding .empty twoCalls).Gives "A" w → w = "" := by
    intro w hw
    rw [← Environment.get?_eq_some_iff] at hw
    exact (Option.some.inj hw).symm
  refine ⟨hbefore, hline, hnone, ?_, ?_⟩
  · rw [hinsert _ _ _ rfl hbefore hline hnone, hanswers, hread]
    exact .entry hempty ⟨[], _, rfl, fun e he => nomatch he⟩
  · rw [hinsert _ _ _ rfl hbefore hline hnone, hanswers]
    exact .given ⟨[("A", "x")], [("A", "")], rfl, by decide⟩ (by decide)

end DeviceAuth.Settings
