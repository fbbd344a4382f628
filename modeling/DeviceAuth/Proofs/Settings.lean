import DeviceAuth.Proofs.Dotenv
import DeviceAuth.Proofs.Text
import DeviceAuth.Token.Lifetime

/-!
# DeviceAuth.Proofs.Settings

What lookups depend on.  Settings read from a dotenv text look variables up in the environment that
is put over their entries, but the entries were made under the environment of the process: a
reference in the text has taken its value from there.  A lookup is isolated from the process exactly
when no such reference stands in the template that decides it (`isolated_iff`).
-/

namespace DeviceAuth.Environment

/-- A name that a process can give a variable, by the documented rule of the lookup of one: an empty
name, or one with `=` or a NUL in it, is never present.  The C library below that lookup can answer
for some names with `=`; its answers are not modelled. -/
def Settable (name : String) : Prop :=
  name ≠ "" ∧ '=' ∉ name.toList ∧ Char.ofNat 0 ∉ name.toList

instance (name : String) : Decidable (Settable name) :=
  inferInstanceAs (Decidable (name ≠ "" ∧ '=' ∉ name.toList ∧ Char.ofNat 0 ∉ name.toList))

/-- An environment that a process can have. -/
def OfProcess (e : Environment) : Prop :=
  ∀ a ∈ e.assignments, Settable a.1

theorem get?_of_not_settable {e : Environment} (he : e.OfProcess) {name : String}
    (h : ¬ Settable name) : e.get? name = none := by
  rw [get?, List.lookup_eq_none_iff]
  intro a ha
  have hname : name ≠ a.1 := by
    rintro rfl
    exact h (he a (List.mem_reverse.1 ha))
  simpa using hname

/-- The environment that gives some names one value. -/
def same (names : List String) (value : String) : Environment :=
  ⟨names.map fun name => (name, value)⟩

theorem get?_same {names : List String} {name : String} (h : name ∈ names) (value : String) :
    (same names value).get? name = some value := by
  rw [get?]
  cases hlookup : (same names value).assignments.reverse.lookup name with
  | none =>
    rw [List.lookup_eq_none_iff] at hlookup
    have hmem : (name, value) ∈ (same names value).assignments := List.mem_map_of_mem h
    have hne := hlookup _ (List.mem_reverse.2 hmem)
    simp at hne
  | some v =>
    obtain ⟨before, after, hsplit, -⟩ := List.lookup_eq_some_iff.1 hlookup
    have hmem : (name, v) ∈ (same names value).assignments.reverse := by
      rw [hsplit]
      exact List.mem_append_right _ List.mem_cons_self
    obtain ⟨other, -, hother⟩ := List.mem_map.1 (List.mem_reverse.1 hmem)
    rw [← (Prod.mk.inj hother).2]

end DeviceAuth.Environment

namespace DeviceAuth.Dotenv

/-! ## References to variables of a process -/

/-- A template refers to a variable that a process can set. -/
def Live (t : List Piece) : Prop :=
  ∃ n, .reference n ∈ t ∧ Environment.Settable (.ofList n)

/-- The names of the variables that a process can set to which a template refers. -/
def liveNames (t : List Piece) : List String :=
  t.filterMap fun
    | .char _ => none
    | .reference n => if Environment.Settable (.ofList n) then some (.ofList n) else none

theorem mem_liveNames {t : List Piece} {name : String} :
    name ∈ liveNames t ↔
      ∃ n, .reference n ∈ t ∧ Environment.Settable (.ofList n) ∧ .ofList n = name := by
  rw [liveNames, List.mem_filterMap]
  constructor
  · rintro ⟨p, hp, h⟩
    cases p with
    | char c => contradiction
    | reference n =>
      dsimp only at h
      split_ifs at h with hsettable
      exact ⟨n, hp, hsettable, Option.some.inj h⟩
  · rintro ⟨n, hn, hsettable, rfl⟩
    exact ⟨_, hn, if_pos hsettable⟩

/-- The characters of a name in an assignment are such that a process can set it. -/
theorem Named.settable {name : String} (h : Named name) : Environment.Settable name :=
  ⟨h.1, fun hc => absurd (h.2 _ hc) (by decide), fun hc => absurd (h.2 _ hc) (by decide)⟩

/-- What no process can set and no line assigns is empty. -/
theorem valueOf_of_not_settable {process : Environment} (hprocess : process.OfProcess)
    {known : List Entry} (hknown : ∀ e ∈ known, Environment.Settable e.1) {n : List Char}
    (hn : ¬ Environment.Settable (.ofList n)) : valueOf process known n = [] := by
  have hlookup : known.lookup (.ofList n) = none := by
    rw [List.lookup_eq_none_iff]
    intro e he
    have hname : String.ofList n ≠ e.1 := by
      intro heq
      exact hn (heq ▸ hknown e he)
    simpa using hname
  rw [valueOf, Environment.get?_of_not_settable hprocess hn]
  dsimp only
  rw [hlookup]
  rfl

/-- Without live references, no environment matters. -/
theorem expand_of_not_live {t : List Piece} (ht : ¬ Live t) {process : Environment}
    (hprocess : process.OfProcess) {known : List Entry}
    (hknown : ∀ e ∈ known, Environment.Settable e.1) :
    expand (valueOf process known) t = expand (fun _ => []) t := by
  refine expand_congr fun n hn => valueOf_of_not_settable hprocess hknown fun hsettable => ?_
  exact ht ⟨n, hn, hsettable⟩

/-- A process can set all live references. -/
theorem ofProcess_same (t : List Piece) (value : String) :
    (Environment.same (liveNames t) value).OfProcess := by
  intro a ha
  obtain ⟨name, hname, rfl⟩ := List.mem_map.1 ha
  obtain ⟨n, -, hsettable, rfl⟩ := mem_liveNames.1 hname
  exact hsettable

/-- The values of variables where all that a process can set are one text. -/
def uniform (value : String) (n : List Char) : List Char :=
  if Environment.Settable (.ofList n) then value.toList else []

/-- Where the process sets all live references to one text, each becomes that text. -/
theorem expand_same (t : List Piece) (value : String) {known : List Entry}
    (hknown : ∀ e ∈ known, Environment.Settable e.1) :
    expand (valueOf (.same (liveNames t) value) known) t = expand (uniform value) t := by
  refine expand_congr fun n hn => ?_
  by_cases hsettable : Environment.Settable (.ofList n)
  · have hmem : String.ofList n ∈ liveNames t := mem_liveNames.2 ⟨n, hn, hsettable, rfl⟩
    rw [valueOf, Environment.get?_same hmem, uniform, if_pos hsettable]
  · rw [valueOf_of_not_settable (ofProcess_same t value) hknown hsettable, uniform,
      if_neg hsettable]

end DeviceAuth.Dotenv

namespace DeviceAuth.Settings

/-! ## Integers -/

/-- A setting has a value, and it writes an integer. -/
def Sets (s : Settings) (name : String) (n : Int) : Prop :=
  ∃ v, s.get? name = some v ∧ Text.Writes v.toList n

/-- What a setting writes is read from its value. -/
theorem sets_iff {s : Settings} {name : String} {n : Int} :
    s.Sets name n ↔
      ((s.get? name).bind fun v => Text.readInt64? (Text.trim v.toList)) = some n := by
  simp only [Sets, Option.bind_eq_some_iff, Text.readInt64?_trim_eq_some_iff]

/-- The integer of a setting is the one that it writes, or the default if it writes none. -/
theorem value_getIntD_eq_iff {s : Settings} {name : String} {default n : Int} :
    (s.getIntD name default).value = n ↔
      s.Sets name n ∨ ((∀ m, ¬ s.Sets name m) ∧ n = default) := by
  have hvalue : (s.getIntD name default).value =
      ((s.get? name).bind fun v => Text.readInt64? (Text.trim v.toList)).getD default := by
    unfold getIntD
    cases s.get? name with
    | none => rfl
    | some v =>
      dsimp only
      rw [Option.bind_some]
      cases Text.readInt64? (Text.trim v.toList) <;> rfl
  rw [hvalue]
  simp only [sets_iff]
  cases (s.get? name).bind fun v => Text.readInt64? (Text.trim v.toList) with
  | none => simp [eq_comm]
  | some m => simp

/-! ## Isolation from the process -/

/-- No environment that the process can have changes a lookup in the settings of a text, once other
variables are put over them. -/
def Isolated (text : List UInt8) (vars : Environment) (name : String) : Prop :=
  ∀ p q : Environment, p.OfProcess → q.OfProcess →
    ((ofDotenv p text).value.withEnvironment vars).get? name =
      ((ofDotenv q text).value.withEnvironment vars).get? name

/-- A variable that is not empty decides. -/
theorem get?_withEnvironment_of_some {vars : Environment} {name v : String}
    (h : vars.get? name = some v) (hv : v ≠ "") (s : Settings) :
    (s.withEnvironment vars).get? name = some v := by
  rw [get?, fromEnvironment?, withEnvironment]
  dsimp only
  rw [h, Option.filter_some, if_pos (by simpa using hv)]
  rfl

/-- Otherwise the entries do. -/
theorem get?_withEnvironment_of_empty {vars : Environment} {name : String}
    (h : ∀ v, vars.get? name = some v → v = "") (s : Settings) :
    (s.withEnvironment vars).get? name = s.entries.lookup name := by
  rw [get?, fromEnvironment?, withEnvironment]
  dsimp only
  cases hget : vars.get? name with
  | none => rfl
  | some v =>
    rw [h v hget]
    rfl

/-- The entry of a name that is assigned, in the settings of a text. -/
theorem exists_lookup_ofDotenv {text : List UInt8} {name : String} {t : List Dotenv.Piece}
    (h : (Dotenv.assignments (Dotenv.parse text)).lookup name = some t) (p : Environment) :
    ∃ before : List Dotenv.Entry, (∀ e ∈ before, Environment.Settable e.1) ∧
      (ofDotenv p text).value.entries.lookup name =
        some (.ofList (Dotenv.expand (Dotenv.valueOf p before) t)) := by
  have hnames : ∀ a ∈ Dotenv.assignments (Dotenv.parse text), Environment.Settable a.1 :=
    fun a ha => (Dotenv.named_of_mem_parseLines ha).settable
  rw [ofDotenv, Dotenv.read_eq_evaluate]
  exact Dotenv.lookup_evaluate_of_some h hnames fun e he => nomatch he

/-- A lookup is isolated exactly when a variable decides it, or else the first template that the
text assigns to its name has no live reference. -/
theorem isolated_iff_not_live {text : List UInt8} {vars : Environment} {name : String} :
    Isolated text vars name ↔ (∃ v, vars.get? name = some v ∧ v ≠ "") ∨
      ∀ t, (Dotenv.assignments (Dotenv.parse text)).lookup name = some t → ¬ Dotenv.Live t := by
  by_cases hdecides : ∃ v, vars.get? name = some v ∧ v ≠ ""
  · obtain ⟨v, hget, hv⟩ := hdecides
    refine ⟨fun _ => .inl ⟨v, hget, hv⟩, fun _ p q _ _ => ?_⟩
    rw [get?_withEnvironment_of_some hget hv, get?_withEnvironment_of_some hget hv]
  have hempty : ∀ v, vars.get? name = some v → v = "" :=
    fun v hv => Classical.not_not.1 fun hne => hdecides ⟨v, hv, hne⟩
  unfold Isolated
  simp only [get?_withEnvironment_of_empty hempty]
  rw [or_iff_right hdecides]
  constructor
  · -- one letter for all live references, or two, make values of different lengths
    rintro h t ht ⟨n, hn, hsettable⟩
    have hprocess : ∀ value, (Environment.same (Dotenv.liveNames t) value).OfProcess :=
      fun value => Dotenv.ofProcess_same t value
    obtain ⟨before, hbefore, hp⟩ := exists_lookup_ofDotenv ht (.same (Dotenv.liveNames t) "a")
    obtain ⟨before', hbefore', hq⟩ := exists_lookup_ofDotenv ht (.same (Dotenv.liveNames t) "aa")
    have heq := h _ _ (hprocess "a") (hprocess "aa")
    rw [hp, hq, Dotenv.expand_same t "a" hbefore, Dotenv.expand_same t "aa" hbefore',
      Option.some.injEq, String.ofList_inj] at heq
    have hlt : (Dotenv.expand (Dotenv.uniform "a") t).length <
        (Dotenv.expand (Dotenv.uniform "aa") t).length := by
      unfold Dotenv.uniform
      refine Dotenv.length_expand_lt (fun m => ?_) hn ?_
      · split_ifs <;> decide
      · rw [if_pos hsettable, if_pos hsettable]
        decide
    rw [heq] at hlt
    exact absurd hlt (Nat.lt_irrefl _)
  · intro h p q hp hq
    cases ht : (Dotenv.assignments (Dotenv.parse text)).lookup name with
    | none =>
      rw [ofDotenv, ofDotenv, Dotenv.read_eq_evaluate, Dotenv.read_eq_evaluate]
      dsimp only
      rw [Dotenv.lookup_evaluate_of_none ht, Dotenv.lookup_evaluate_of_none ht]
    | some t =>
      obtain ⟨before, hbefore, hlookup⟩ := exists_lookup_ofDotenv ht p
      obtain ⟨before', hbefore', hlookup'⟩ := exists_lookup_ofDotenv ht q
      rw [hlookup, hlookup', Dotenv.expand_of_not_live (h t ht) hp hbefore,
        Dotenv.expand_of_not_live (h t ht) hq hbefore']

/-- The records of a text do not depend on the process. -/
theorem records_ofDotenv (text : List UInt8) (p q : Environment) :
    (ofDotenv p text).records = (ofDotenv q text).records := by
  rw [ofDotenv, ofDotenv, Dotenv.read_eq_evaluate, Dotenv.read_eq_evaluate]
  exact congrArg (List.map skippedLine) (Dotenv.faults_evaluate p q [] [] (Dotenv.parse text))

/-- Processes that agree on the variables to which a text refers give the same entries. -/
theorem entries_ofDotenv_congr {text : List UInt8} {p q : Environment}
    (h : ∀ a ∈ Dotenv.assignments (Dotenv.parse text), ∀ n, .reference n ∈ a.2 →
      p.get? (.ofList n) = q.get? (.ofList n)) :
    (ofDotenv p text).value.entries = (ofDotenv q text).value.entries := by
  rw [ofDotenv, ofDotenv, Dotenv.read_eq_evaluate, Dotenv.read_eq_evaluate,
    Dotenv.evaluate_congr h]

/-- Lifetimes depend on the lookups of their settings and on nothing else. -/
theorem ofSettings_congr {s s' : Settings}
    (h : ∀ k : Token.Expiring, s.get? k.setting = s'.get? k.setting) :
    Token.Lifetimes.ofSettings s = Token.Lifetimes.ofSettings s' := by
  have hduration : ∀ k, Token.Lifetimes.durationOf s k = Token.Lifetimes.durationOf s' k := by
    intro k
    rw [Token.Lifetimes.durationOf, Token.Lifetimes.durationOf, getIntD, getIntD, h k]
  simp only [Token.Lifetimes.ofSettings, hduration]

/-- Isolation from the process, exactly.  Under explicit variables, and so in detached settings, no
process changes a lookup exactly when a variable decides it or the first template that the text
assigns to its name has no live reference.  In any case the records are the same; processes that
agree on the references give the same lookups; and where the three lifetimes are isolated, what
comes of them does not depend on the process. -/
theorem isolated_iff (text : List UInt8) :
    (∀ vars name, Isolated text vars name ↔ (∃ v, vars.get? name = some v ∧ v ≠ "") ∨
      ∀ t, (Dotenv.assignments (Dotenv.parse text)).lookup name = some t → ¬ Dotenv.Live t) ∧
    (∀ name, (∀ p q : Environment, p.OfProcess → q.OfProcess →
        (ofDotenv p text).value.detached.get? name = (ofDotenv q text).value.detached.get? name) ↔
      ∀ t, (Dotenv.assignments (Dotenv.parse text)).lookup name = some t → ¬ Dotenv.Live t) ∧
    (∀ p q : Environment, (ofDotenv p text).records = (ofDotenv q text).records) ∧
    (∀ p q : Environment,
      (∀ a ∈ Dotenv.assignments (Dotenv.parse text), ∀ n, .reference n ∈ a.2 →
        p.get? (.ofList n) = q.get? (.ofList n)) →
      ∀ vars, (ofDotenv p text).value.withEnvironment vars =
        (ofDotenv q text).value.withEnvironment vars) ∧
    (∀ vars, (∀ k : Token.Expiring, Isolated text vars k.setting) →
      ∀ p q : Environment, p.OfProcess → q.OfProcess →
        Token.Lifetimes.ofSettings ((ofDotenv p text).value.withEnvironment vars) =
          Token.Lifetimes.ofSettings ((ofDotenv q text).value.withEnvironment vars)) := by
  refine ⟨fun vars name => isolated_iff_not_live, fun name => ?_, records_ofDotenv text,
    fun p q hagree vars => ?_, fun vars hisolated p q hp hq => ?_⟩
  · have hnone : ¬ ∃ v, Environment.empty.get? name = some v ∧ v ≠ "" :=
      fun ⟨v, hv, _⟩ => nomatch hv
    exact isolated_iff_not_live.trans (or_iff_right hnone)
  · rw [withEnvironment, withEnvironment, entries_ofDotenv_congr hagree]
  · exact ofSettings_congr fun k => hisolated k p q hp hq

/-- A text with a lifetime that refers to a variable. -/
def referringText : String := "TOKENSMITH_SESSION_TTL_SECS=$TTL\n"

/-- The process of a detached text decides how long its sessions last. -/
theorem detached_session_of_process :
    (⟨[("TTL", "90")]⟩ : Environment).OfProcess ∧ Environment.empty.OfProcess ∧
    (ofDotenv ⟨[("TTL", "90")]⟩ (Text.Utf8.encode referringText)).value.detached.get?
      "TOKENSMITH_SESSION_TTL_SECS" = some "90" ∧
    (ofDotenv .empty (Text.Utf8.encode referringText)).value.detached.get?
      "TOKENSMITH_SESSION_TTL_SECS" = some "" ∧
    ((Token.Lifetimes.ofSettings (ofDotenv ⟨[("TTL", "90")]⟩
      (Text.Utf8.encode referringText)).value.detached).value.toOption.map
        fun l => l.session.seconds) = some 90 ∧
    ((Token.Lifetimes.ofSettings (ofDotenv .empty
      (Text.Utf8.encode referringText)).value.detached).value.toOption.map
        fun l => l.session.seconds) = some 3600 := by
  refine ⟨?_, ?_, ?_⟩
  · intro a ha
    rw [List.mem_singleton.1 ha]
    decide +kernel
  · exact fun a ha => absurd ha List.not_mem_nil
  · decide +kernel

/-- Quotes and a backslash make a dollar sign stand for itself. -/
example : Dotenv.template "'$A'\\$B".toList = .ok ("$A$B".toList.map .char) := by
  decide

end DeviceAuth.Settings
