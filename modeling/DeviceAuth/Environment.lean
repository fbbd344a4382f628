/-!
# DeviceAuth.Environment

Environments: variables in the order in which they were set.  Setting a variable again replaces
its value, so the last one counts.
-/

namespace DeviceAuth

/-- The variables of an environment, in the order of setting. -/
structure Environment where
  assignments : List (String × String)
  deriving DecidableEq, Repr, Inhabited

namespace Environment

/-- No variables. -/
def empty : Environment := ⟨[]⟩

/-- The value of a variable: the last one that was set. -/
def get? (e : Environment) (name : String) : Option String :=
  e.assignments.reverse.lookup name

/-- The environment with one more variable set. -/
def set (e : Environment) (name value : String) : Environment :=
  ⟨e.assignments ++ [(name, value)]⟩

@[simp]
theorem get?_empty (name : String) : empty.get? name = none := rfl

theorem get?_set (e : Environment) (name value other : String) :
    (e.set name value).get? other = if other = name then some value else e.get? other := by
  by_cases h : other = name
  · simp [get?, set, h]
  · have hb : (other == name) = false := by simpa using h
    simp [get?, set, List.lookup_cons, h, hb]

end Environment

end DeviceAuth
