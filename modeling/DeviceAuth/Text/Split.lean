/-!
# DeviceAuth.Text.Split

Cutting a text at separator characters.  There is one piece more than there are separators, so
the pieces of the empty text are one empty piece.
-/

namespace DeviceAuth.Text

/-- The pieces between the characters that satisfy `p`. -/
def splitWhere (p : Char → Bool) : List Char → List (List Char)
  | [] => [[]]
  | c :: r =>
    if p c then [] :: splitWhere p r
    else
      match splitWhere p r with
      | l :: ls => (c :: l) :: ls
      | [] => [[c]]

theorem splitWhere_ne_nil (p : Char → Bool) (cs : List Char) : splitWhere p cs ≠ [] := by
  induction cs with
  | nil => simp [splitWhere]
  | cons c r ih =>
    rw [splitWhere]
    split
    · simp
    · split <;> simp

end DeviceAuth.Text
