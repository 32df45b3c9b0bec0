/-!
# Beginnings of texts

* `after?`: what follows a beginning, if a text has it. By `after?_eq_some_iff` it is what must be
  put behind the beginning to get the text.
-/

namespace AccessPolicy.Text

/-- What follows a beginning, if a text has it. -/
def after? : List Char → List Char → Option (List Char)
  | [], cs => some cs
  | _ :: _, [] => none
  | b :: bs, c :: cs => if b = c then after? bs cs else none

theorem after?_eq_some_iff {bs cs rest : List Char} :
    after? bs cs = some rest ↔ cs = bs ++ rest := by
  induction bs generalizing cs with
  | nil => simp [after?]
  | cons b bs ih =>
    cases cs with
    | nil => simp [after?]
    | cons c cs =>
      by_cases h : b = c
      · subst h; simp [after?, ih]
      · simp [after?, h, Ne.symm h]

end AccessPolicy.Text
