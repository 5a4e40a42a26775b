import Transplant.Text.Lowercase

/-!
# The order of names in a list

Names are sorted without regard to case; names that differ only in case are sorted by code points.
-/

namespace Transplant

/-- Order by lower case, then by code points. -/
def nameLe (a b : Text) : Bool :=
  if a.lower = b.lower then a.le b else a.lower.le b.lower

def inNameOrder (names : List Text) : List Text :=
  names.mergeSort nameLe

/-- Sorting keeps the names, each as often as it occurs. -/
theorem inNameOrder_perm (names : List Text) : (inNameOrder names).Perm names :=
  List.mergeSort_perm names nameLe

end Transplant
