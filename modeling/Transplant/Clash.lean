import Transplant.Declaration.Listing

/-!
# Name clashes

What happens when the destination already declares the name that is moved there.
-/

namespace Transplant

inductive ClashPolicy where
  /-- Refuse the move. -/
  | abort
  /-- Move, with a warning above the copy. -/
  | annotate
  /-- Ask first; a refusal aborts. -/
  | ask
  deriving DecidableEq, Repr

/-- How a move goes on after the check for a clash. -/
inductive ClashDecision where
  | noClash
  /-- Go on, with a warning above the copy. -/
  | annotate
  | abort
  deriving DecidableEq, Repr

/-- The warning above a copy whose name clashes. -/
def clashMarker (name : Text) : Text :=
  "// WARNING: Duplicate symbol \"".toList ++ name ++ "\" below".toList

/-- Decides about a clash of a declaration with a text; `confirm` answers for the policy that
asks. -/
def checkClash (target name : Text) (kind : Option Kind) (policy : ClashPolicy)
    (confirm : Text → Bool) : ClashDecision :=
  if clashesWith target name kind then
    match policy with
    | .abort => .abort
    | .annotate => .annotate
    | .ask => if confirm name then .annotate else .abort
  else .noClash

def clashQuestions (target name : Text) (kind : Option Kind) (policy : ClashPolicy) :
    List Text :=
  if policy = .ask ∧ clashesWith target name kind then [name] else []

end Transplant
