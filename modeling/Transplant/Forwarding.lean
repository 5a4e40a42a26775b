import Transplant.Declaration.Marker
import Transplant.ExportList

/-!
# Forwarding

Whether the file that a declaration leaves goes on exporting its name, by forwarding it from the
file where the declaration now lives.
-/

namespace Transplant

inductive ForwardPolicy where
  | never
  /-- When the source exported it. -/
  | exported
  | always
  deriving DecidableEq, Repr

def ForwardPolicy.forwards (policy : ForwardPolicy) (source name : Text) (wasExported : Bool) :
    Bool :=
  match policy with
  | .never => false
  | .always => true
  | .exported => wasExported || listsLocally source name

/-- Replaces the local exports of a name by a forwarding one. -/
def replaceByForwarding (source name path : Text) : Text :=
  addForwarding (unlist source name) name path

/-- Whether the moved declaration carries an export marker: it did before, or the source still
needs it through an import or a forwarding export. -/
def needsExport (wasExported stillReferenced forwarded : Bool) : Bool :=
  wasExported || stillReferenced || forwarded

end Transplant
