import Transplant.Declaration.Listing
import Transplant.Declaration.Use
import Transplant.ModulePath

/-!
# Linking two files

After a declaration has moved, the source imports it from the target if it still uses it, and the
target imports from the source what the moved code uses of it: every name that the source declares
and the target neither declares nor imports.
-/

namespace Transplant

/-- The two texts of a move with the imports that link them. -/
structure Links where
  source : Text
  target : Text
  paths : ModulePaths
  /-- Whether the source imports the moved name. -/
  sourceImported : Bool
  /-- The names that the target imports back from the source. -/
  carried : List Text
  deriving DecidableEq, Repr

/-- The names that a target has to import from a source to use them in `code`. -/
def carriedNames (symbol source target code : Text) : List Text :=
  let locals := namesDeclared target
  let imported := namesImported target
  (usedNames code).filter fun name =>
    name ≠ symbol && !locals.contains name && !imported.contains name && declaresTop source name

/-- Links the two texts of a move.  Names are carried for the moved code, or for the whole target
if no code is given. -/
def link (sourcePath targetPath symbol source target : Text) (moved : Option Text) : Links :=
  let paths := ModulePaths.ofFiles sourcePath targetPath
  let sourceImported := uses source symbol && !declaresTop source symbol
  let carried := carriedNames symbol source target (moved.getD target)
  { source := if sourceImported then addImport source symbol paths.sourceToTarget else source
    target := carried.foldl (fun text name => addImport text name paths.targetToSource) target
    paths, sourceImported, carried }

end Transplant
