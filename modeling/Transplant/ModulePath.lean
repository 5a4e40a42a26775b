import Transplant.Text.Basic

/-!
# Module paths

The path by which one file imports another: steps up from the importing file's directory, then
down to the imported file, without the file's extension.  Both `/` and `\` separate segments.  The
computation looks at the spelling of the two paths only.
-/

namespace Transplant

namespace ModulePath

/-- A file name without its extension.  A dot in front is part of the name. -/
def stem (segment : Text) : Text :=
  match segment.reverse.dropWhile (· ≠ '.') with
  | '.' :: c :: rest => (c :: rest).reverse
  | _ => segment

/-- The segments of a path, without the extension of the last one. -/
def segments (path : Text) : List Text :=
  let all := (path.replaceChar '\\' '/').pieces '/'
  all.dropLast ++ all.getLast?.toList.map stem

/-- The directory part of a path, as text.  A file in the root directory and a file without a
directory have the same one. -/
def directory (segments : List Text) : Text :=
  Text.join ['/'] segments.dropLast

def shared : List Text → List Text → Nat
  | a :: as, b :: bs => if a = b then shared as bs + 1 else 0
  | _, _ => 0

/-- `count` steps up, or the mark of the same directory for none. -/
def climb (count : Nat) : Text :=
  if count = 0 then ['.'] else Text.join ['/'] (List.replicate count ['.', '.'])

/-- The path by which the file at `source` imports the file at `target`. -/
def relative (source target : Text) : Text :=
  let start := segments source
  let goal := segments target
  if directory start = directory goal then
    ['.', '/'] ++ goal.getLast?.getD []
  else
    let common := shared start goal
    -- The last segment of the importing path is the file itself and no step.
    let up := climb (start.length - common - 1)
    let down := Text.join ['/'] (goal.drop common)
    if down.isEmpty then up else up ++ '/' :: down

end ModulePath

structure ModulePaths where
  sourceToTarget : Text
  targetToSource : Text
  deriving DecidableEq, Repr

def ModulePaths.ofFiles (source target : Text) : ModulePaths :=
  { sourceToTarget := ModulePath.relative source target
    targetToSource := ModulePath.relative target source }

end Transplant
