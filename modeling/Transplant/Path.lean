import Transplant.Text.Basic

/-!
# Paths

Paths with `/` as separator, read into components.  Repeated and final separators and inner `.`
segments do not show in the components; a `.` at the very front does.  Normalisation resolves `.`
and `..` by looking at the components only.
-/

namespace Transplant

inductive Component where
  | root
  /-- A `.` at the front. -/
  | current
  /-- A `..` segment. -/
  | parent
  | name (text : Text)
  deriving DecidableEq, Repr

def Component.text : Component → Text
  | root => ['/']
  | current => ['.']
  | parent => ['.', '.']
  | name text => text

abbrev Path := List Component

namespace Path

/-- The component of a segment; empty and `.` segments have none. -/
def component? (segment : Text) : Option Component :=
  if segment = [] ∨ segment = ['.'] then none
  else if segment = ['.', '.'] then some .parent
  else some (.name segment)

def ofText (t : Text) : Path :=
  let segments := t.pieces '/'
  let front : Path :=
    match segments with
    | [] :: _ :: _ => [.root]
    | ['.'] :: _ => [.current]
    | _ => []
  front ++ segments.filterMap component?

def toText : Path → Text
  | .root :: rest => '/' :: Text.join ['/'] (rest.map Component.text)
  | path => Text.join ['/'] (path.map Component.text)

def isAbsolute (path : Path) : Bool :=
  path.head? = some .root

/-- A path seen from the directory `base`; an absolute path stays as it is. -/
def join (base path : Path) : Path :=
  if path.isAbsolute then path
  else if base.isEmpty then path
  else base ++ path.filter (· ≠ .current)

/-- The path without its last component; the root and the empty path have no parent. -/
def parent? (path : Path) : Option Path :=
  match path.getLast? with
  | none | some .root => none
  | some _ => some path.dropLast

def fileName? (path : Path) : Option Text :=
  match path.getLast? with
  | some (.name text) => some text
  | _ => none

/-- The part of a file name behind its last dot; a dot in front is part of the name. -/
def nameExtension? (name : Text) : Option Text :=
  match name.reverse.dropWhile (· ≠ '.') with
  | '.' :: _ :: _ => some (name.reverse.takeWhile (· ≠ '.')).reverse
  | _ => none

def extension? (path : Path) : Option Text :=
  path.fileName? >>= nameExtension?

/-- Appends a component to a normalised path.  A `..` takes back the name in front of it, stays
where there is nothing to take back, and is lost at the root. -/
def push (path : Path) : Component → Path
  | .current => path
  | .parent =>
    match path.getLast? with
    | none | some .parent => path ++ [.parent]
    | some .root => path
    | some _ => path.dropLast
  | component => path ++ [component]

def normalize (path : Path) : Path :=
  path.foldl push []

/-- The number of leading components that two paths share. -/
def shared : Path → Path → Nat
  | a :: as, b :: bs => if a = b then shared as bs + 1 else 0
  | _, _ => 0

/-- The way from a directory to a path: steps up, then the components below. -/
def wayTo (base path : Path) : Text :=
  let common := shared base path
  Text.join ['/']
    (List.replicate (base.length - common) ['.', '.'] ++ (path.drop common).map Component.text)

/-! ## Paths as they are spelled

Some paths are shown with the separators and `.` segments that they were given with.  Going up from
such a path only cuts its text. -/

/-- The root or the `.` at the front of a spelled path, and what follows it. -/
def splitFront (t : Text) : Text × Text :=
  match t with
  | '/' :: rest => (['/'], rest)
  | ['.'] => (['.'], [])
  | '.' :: '/' :: rest => (['.'], '/' :: rest)
  | _ => ([], t)

/-- The starts of a list of segments that end in a component, the shortest first. -/
def startsAtComponents : List Text → List (List Text)
  | [] => []
  | segment :: rest =>
    (if (component? segment).isSome then [[segment]] else []) ++
      (startsAtComponents rest).map (segment :: ·)

/-- The directories above a spelled path, the innermost first. -/
def above (t : Text) : List Text :=
  let (front, body) := splitFront t
  let starts := startsAtComponents (body.pieces '/')
  (starts.dropLast.reverse.map fun segments => front ++ Text.join ['/'] segments) ++
    (if starts.isEmpty then [] else [front]) ++
    (if front = ['.'] then [[]] else [])

def inside (directory name : Text) : Text :=
  if directory.isEmpty ∨ directory.getLast? = some '/' then directory ++ name
  else directory ++ '/' :: name

/-- The names of a path, without root, `.` and `..`. -/
def names (path : Path) : List Text :=
  path.filterMap fun
    | .name text => some text
    | _ => none

end Path

end Transplant
