import Transplant.Ignore.Rules
import Transplant.NameOrder

/-!
# Browsing for a destination

The destinations offered for a move: the directory above, the directories and source files of the
listed directory, and a new file.  Listings never go above a limit, by default the directory of
the current file.  Destinations are written relative to the directory of the current file.
-/

namespace Transplant.Browse

inductive DestinationKind where
  | parent
  | directory
  | file
  | new
  deriving DecidableEq, Repr

def DestinationKind.word : DestinationKind → String
  | parent => "parent"
  | directory => "directory"
  | file => "file"
  | new => "new"

structure Destination where
  kind : DestinationKind
  label : Text
  description : Text
  /-- The way there from the directory of the current file. -/
  relativePath : Text
  deriving DecidableEq, Repr

/-- What to list. -/
structure Query where
  /-- The current file. -/
  file : Text
  /-- The listed directory, seen from the directory of the current file. -/
  directory : Text
  search : Text
  /-- The directory above which no listing goes. -/
  root : Option Text
  extensions : List Text
  defaultTarget : Text

/-- Whether a name has one of the extensions. -/
def hasExtensionIn (name : Text) (extensions : List Text) : Bool :=
  match (Path.ofText name).extension? with
  | some extension => extensions.contains extension
  | none => false

/-- The text in front of the last dot, if there is a dot behind the first character and no
separator follows it. -/
def beforeDot? (name : Text) : Option Text :=
  let behind := name.reverse.takeWhile (· ≠ '.')
  match name.reverse.dropWhile (· ≠ '.') with
  | '.' :: c :: rest => if behind.contains '/' then none else some (c :: rest).reverse
  | _ => none

/-- The name of a new file.  Without an input it is the default; an unknown extension is replaced
and a missing one added. -/
def freshName (search defaultTarget : Text) (extensions : List Text) : Text :=
  let name := if search.trim.isEmpty then defaultTarget else search.trim
  if hasExtensionIn name extensions then name
  else (beforeDot? name).getD name ++ ".ts".toList

/-- Whether a name contains the searched text, in any case. -/
def fitsSearch (name search : Text) : Bool :=
  search.isEmpty || name.lower.contains search.lower

/-- A path seen from a working directory, with `.` and `..` resolved. -/
def absolutePath (cwd : Location) (path : Text) : Path :=
  (Path.join (.root :: cwd.map .name) (.ofText path)).normalize

/-- The directories that a query is about. -/
structure Places where
  file : Path
  fileDirectory : Path
  listed : Path
  limit : Path

def Query.places (q : Query) (cwd : Location) : Places :=
  let file := absolutePath cwd q.file
  let fileDirectory := file.parent?.getD []
  { file, fileDirectory
    listed := (Path.join fileDirectory (.ofText q.directory)).normalize
    limit := match q.root with
      | some root => absolutePath cwd root
      | none => fileDirectory }

/-- The step to the directory above, unless the limit is reached. -/
def parentDestinations (p : Places) : List Destination :=
  if p.listed = p.limit then []
  else match p.listed.parent? with
    | none => []
    | some parent =>
      [{ kind := .parent
         label := ['.', '.']
         description := "Go to ".toList ++ parent.fileName?.getD ['.', '.']
         relativePath := Path.wayTo p.fileDirectory parent }]

/-- The way from the directory of the current file to an entry of the listed directory. -/
def Places.toEntry (p : Places) (name : Text) : Text :=
  Path.wayTo p.fileDirectory (Path.join p.listed (.ofText name))

/-- The entries of the listed directory that are shown and match the search.  The empty path, which
is all that there is above the root, names no directory. -/
def shownEntries (tree : Tree) (cwd : Location) (p : Places) (search : Text) :
    List (Text × Entry) :=
  let location := Tree.locate cwd p.listed
  if p.listed ≠ [] ∧ tree.get? location = some .directory then
    (tree.children location).filter fun (name, entry) =>
      Ignore.isShown tree location name (entry = .directory) && fitsSearch name search
  else []

def directoryNames (entries : List (Text × Entry)) : List Text :=
  inNameOrder ((entries.filter (·.2 = .directory)).map (·.1))

/-- The shown source files other than the current file, sorted. -/
def fileNames (p : Places) (extensions : List Text) (entries : List (Text × Entry)) : List Text :=
  let isOffered : Text × Entry → Bool := fun (name, entry) =>
    entry ≠ .directory && hasExtensionIn name extensions && p.listed ++ [.name name] ≠ p.file
  inNameOrder ((entries.filter isOffered).map (·.1))

def freshDestination (q : Query) (p : Places) : Destination :=
  let name := freshName q.search q.defaultTarget q.extensions
  let place := if q.directory.isEmpty then "current directory".toList else q.directory
  { kind := .new
    label := "New File".toList
    description := "Create '".toList ++ name ++ "' in ".toList ++ place
    relativePath := p.toEntry name }

/-- Lists the destinations: the directory above, directories, source files, a new file. -/
def list (tree : Tree) (cwd : Location) (q : Query) : List Destination :=
  let p := q.places cwd
  let entries := shownEntries tree cwd p q.search
  parentDestinations p ++
    (directoryNames entries).map (fun name =>
      { kind := .directory
        label := name
        description := "Directory".toList
        relativePath := p.toEntry name }) ++
    (fileNames p q.extensions entries).map (fun name =>
      { kind := .file
        label := name
        description := p.toEntry name
        relativePath := p.toEntry name }) ++
    [freshDestination q p]

end Transplant.Browse
