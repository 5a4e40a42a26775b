import Transplant.Path
import Transplant.Refusal

/-!
# File trees

Files and directories in memory.  A location is the list of names from the root.  Paths are
followed segment by segment from a working directory: every segment, also an empty one, needs a
directory to start from, so a path with a final separator never names a file.  Names have at most
255 bytes and paths fewer than 4096.
-/

namespace Transplant

inductive FileError where
  | notFound
  | alreadyExists
  | notDirectory
  | isDirectory
  | nameTooLong
  | invalidArgument
  /-- A path holds the character that ends texts in the system. -/
  | nulInPath
  /-- The file is not UTF-8. -/
  | notText
  deriving DecidableEq, Repr

def FileError.message : FileError → Text
  | notFound => "No such file or directory (os error 2)".toList
  | alreadyExists => "File exists (os error 17)".toList
  | notDirectory => "Not a directory (os error 20)".toList
  | isDirectory => "Is a directory (os error 21)".toList
  | nameTooLong => "File name too long (os error 36)".toList
  | invalidArgument => "Invalid argument (os error 22)".toList
  | nulInPath => "file name contained an unexpected NUL byte".toList
  | notText => "stream did not contain valid UTF-8".toList

inductive Content where
  | text (t : Text)
  /-- Bytes that are not UTF-8. -/
  | bytes (b : List UInt8)
  deriving DecidableEq, Repr

def decodeUtf8? (bytes : List UInt8) : Option Text :=
  (String.fromUTF8? ⟨bytes.toArray⟩).map String.toList

def splitAtElem (sep : UInt8) : List UInt8 → List (List UInt8)
  | [] => [[]]
  | b :: rest =>
    if b = sep then [] :: splitAtElem sep rest
    else match splitAtElem sep rest with
      | [] => [[b]]
      | piece :: pieces => (b :: piece) :: pieces

namespace Content

def ofBytes (bytes : List UInt8) : Content :=
  match decodeUtf8? bytes with
  | some t => text t
  | none => .bytes bytes

/-- The lines up to the first one that is not UTF-8. -/
def lines : Content → List Text
  | text t => t.lines
  | bytes b =>
    let decoded := (splitAtElem 10 b).map decodeUtf8?
    (decoded.takeWhile Option.isSome).filterMap fun line => line.map Text.dropReturn

end Content

/-- The names from the root to a file or directory. -/
abbrev Location := List Text

inductive Entry where
  | directory
  | file (content : Content)
  deriving DecidableEq, Repr

/-- Files and directories by location.  The root directory always exists. -/
structure Tree where
  entries : List (Location × Entry)

namespace Tree

def get? (tree : Tree) (location : Location) : Option Entry :=
  if location = [] then some .directory else tree.entries.lookup location

/-- Puts an entry at a location, in place of one that is there. -/
def insert (tree : Tree) (location : Location) (entry : Entry) : Tree :=
  { entries := (location, entry) :: tree.entries.filter (·.1 ≠ location) }

/-- Adds the directories on the way to a location and the entry itself. -/
def add (tree : Tree) (location : Location) (entry : Entry) : Tree :=
  let above := (List.range location.length).map (location.take ·)
  let tree := above.foldl (fun tree directory =>
    if (tree.get? directory).isNone then tree.insert directory .directory else tree) tree
  tree.insert location entry

def children (tree : Tree) (location : Location) : List (Text × Entry) :=
  tree.entries.filterMap fun (place, entry) =>
    match place.getLast? with
    | some name => if place.dropLast = location then some (name, entry) else none
    | none => none

/-- Whether a name has more bytes than a directory can hold. -/
def isLongName (name : Text) : Bool :=
  255 < name.byteSize

/-- Whether a path has more bytes than can be looked up. -/
def isLongPath (path : Text) : Bool :=
  4096 ≤ path.byteSize

def hasNul (path : Text) : Bool :=
  path.any (· = '\x00')

/-- Why a path cannot be followed in any tree. -/
def pathFault? (path : Text) : Option FileError :=
  if hasNul path then some .nulInPath
  else if isLongPath path then some .nameTooLong
  else if path.isEmpty then some .notFound
  else none

/-- Follows segments from a location. -/
def walk (tree : Tree) (location : Location) : List Text → Except FileError Location
  | [] => .ok location
  | segment :: rest =>
    match tree.get? location with
    | some .directory =>
      if segment = [] ∨ segment = ['.'] then walk tree location rest
      else if segment = ['.', '.'] then walk tree location.dropLast rest
      else if isLongName segment then .error .nameTooLong
      else if (tree.get? (location ++ [segment])).isSome then
        walk tree (location ++ [segment]) rest
      else .error .notFound
    | some (.file _) => .error .notDirectory
    | none => .error .notFound

/-- The locations on the way along segments, where the tree is not known yet. -/
def visited (location : Location) : List Text → List Location
  | [] => [location]
  | segment :: rest =>
    if segment = [] ∨ segment = ['.'] then visited location rest
    else if segment = ['.', '.'] then location :: visited location.dropLast rest
    else location :: visited (location ++ [segment]) rest

/-- The location that a path names, seen from a working directory. -/
def resolve (tree : Tree) (cwd : Location) (path : Text) : Except FileError Location :=
  match pathFault? path, path with
  | some fault, _ => .error fault
  | none, '/' :: _ => tree.walk [] (path.pieces '/')
  | none, _ => tree.walk cwd (path.pieces '/')

def pathExists (tree : Tree) (cwd : Location) (path : Text) : Bool :=
  match tree.resolve cwd path with
  | .ok _ => true
  | .error _ => false

def readContent (tree : Tree) (cwd : Location) (path : Text) : Except FileError Content :=
  match tree.resolve cwd path with
  | .error e => .error e
  | .ok location =>
    match tree.get? location with
    | some (.file content) => .ok content
    | some .directory => .error .isDirectory
    | none => .error .notFound

def read (tree : Tree) (cwd : Location) (path : Text) : Except FileError Text :=
  match tree.readContent cwd path with
  | .ok (.text t) => .ok t
  | .ok (.bytes _) => .error .notText
  | .error e => .error e

def isFile (tree : Tree) (cwd : Location) (path : Text) : Bool :=
  match tree.readContent cwd path with
  | .ok _ => true
  | .error _ => false

/-- The location that a normalised path stands for, seen from a working directory. -/
def locate (cwd : Location) (path : Path) : Location :=
  path.foldl (fun location component =>
    match component with
    | .root => []
    | .current => location
    | .parent => location.dropLast
    | .name text => location ++ [text]) cwd

/-- Makes the directories on the way from `location` along `names`, up to the first one that cannot
be made.  Those above it stay. -/
def makeDirectoriesFrom (tree : Tree) (location : Location) : List Text → Option FileError × Tree
  | [] => (none, tree)
  | name :: rest =>
    let next := location ++ [name]
    match tree.get? next with
    | some .directory => makeDirectoriesFrom tree next rest
    | some (.file _) => (some (if rest.isEmpty then .alreadyExists else .notDirectory), tree)
    | none =>
      if isLongName name then (some .nameTooLong, tree)
      else makeDirectoriesFrom (tree.insert next .directory) next rest

def makeDirectories (tree : Tree) (cwd : Location) (directory : Path) : Option FileError × Tree :=
  match pathFault? directory.toText with
  | some fault => (some fault, tree)
  | none => tree.makeDirectoriesFrom [] (locate cwd directory)

/-- Why a file cannot be put at a path, whatever the tree holds. -/
def placeFault? (path : Path) : Option FileError :=
  let text := path.toText
  if hasNul text then some .invalidArgument
  else if isLongPath text ∨ path.fileName?.any isLongName then some .nameTooLong
  else if path.isEmpty then some .notFound
  else none

/-- Dropping what stands at one location does not change any other. -/
theorem lookup_filter_ne {location other : Location} (h : other ≠ location)
    (entries : List (Location × Entry)) :
    (entries.filter (·.1 ≠ location)).lookup other = entries.lookup other := by
  induction entries with
  | nil => rfl
  | cons pair rest ih =>
    obtain ⟨place, entry⟩ := pair
    by_cases hplace : place = location
    · subst hplace
      have hbeq : (other == place) = false := beq_eq_false_iff_ne.2 h
      rw [List.filter_cons_of_neg (by simp), ih, List.lookup_cons, hbeq]
    · rw [List.filter_cons_of_pos (by simpa using hplace), List.lookup_cons, List.lookup_cons, ih]

/-- Inserting an entry changes its own location only. -/
theorem get?_insert (tree : Tree) (location other : Location) (entry : Entry)
    (h : location ≠ []) :
    (tree.insert location entry).get? other =
      if other = location then some entry else tree.get? other := by
  by_cases hother : other = location
  · subst hother
    simp [get?, insert, h]
  · have hbeq : (other == location) = false := beq_eq_false_iff_ne.2 hother
    simp only [get?, insert, hother, if_false, List.lookup_cons, hbeq, lookup_filter_ne hother]

end Tree

end Transplant
