import Transplant.Clause
import Transplant.NameOrder

/-!
# Named imports

`import { a, b } from './module';` on one line is the only form of import that is read and edited.
Every other import is left alone.  A statement that is edited is written anew from its parts, and
text after the statement (a comment, say) is kept.
-/

namespace Transplant

/-- A named import, split into the parts it is written from. -/
structure NamedImport where
  indent : Text
  names : List Text
  origin : Clause.Origin
  semicolon : Bool
  trailing : Text
  deriving DecidableEq, Repr

namespace NamedImport

/-- Reads a line.  The text after the statement must stay on the line. -/
def parse? (line : Text) : Option NamedImport := do
  let rest ← Clause.expect? "import" line
  let (names, rest) ← Clause.braced? rest
  let (origin, rest) ← Clause.origin? rest
  let (semicolon, trailing) := Clause.semicolon rest
  if '\n' ∈ trailing then none
  else some { indent := line.takeWhile Text.isBlank, names, origin, semicolon, trailing }

def render (i : NamedImport) : Text :=
  i.indent ++ "import ".toList ++ Clause.renderNames i.names ++ i.origin.render ++
    Clause.renderSemicolon i.semicolon ++ i.trailing

def insert (i : NamedImport) (name : Text) : NamedImport :=
  { i with names := inNameOrder (i.names ++ [name]) }

/-- Removes the first occurrence of a name. -/
def erase (i : NamedImport) (name : Text) : NamedImport :=
  { i with names := i.names.erase name }

/-- The statement `import { name } from 'path';`. -/
def statement (name path : Text) : Text :=
  "import \x7b ".toList ++ name ++ " \x7d from '".toList ++ path ++ "';".toList

/-- Adds a name to the import on a line.  A line that is no named import, or lists the name
already, stays as it is. -/
def mergeInto (line name : Text) : Text :=
  match parse? line with
  | none => line
  | some i => if name ∈ i.names then line else (i.insert name).render

/-- Removes a name from the import on a line.  The answer is `none` when no name is left, because
an import of nothing is never written. -/
def removeFrom (line name : Text) : Option Text :=
  match parse? line with
  | none => some line
  | some i =>
    if name ∈ i.names then
      let i := i.erase name
      if i.names.isEmpty then none else some i.render
    else some line

end NamedImport

structure ImportLine where
  index : Nat
  line : Text
  statement : NamedImport
  deriving DecidableEq, Repr

def findImport? (path : Text) (index : Nat) : List Text → Option ImportLine
  | [] => none
  | line :: rest =>
    match NamedImport.parse? line with
    | some statement =>
      if statement.origin.path = path then some { index, line, statement }
      else findImport? path (index + 1) rest
    | none => findImport? path (index + 1) rest

def LinedText.importOf? (l : LinedText) (path : Text) : Option ImportLine :=
  findImport? path 0 l.lines

/-- All names bound by named imports, in the order of the text. -/
def namesImported (source : Text) : List Text :=
  (source.lines.filterMap NamedImport.parse?).flatMap (·.names)

/-- Removes a name from the first import of a module; the line goes with its last name. -/
def removeImport (source path name : Text) : Text :=
  let lined := LinedText.ofText source
  match lined.importOf? path with
  | none => source
  | some found =>
    match NamedImport.removeFrom found.line name with
    | none => (lined.eraseIdx found.index).toText
    | some line => (lined.set found.index line).toText

/-- Imports a name from a module: adds it to the first import of that module, or inserts a new
statement below the prologue. -/
def addImport (source name path : Text) : Text :=
  let lined := LinedText.ofText source
  match lined.importOf? path with
  | some found => (lined.set found.index (NamedImport.mergeInto found.line name)).toText
  | none => insertBelowPrologue source (NamedImport.statement name path)

end Transplant
