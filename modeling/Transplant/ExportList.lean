import Transplant.Clause
import Transplant.NameOrder

/-!
# Export lists

`export { a, b };` exports names of the file itself, `export { a } from './module';` forwards
names of another module.  An entry is a name or `name as alias`; entries are looked up by their
name.
-/

namespace Transplant

/-- An export list, split into the parts it is written from. -/
structure ExportList where
  indent : Text
  names : List Text
  /-- The module a forwarding list takes its names from. -/
  origin : Option Clause.Origin
  semicolon : Bool
  trailing : Text
  deriving DecidableEq, Repr

namespace ExportList

/-- Reads a line.  After the statement only blanks or a line comment may follow, on the same line.
-/
def parse? (line : Text) : Option ExportList := do
  let rest ← Clause.expect? "export" line
  let (names, rest) ← Clause.braced? rest
  let (origin, rest) :=
    match Clause.origin? rest with
    | some (origin, rest) => (some origin, rest)
    | none => (none, rest)
  let (semicolon, trailing) := Clause.semicolon rest
  if '\n' ∈ trailing then none
  else if trailing.trim.isEmpty || trailing.trimStart.startsWith ['/', '/'] then
    some { indent := line.takeWhile Text.isBlank, names, origin, semicolon, trailing }
  else none

def render (l : ExportList) : Text :=
  l.indent ++ "export ".toList ++ Clause.renderNames l.names ++
    (match l.origin with
      | some origin => origin.render
      | none => []) ++
    Clause.renderSemicolon l.semicolon ++ l.trailing

/-- Whether the list exports names of its own file. -/
def isOwn (l : ExportList) : Bool :=
  l.origin.isNone

/-- Whether the list forwards names of the module at a path. -/
def forwards (l : ExportList) (path : Text) : Bool :=
  match l.origin with
  | some origin => origin.path == path
  | none => false

/-- Whether an entry exports the name, under an alias or not. -/
def exportsName (name entry : Text) : Bool :=
  entry.firstWord? == some name

def lists (l : ExportList) (name : Text) : Bool :=
  l.names.any (exportsName name)

/-- Removes the first entry that exports the name. -/
def erase (l : ExportList) (name : Text) : ExportList :=
  { l with names := l.names.eraseP (exportsName name) }

/-- Adds a name and sorts the list. -/
def insert (l : ExportList) (name : Text) : ExportList :=
  { l with names := inNameOrder (l.names ++ [name]) }

/-- The statement `export { name } from 'path';`. -/
def statement (name path : Text) : Text :=
  "export \x7b ".toList ++ name ++ " \x7d from '".toList ++ path ++ "';".toList

/-- What becomes of a line when a name is taken out of the local export lists: nothing, if the
list on it has no other entry. -/
def removeFrom (name line : Text) : Option Text :=
  match parse? line with
  | none => some line
  | some l =>
    if l.isOwn && l.lists name then
      let l := l.erase name
      if l.names.isEmpty then none else some l.render
    else some line

end ExportList

def listsLocally (source name : Text) : Bool :=
  (source.lines.filterMap ExportList.parse?).any fun l => l.isOwn && l.lists name

def forwardsFrom (source name path : Text) : Bool :=
  (source.lines.filterMap ExportList.parse?).any fun l => l.forwards path && l.lists name

/-- Takes a name out of every local export list; a list left empty goes with its line. -/
def unlist (source name : Text) : Text :=
  let lined := LinedText.ofText source
  { lined with lines := lined.lines.filterMap (ExportList.removeFrom name) }.toText

def findForwarding? (path : Text) (index : Nat) : List Text → Option (Nat × ExportList)
  | [] => none
  | line :: rest =>
    match ExportList.parse? line with
    | some l => if l.forwards path then some (index, l) else findForwarding? path (index + 1) rest
    | none => findForwarding? path (index + 1) rest

/-- Forwards a name from a module: adds it to the first list that forwards names of that module,
or appends a new statement at the end of the file. -/
def addForwarding (source name path : Text) : Text :=
  if forwardsFrom source name path then source
  else
    let lined := LinedText.ofText source
    match findForwarding? path 0 lined.lines with
    | some (index, l) => (lined.set index (l.insert name).render).toText
    | none =>
      let last := if lined.lines.getLast? = some [] then lined.size - 1 else lined.size
      (lined.insertAt last [ExportList.statement name path]).toText

end Transplant
