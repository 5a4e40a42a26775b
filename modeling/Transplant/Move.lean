import Transplant.Clash
import Transplant.Forwarding
import Transplant.Links
import Transplant.Selection

/-!
# Moves

One move, from a selection to two linked texts.  The selected lines are cut out of the source and
appended to the target; then exports and imports are mended on both sides.  Nothing is
written before both texts are known.
-/

namespace Transplant

/-- The two files of a move, their texts and what to move. -/
structure Move where
  sourcePath : Text
  targetPath : Text
  source : Text
  target : Text
  selection : Selection

structure MovePolicies where
  reexport : ForwardPolicy := .exported
  onClash : ClashPolicy := .abort
  deriving DecidableEq, Repr

inductive Stage where
  | linked
  | saved
  deriving DecidableEq, Repr

structure MoveRecord where
  stage : Stage
  symbol : Option Text
  kind : Option Kind
  /-- First and last moved line, counted from one. -/
  movedLines : Nat × Nat
  clash : Bool
  exported : Bool
  forwarded : Bool
  sourceImported : Bool
  carried : List Text
  paths : ModulePaths
  deriving DecidableEq, Repr

/-- A finished move: both paths, both new texts and the record. -/
structure Moved where
  sourcePath : Text
  targetPath : Text
  source : Text
  target : Text
  record : MoveRecord
  deriving DecidableEq, Repr

def Moved.asSaved (moved : Moved) : Moved :=
  { moved with record := { moved.record with stage := .saved } }

namespace Move

/-- Whether two paths are spelled the same, up to the separator. -/
def samePath (a b : Text) : Bool :=
  a.replaceChar '\\' '/' == b.replaceChar '\\' '/'

def blankAt (l : LinedText) (index : Nat) : Bool :=
  match l.get? index with
  | some line => line.trim.isEmpty
  | none => false

/-- Removes lines from a text.  Of a blank line above and a blank line below, one stays. -/
def cutOut (source : Text) (range : LineSpan) : Text :=
  let lined := (LinedText.ofText source).eraseRange range.first range.last
  let lined :=
    if 0 < range.first && blankAt lined (range.first - 1) && blankAt lined range.first then
      lined.eraseIdx (range.first - 1)
    else lined
  lined.toText

def isBreakChar (c : Char) : Bool :=
  c == '\r' || c == '\n'

/-- Appends a block to a text, below a blank line and, if there is one, a marker line.  The block
takes over the line breaks of the text; a text of blanks only is dropped. -/
def pasteBelow (target block : Text) (marker : Option Text) : Text :=
  let eol := (LineBreak.ofText target).text
  let above := if target.trim.isEmpty then [] else target.dropEndWhile isBreakChar ++ eol ++ eol
  let note := match marker with
    | some marker => marker ++ eol
    | none => []
  above ++ note ++ block.expandChar '\n' eol ++ eol

/-- What is known of a move once its selection is resolved. -/
structure Selected where
  excerpt : Excerpt
  code : MovedCode
  paths : ModulePaths
  /-- The source without the selected lines. -/
  remainder : Text

/-- Resolves the selection of a move.  A move within one file is refused. -/
def select (move : Move) (outline : Outliner) : Except Refusal Selected := do
  if samePath move.sourcePath move.targetPath then throw .sameFile
  let excerpt ← move.selection.resolve move.source outline
  return {
    excerpt
    code := .ofText excerpt.text
    paths := .ofFiles move.sourcePath move.targetPath
    remainder := cutOut move.source excerpt.range }

/-- The part of the record that the selection settles. -/
def Selected.record (s : Selected) : MoveRecord :=
  { stage := .linked
    symbol := s.code.declared.map (·.2.text)
    kind := s.code.declared.map (·.1)
    movedLines := (s.excerpt.range.first + 1, s.excerpt.range.last + 1)
    clash := false
    exported := s.code.wasExported
    forwarded := false
    sourceImported := false
    carried := []
    paths := s.paths }

/-- Moves text that declares nothing: there is nothing to link. -/
def performPlain (move : Move) (s : Selected) : Moved :=
  { sourcePath := move.sourcePath
    targetPath := move.targetPath
    source := s.remainder
    target := pasteBelow move.target s.code.text none
    record := s.record }

/-- Moves the declaration of a symbol and mends exports and imports; `clash` tells whether the
copy gets a warning. -/
def performLinked (move : Move) (reexport : ForwardPolicy) (s : Selected) (symbol : Text)
    (clash : Bool) : Moved :=
  let forwarded := reexport.forwards s.remainder symbol s.code.wasExported
  let source :=
    if forwarded then replaceByForwarding s.remainder symbol s.paths.sourceToTarget else s.remainder
  let exported := needsExport s.code.wasExported (uses source symbol) forwarded
  let moved := if exported then markExported s.code.text symbol else s.code.text
  let target := removeImport move.target s.paths.targetToSource symbol
  let target := pasteBelow target moved (if clash then some (clashMarker symbol) else none)
  let links := link move.sourcePath move.targetPath symbol source target (some moved)
  { sourcePath := move.sourcePath
    targetPath := move.targetPath
    source := markAllExported links.source links.carried
    target := links.target
    record :=
      { s.record with
        clash
        exported
        forwarded
        sourceImported := links.sourceImported
        carried := links.carried } }

/-- Performs a move; `confirm` answers whether to go on in spite of a clash. -/
def perform (move : Move) (policies : MovePolicies) (outline : Outliner)
    (confirm : Text → Bool) : Except Refusal Moved := do
  let s ← select move outline
  match s.code.declared with
  | none => return performPlain move s
  | some (kind, symbol) =>
    match checkClash move.target symbol.text (some kind) policies.onClash confirm with
    | .noClash => return performLinked move policies.reexport s symbol.text false
    | .annotate => return performLinked move policies.reexport s symbol.text true
    | .abort => throw (.clash symbol.text)

def questions (move : Move) (policies : MovePolicies) (outline : Outliner) :
    List Text :=
  match select move outline with
  | .error _ => []
  | .ok s =>
    match s.code.declared with
    | none => []
    | some (kind, symbol) =>
      clashQuestions move.target symbol.text (some kind) policies.onClash

end Move

end Transplant
