import Transplant.Text.Lined
import Transplant.Declaration.Marker
import Transplant.Outline.Basic
import Transplant.Refusal

/-!
# Selections

A selection is a range of lines, a cursor or a name.  It resolves to whole lines of the source: a
cursor to the declaration around it, a name to the declaration it names.  The selected text is
then split into its export marker, if it has one, and the code that moves.
-/

namespace Transplant

/-- What the user pointed at.  Lines are counted from one. -/
inductive Selection where
  | range (first last : Nat)
  | cursor (line : Nat)
  | symbol (name : Text)
  deriving DecidableEq, Repr

structure Excerpt where
  range : LineSpan
  text : Text
  deriving DecidableEq, Repr

/-- The number of the line at an index.  Line numbers are 64-bit words. -/
def lineNumber (index : Nat) : Nat :=
  (index + 1) % UInt64.size

namespace Selection

/-- The lines a selection stands for in a source of the given number of lines. -/
def lineSpan (source : Text) (size : Nat) (outline : Outliner) :
    Selection → Except Refusal LineSpan
  | range first last =>
    if first = 0 ∨ last < first ∨ size < last then .error (.invalidRange first last size)
    else .ok ⟨first - 1, last - 1⟩
  | cursor line =>
    match OutlineItem.enclosingIn? (line - 1) (outline source) with
    | some item => .ok item.range
    | none => .error (.noEnclosingSymbol line)
  | symbol name =>
    match OutlineItem.named? name (outline source) with
    | some item => .ok item.range
    | none => .error (.symbolNotFound name)

def excerptOf (lines : List Text) (range : LineSpan) : Except Refusal Excerpt :=
  if range.last < lines.length ∧ range.first ≤ range.last + 1 then
    let text := Text.join ['\n'] ((lines.take (range.last + 1)).drop range.first)
    if text.trim.isEmpty then .error .emptySelection else .ok { range, text }
  else
    .error (.invalidRange (lineNumber range.first) (lineNumber range.last) lines.length)

def resolve (source : Text) (selection : Selection) (outline : Outliner) :
    Except Refusal Excerpt := do
  let lined := LinedText.ofText source
  let range ← selection.lineSpan source lined.size outline
  excerptOf lined.lines range

end Selection

/-- The code that moves, without its export marker. -/
structure MovedCode where
  text : Text
  wasExported : Bool
  /-- What the code declares first: its kind and its name. -/
  declared : Option (Kind × Identifier)

/-- Splits the export marker off a text and finds what the text declares. -/
def MovedCode.ofText (text : Text) : MovedCode :=
  let (text, wasExported) := unmarkExported text
  { text, wasExported, declared := firstDeclared? text }

end Transplant
