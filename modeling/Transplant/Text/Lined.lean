import Transplant.Text.Basic

/-!
# Lined texts

A lined text holds the lines of one file and the kind of line break that joins them.  Reading
strips one carriage return from the end of every line, so the lines look the same whatever the
breaks of the file; writing joins them with one kind of break throughout.  A final line break
shows as a last, empty line.
-/

namespace Transplant

/-- The two kinds of line break. -/
inductive LineBreak where
  | lf
  | crlf
  deriving DecidableEq, Repr

namespace LineBreak

/-- One carriage return followed by a line feed makes the whole file a `crlf` file. -/
def ofText (t : Text) : LineBreak :=
  if t.contains ['\r', '\n'] then .crlf else .lf

def text : LineBreak → Text
  | lf => ['\n']
  | crlf => ['\r', '\n']

end LineBreak

/-- The lines of a file and the break between them. -/
structure LinedText where
  lines : List Text
  lineBreak : LineBreak
  deriving DecidableEq, Repr

namespace LinedText

/-- Lines of a text that may use either break, without a carriage return at their ends. -/
def splitLines (t : Text) : List Text :=
  (t.pieces '\n').map Text.dropReturn

def ofText (t : Text) : LinedText :=
  { lines := splitLines t, lineBreak := .ofText t }

/-- Writes the lines back, joined by the text's line break. -/
def toText (l : LinedText) : Text :=
  Text.join l.lineBreak.text l.lines

def get? (l : LinedText) (index : Nat) : Option Text :=
  l.lines[index]?

def size (l : LinedText) : Nat :=
  l.lines.length

def allEmpty (l : LinedText) : Bool :=
  l.lines.all (·.isEmpty)

/-- Replaces the line at an index; past the end nothing changes. -/
def set (l : LinedText) (index : Nat) (line : Text) : LinedText :=
  { l with lines := l.lines.set index line }

/-- Removes the line at an index; past the end nothing changes. -/
def eraseIdx (l : LinedText) (index : Nat) : LinedText :=
  { l with lines := l.lines.eraseIdx index }

/-- Removes the lines `first` to `last`, both included and cut off at the end of the text.  An
inverted range removes nothing. -/
def eraseRange (l : LinedText) (first last : Nat) : LinedText :=
  if first ≤ last then { l with lines := l.lines.take first ++ l.lines.drop (last + 1) } else l

/-- Puts lines in front of the line at an index; past the end they are appended. -/
def insertAt (l : LinedText) (index : Nat) (new : List Text) : LinedText :=
  { l with lines := l.lines.take index ++ new ++ l.lines.drop index }

/-- Every text has a line. -/
theorem lines_ofText_ne_nil (t : Text) : (ofText t).lines ≠ [] := by
  intro h
  exact Text.pieces_ne_nil '\n' t (List.map_eq_nil_iff.1 h)

end LinedText

end Transplant
