import Transplant.Outline.Basic
import Transplant.Outline.Method
import Transplant.Outline.Statement
import Transplant.Prologue

/-!
# The heuristic outline

Finds declarations line by line and measures them by scanning brackets.  Top-level declarations
start in the first column; inside a class or a function the search goes on, and inside a class
methods count as well.  A declaration takes along the comments and decorators right above it, but
not the header of the file.
-/

namespace Transplant.Outline

def lineAt (lines : List Text) (index : Nat) : Text :=
  lines[index]?.getD []

/-- Name and kind of the declaration on a line inside a declaration of kind `parent`. -/
def matchLine? (parent : Option Kind) (line : Text) : Option (Text × Kind) :=
  match Head.parse? line with
  | some h => if parent.isNone && !h.isTopLevel then none else some (h.name, h.kind)
  | none =>
    if parent = some .classDecl then (Method.name? line).map (·, .functionDecl) else none

def isDocLine (line : Text) : Bool :=
  let line := line.trim
  line.startsWith ['/', '*'] || line.startsWith ['*'] || line.startsWith ['/', '/'] ||
    line.startsWith ['@']

/-- The line that opens the documentation block which goes down to the line above `below`, not
above `floor`. -/
def blockStart? (lines : List Text) (floor : Nat) : (below : Nat) → Option Nat
  | 0 => none
  | index + 1 =>
    let line := (lineAt lines index).trim
    if index < floor then none
    else if line.startsWith ['*'] || line.startsWith ['/', '*'] then
      if line.startsWith ['/', '*', '*'] then some index else blockStart? lines floor index
    else none

/-- The first line of the documentation block that ends right above `below`. -/
def docCommentStart? (lines : List Text) (floor below : Nat) : Option Nat :=
  if (lineAt lines (below - 1)).trimEnd.endsWith ['*', '/'] then blockStart? lines floor below
  else none

/-- The first of the comment and decorator lines above a declaration, not above `floor`.  Of the
header of the file (the lines above `codeStart`) only a documentation block is taken. -/
def docStart (lines : List Text) (floor codeStart : Nat) : (below : Nat) → Nat
  | 0 => 0
  | index + 1 =>
    if floor ≤ index && isDocLine (lineAt lines index) then
      if index < codeStart then (docCommentStart? lines floor (index + 1)).getD (index + 1)
      else docStart lines floor codeStart index
    else index + 1

/-- Whether a declaration ends with a block in braces.  Every member of a class is taken to. -/
def hasBody (parent : Option Kind) (kind : Kind) : Bool :=
  kind.hasBlock || parent = some .classDecl

/-- The last line of the declaration on line `index`, at most the line above `stop`. -/
def lastLine (lines : List Text) (block : Bool) (index stop : Nat) : Nat :=
  let reach := index + Statement.lineBreaks block (Text.join ['\n'] (lines.drop index))
  max index (min reach (stop - 1))

theorem le_lastLine (lines : List Text) (block : Bool) (index stop : Nat) :
    index ≤ lastLine lines block index stop :=
  Nat.le_max_left _ _

theorem lastLine_lt (lines : List Text) (block : Bool) {index stop : Nat} (h : index < stop) :
    lastLine lines block index stop < stop := by
  simp only [lastLine]
  omega

/-- The declarations on the lines from `index` up to `stop`, inside a declaration of kind `parent`
whose inner lines start at `floor`. -/
def collect (lines : List Text) (codeStart : Nat) (parent : Option Kind) (floor index stop : Nat) :
    List OutlineItem :=
  if index < stop then
    match matchLine? parent (lineAt lines index) with
    | none => collect lines codeStart parent floor (index + 1) stop
    | some (name, kind) =>
      let last := lastLine lines (hasBody parent kind) index stop
      let children :=
        if kind.nests then collect lines codeStart (some kind) (index + 1) (index + 1) last else []
      .mk name kind ⟨docStart lines floor codeStart index, last⟩ children ::
        collect lines codeStart parent floor (last + 1) stop
  else []
termination_by stop - index
decreasing_by
  · omega
  · have hlast := lastLine_lt lines (hasBody parent kind) ‹index < stop›
    omega
  · have hlast := le_lastLine lines (hasBody parent kind) index stop
    omega

def heuristic : Outliner := fun content =>
  let lines := content.pieces '\n'
  collect lines (Prologue.firstCode lines) none 0 0 lines.length

end Transplant.Outline
