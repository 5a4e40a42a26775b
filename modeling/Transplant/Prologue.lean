import Transplant.Text.Lined
import Transplant.Text.Letter

/-!
# The prologue of a file

The comments, blank lines and `"use …";` directives at the top of a file.  New statements go below
the last comment or directive of the prologue, so that headers and mode directives stay at
the very top.

Lines are classified one at a time; the only thing carried from one line to the next is whether a
block comment is open.
-/

namespace Transplant

inductive PrologueLine where
  | blockContinuation
  | blockStart
  | lineComment
  | blank
  | directive
  | code
  deriving DecidableEq, Repr

namespace Prologue

/-- What may follow a closing comment mark on a line that is all comment. -/
def mayFollowComment (rest : Text) : Bool :=
  let rest := rest.trim
  rest.isEmpty || rest.startsWith ['/', '/']

def isQuote (c : Char) : Bool :=
  c == '\x27' || c == '"'

/-- A line that starts with `"use …";`, in either quotation marks. -/
def isDirective (line : Text) : Bool :=
  match line.trimStart with
  | opening :: rest =>
    isQuote opening &&
      match Text.after? "use ".toList rest with
      | none => false
      | some body =>
        let inBody c := Text.isWordChar c || c == ' '
        !(body.takeWhile inBody).isEmpty &&
          match body.dropWhile inBody with
          | closing :: rest => isQuote closing && (Text.trimStart rest).startsWith [';']
          | [] => false
  | [] => false

/-- The class of a line and whether a block comment is open after it.  A closing mark followed by
anything but a line comment makes the line code. -/
def step (inBlock : Bool) (index : Nat) (line : Text) : PrologueLine × Bool :=
  let trimmed := line.trim
  if inBlock then
    match Text.cut? ['*', '/'] trimmed with
    | some (_, rest) => (if mayFollowComment rest then .blockContinuation else .code, false)
    | none => (.blockContinuation, true)
  else
    match Text.after? ['/', '*'] trimmed with
    | some body =>
      match Text.cut? ['*', '/'] body with
      | some (_, rest) => (if mayFollowComment rest then .blockStart else .code, false)
      | none => (.blockStart, true)
    | none =>
      if trimmed.startsWith ['/', '/'] || (index == 0 && trimmed.startsWith ['#', '!']) then
        (.lineComment, false)
      else if trimmed.isEmpty then (.blank, false)
      else if isDirective line then (.directive, false)
      else (.code, false)

/-- The classes of consecutive lines, the first of which has the given index. -/
def classes (inBlock : Bool) (index : Nat) : List Text → List PrologueLine
  | [] => []
  | line :: rest =>
    let (lineClass, inBlock) := step inBlock index line
    lineClass :: classes inBlock (index + 1) rest

def header (lines : List Text) : List PrologueLine :=
  (classes false 0 lines).takeWhile (· ≠ .code)

/-- The index of the first code line; the number of lines if there is none. -/
def firstCode (lines : List Text) : Nat :=
  (header lines).length

/-- The index of the line in front of which new statements go: below the last comment or directive
of the prologue, or else at the first code line, or else at the top. -/
def slotIndex (lines : List Text) : Nat :=
  let kept := ((header lines).reverse.dropWhile (· = .blank)).length
  if kept ≠ 0 then kept
  else if firstCode lines < lines.length then firstCode lines
  else 0

def endsStatement (line : Text) : Bool :=
  let line := line.trimEnd
  line.endsWith [';'] || line.endsWith ['*', '/']

def startsImport (line : Text) : Bool :=
  let line := line.trimStart
  line.startsWith "import ".toList || line.startsWith "import\x7b".toList

/-- Whether a statement put in front of the line at `index` needs a blank line after it. -/
def needsBlank (lines : List Text) (index : Nat) : Bool :=
  match lines[index]? with
  | none => false
  | some following =>
    if following.trim.isEmpty || startsImport following then false
    else if index = 0 then true
    else match lines[index - 1]? with
      | some preceding => !endsStatement preceding
      | none => true

end Prologue

/-- Where a new statement belongs and whether a blank line goes after it. -/
structure Slot where
  line : Nat
  blankAfter : Bool
  deriving DecidableEq, Repr

def LinedText.slot (l : LinedText) : Slot :=
  let line := Prologue.slotIndex l.lines
  { line, blankAfter := Prologue.needsBlank l.lines line }

/-- Inserts lines below the prologue, with a blank line after them where one is needed. -/
def LinedText.insertStatement (l : LinedText) (statement : List Text) : LinedText :=
  let slot := l.slot
  l.insertAt slot.line (statement ++ if slot.blankAfter then [[]] else [])

def insertBelowPrologue (source statement : Text) : Text :=
  ((LinedText.ofText source).insertStatement (LinedText.splitLines statement)).toText

end Transplant
