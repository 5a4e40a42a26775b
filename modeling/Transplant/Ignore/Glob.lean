import Transplant.Ignore.Trail
import Transplant.Text.Basic

/-!
# Glob patterns

The pattern language of ignore files: `?` and `*` stay within a segment, `**` crosses segments,
and there are character classes, alternatives in braces and escapes.  Patterns match bytes of
UTF-8, so a `?` takes one byte and not one letter.

Reading goes character by character.  A bracket that no class ends at is a plain character, and so
are all brackets behind it.  Matching moves the marks of a trail along the parts of the pattern.
-/

namespace Transplant.Ignore

inductive GlobPart where
  | literal (c : Char)
  /-- One byte of a segment. -/
  | one
  /-- Any bytes of a segment. -/
  | many
  /-- A double star in front: nothing, or any segments. -/
  | leading
  /-- A double star at the end: anything below. -/
  | trailing
  /-- A double star between separators: one separator, or any segments between two. -/
  | inner
  | oneOf (negated : Bool) (ranges : List (Char × Char))
  /-- One of several alternatives; nothing at all if there is none. -/
  | choice (alternatives : List (List GlobPart))

/-- Whether a part is a group that stands for the empty text only. -/
def GlobPart.isBlank : GlobPart → Bool
  | .choice [] => true
  | _ => false

def GlobPart.isLiteral : GlobPart → Bool
  | .literal _ => true
  | _ => false

/-- A group of alternatives, of which the blank ones do not count. -/
def GlobPart.group (alternatives : List (List GlobPart)) : GlobPart :=
  .choice (alternatives.filter fun parts => !parts.all GlobPart.isBlank)

/-! ## Reading -/

inductive GlobMode where
  | plain
  | escaped
  /-- Behind a star; the character in front of the star is kept. -/
  | star (before : Option Char)
  /-- Behind two stars. -/
  | doubleStar (before : Option Char)
  /-- At the front of a class, where `!` or `^` may stand. -/
  | classStart
  /-- Inside a class; the ranges are kept last first. -/
  | inClass (negated first pending : Bool) (ranges : List (Char × Char))

/-- The alternatives of a group that are complete, and the parts of the current one, last first.
-/
structure GlobGroup where
  complete : List (List GlobPart)
  parts : List GlobPart

/-- A pattern that is being read: the innermost group, the groups around it, the mode and the last
character. -/
structure GlobReader where
  top : GlobGroup
  outer : List GlobGroup
  mode : GlobMode
  last : Option Char
  /-- Whether a bracket stands for itself. -/
  plainBrackets : Bool
  /-- In a class, the characters behind the bracket, last first. -/
  behindBracket : Text

namespace GlobReader

def start : GlobReader :=
  { top := ⟨[], []⟩, outer := [], mode := .plain, last := none,
    plainBrackets := false, behindBracket := [] }

def push (r : GlobReader) (part : GlobPart) : GlobReader :=
  { r with top := { r.top with parts := part :: r.top.parts } }

def replaceLast (r : GlobReader) (part : GlobPart) : GlobReader :=
  { r with top := { r.top with parts := part :: r.top.parts.tail } }

/-- Settles what a double star means, given the character that follows, and tells whether that
character belongs to it.  In a group, a comma or a brace in front of it counts as a separator. -/
def settleDoubleStar (r : GlobReader) (before next : Option Char) : GlobReader × Bool :=
  let r := { r with mode := .plain }
  let twice := (r.push .many).push .many
  let inGroup := !r.outer.isEmpty
  match r.top.parts with
  | [] =>
    match next with
    | none => (r.push .leading, false)
    | some '/' => (r.push .leading, true)
    | some _ => (twice, false)
  | previous :: _ =>
    let opensGroup := inGroup && (before == some ',' || before == some '\x7b')
    if before ≠ some '/' ∧ !opensGroup then (twice, false)
    else
      let replace (part : GlobPart) :=
        match previous with
        | .leading => r
        | .trailing => r
        | _ => r.replaceLast part
      match next with
      | none => (replace .trailing, false)
      | some '/' => (replace .inner, true)
      | some c =>
        if inGroup && (c == ',' || c == '\x7d') then (replace .trailing, false) else (twice, false)

/-- Reads a character outside classes and escapes. -/
def stepPlain (r : GlobReader) (c : Char) : Option GlobReader :=
  let before := r.last
  let r := { r with mode := .plain, last := some c }
  match c with
  | '?' => some (r.push .one)
  | '*' => some { r with mode := .star before }
  | '[' =>
    if r.plainBrackets then some (r.push (.literal c))
    else some { r with mode := .classStart, behindBracket := [] }
  | '\\' => some { r with mode := .escaped }
  | '\x7b' => some { r with top := ⟨[], []⟩, outer := r.top :: r.outer }
  | ',' =>
    if r.outer.isEmpty then some (r.push (.literal c))
    else some { r with top := ⟨r.top.parts.reverse :: r.top.complete, []⟩ }
  | '\x7d' =>
    match r.outer with
    | [] => none
    | around :: outer =>
      let alternatives := (r.top.parts.reverse :: r.top.complete).reverse
      some ({ r with top := around, outer }.push (.group alternatives))
  | _ => some (r.push (.literal c))

/-- Extends the last range of a class up to a character. -/
def closeRange (c : Char) : List (Char × Char) → Option (List (Char × Char))
  | [] => none
  | (low, _) :: ranges => if c < low then none else some ((low, c) :: ranges)

def stepClass (r : GlobReader) (negated first pending : Bool) (ranges : List (Char × Char))
    (c : Char) : Option GlobReader :=
  let continueWith (pending : Bool) (ranges : List (Char × Char)) : GlobReader :=
    { r with mode := .inClass negated false pending ranges, last := some c }
  if c = ']' ∧ !first then
    let ranges := if pending then ('-', '-') :: ranges else ranges
    some ({ r with mode := .plain, last := some c }.push (.oneOf negated ranges.reverse))
  else if c = '-' ∧ !first ∧ !pending then some (continueWith true ranges)
  else if pending then (closeRange c ranges).map (continueWith false)
  else some (continueWith false ((c, c) :: ranges))

/-- Reads a character; `none` if the pattern is malformed. -/
def step (r : GlobReader) (c : Char) : Option GlobReader :=
  match r.mode with
  | .plain => r.stepPlain c
  | .escaped => some ({ r with mode := .plain, last := some c }.push (.literal c))
  | .star before =>
    if c = '*' then some { r with mode := .doubleStar before, last := some c }
    else (r.push .many).stepPlain c
  | .doubleStar before =>
    let (r, taken) := r.settleDoubleStar before (some c)
    if taken then some { r with last := some c } else r.stepPlain c
  | .classStart =>
    let r := { r with behindBracket := [c] }
    if c = '!' ∨ c = '^' then some { r with mode := .inClass true true false [], last := some c }
    else r.stepClass false true false [] c
  | .inClass negated first pending ranges =>
    { r with behindBracket := c :: r.behindBracket }.stepClass negated first pending ranges c

/-- The parts of a pattern that ends outside a class. -/
def close (r : GlobReader) : Option (List GlobPart) :=
  let closeGroups (r : GlobReader) := if r.outer.isEmpty then some r.top.parts.reverse else none
  match r.mode with
  | .plain => closeGroups r
  | .star _ => closeGroups (r.push .many)
  | .doubleStar before => closeGroups (r.settleDoubleStar before none).1
  | .escaped | .classStart | .inClass .. => none

/-- The reader at the bracket of the class it is in, where the bracket stands for itself. -/
def atBracket (r : GlobReader) : GlobReader :=
  { r with mode := .plain, last := some '[', plainBrackets := true }.push (.literal '[')

/-- The parts of a pattern that was read to its end.  A class without an end is read once more from
its bracket on. -/
def finish (r : GlobReader) : Option (List GlobPart) :=
  match r.mode with
  | .classStart | .inClass .. => r.behindBracket.reverse.foldlM step r.atBracket >>= close
  | _ => r.close

end GlobReader

def parseGlob? (t : Text) : Option (List GlobPart) :=
  (t.foldlM GlobReader.step .start) >>= GlobReader.finish

/-! ## Nesting -/

def classSize (ranges : List (Char × Char)) : Nat :=
  ranges.foldr (fun (low, high) size =>
    (if low = high then low.utf8Size else low.utf8Size + high.utf8Size - 1) + size) 0

/-- The number of items that a part adds to the sequence it stands in. -/
def GlobPart.width : GlobPart → Nat
  | .literal c => c.utf8Size
  | .trailing => 2
  | .choice [] => 0
  | _ => 1

/-- The levels that a sequence adds: one, if it has several items. -/
def sequenceLevel (parts : List GlobPart) : Nat :=
  if parts.foldr (fun part width => part.width + width) 0 ≤ 1 then 0 else 1

mutual

/-- How deeply a part nests.  Groups, choices between several alternatives, sequences of several
items, repetitions, classes and unions in classes count as a level each. -/
def GlobPart.nesting : GlobPart → Nat
  | .literal _ => 0
  | .one | .trailing => 1
  | .many => 2
  | .leading | .inner => 4
  | .oneOf _ ranges => if classSize ranges ≤ 1 then 1 else 2
  | .choice [] => 0
  | .choice (first :: others) =>
    (if others.isEmpty then 1 else 2) +
      max (sequenceLevel first + partsNesting first) (choiceNesting others)

def partsNesting : List GlobPart → Nat
  | [] => 0
  | part :: rest => max part.nesting (partsNesting rest)

def choiceNesting : List (List GlobPart) → Nat
  | [] => 0
  | parts :: rest => max (sequenceLevel parts + partsNesting parts) (choiceNesting rest)

end

def maxNesting : Nat := 250

def nestsTooDeep (parts : List GlobPart) : Bool :=
  maxNesting < 1 + partsNesting parts

/-! ## Matching -/

def utf8 (t : Text) : List UInt8 :=
  t.flatMap String.utf8EncodeChar

def isSlash (b : UInt8) : Bool := b == 47

/-- Whether a byte lies in a range of characters.  A character of several bytes stands for each of
them. -/
def inByteRange (b : UInt8) (range : Char × Char) : Bool :=
  let low := String.utf8EncodeChar range.1
  let high := String.utf8EncodeChar range.2
  low.contains b || high.contains b ||
    match low.getLast?, high.head? with
    | some first, some last => range.1 ≠ range.2 && first ≤ b && b ≤ last
    | _, _ => false

/-- What any bytes up to a separator lead to. -/
def throughSlash (trail : Trail) : Trail :=
  (trail.spread fun _ => true).step isSlash

mutual

def GlobPart.run : GlobPart → Trail → Trail
  | .literal c, trail => trail.follow (String.utf8EncodeChar c)
  | .one, trail => trail.step (!isSlash ·)
  | .many, trail => trail.spread (!isSlash ·)
  | .leading, trail => trail.union (throughSlash trail)
  | .trailing, trail => (trail.step isSlash).spread fun _ => true
  | .inner, trail =>
    let below := trail.step isSlash
    below.union (throughSlash below)
  | .oneOf negated ranges, trail => trail.step fun b => ranges.any (inByteRange b) != negated
  | .choice [], trail => trail
  | .choice (first :: others), trail => runAny others trail (runParts first trail)

def runParts : List GlobPart → Trail → Trail
  | [], trail => trail
  | part :: rest, trail => runParts rest (part.run trail)

/-- The positions that one of several patterns leads to, besides those reached otherwise. -/
def runAny : List (List GlobPart) → Trail → Trail → Trail
  | [], _, reached => reached
  | parts :: rest, trail, reached => runAny rest trail (reached.union (runParts parts trail))

end

/-- Whether a pattern can match at all.  A path that ends in a dot names no file, so a pattern that
spells such a dot has to spell the path, or several of its last segments. -/
def isMatchable (parts : List GlobPart) : Bool :=
  let isSpelled (parts : List GlobPart) := parts.all GlobPart.isLiteral
  match parts.getLast?, parts with
  | some (.literal '.'), .leading :: rest =>
    isSpelled rest && rest.any fun
      | .literal '/' => true
      | _ => false
  | some (.literal '.'), _ => isSpelled parts
  | _, _ => true

/-- Whether a pattern matches a whole path.  A double star alone matches every path. -/
def globMatches (parts : List GlobPart) (path : Text) : Bool :=
  match parts with
  | [.leading] => true
  | _ => isMatchable parts && (runParts parts (.ofBytes (utf8 path))).atEnd

end Transplant.Ignore
