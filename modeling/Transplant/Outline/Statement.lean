import Transplant.Lexical

/-!
# The extent of a statement

Where the statement at the front of a text ends.  A declaration with a block ends at the brace
that closes its first block.  Any other statement ends at a semicolon outside all brackets, or at
a line break outside all brackets where the expression does not go on.  Brackets are counted by
integers of any size; counters of 32 bits agree with them as long as fewer than 2147483648 brackets
of a kind are open.
-/

namespace Transplant.Statement

/-- Open brackets of each kind.  Closing brackets without a partner count below zero. -/
structure Depth where
  parens : Int
  brackets : Int
  braces : Int
  deriving DecidableEq, Repr

namespace Depth

def zero : Depth :=
  { parens := 0, brackets := 0, braces := 0 }

def atTop (d : Depth) : Bool :=
  d.parens ≤ 0 && d.brackets ≤ 0 && d.braces ≤ 0

/-- Whether a brace that was just closed ends a block. -/
def closesBlock (d : Depth) : Bool :=
  d.braces = 0 && d.parens ≤ 0 && d.brackets ≤ 0

/-- The depth behind a character of live code. -/
def after (d : Depth) (c : Char) : Depth :=
  match c with
  | '(' => { d with parens := d.parens + 1 }
  | ')' => { d with parens := d.parens - 1 }
  | '[' => { d with brackets := d.brackets + 1 }
  | ']' => { d with brackets := d.brackets - 1 }
  | '\x7b' => { d with braces := d.braces + 1 }
  | '\x7d' => { d with braces := d.braces - 1 }
  | _ => d

end Depth

/-- Characters at the end of a line after which the expression goes on. -/
def trailingMarks : List Char :=
  ['=', ',', '(', '[', '\x7b', '|', '&', '+', '-', '?', ':', '.']

/-- Characters at the start of a line that continue the expression above. -/
def leadingMarks : List Char :=
  ['.', '|', '&', '?', ':', '=']

/-- Whether the expression goes on behind a line break.  `current` is the line in front, written
backwards, and `rest` the text behind; blank lines of it are passed over. -/
def continues (current rest : Text) : Bool :=
  match current.dropWhile Text.isBlank with
  | [] => true
  | '>' :: '=' :: _ => true
  | c :: _ =>
    trailingMarks.contains c ||
      match (rest.lines.find? fun line => !line.trim.isEmpty).map Text.trimStart with
      | some (d :: _) => leadingMarks.contains d
      | _ => false

/-- The offset of the last character of a statement.  `offset` counts the characters passed, and
`current` holds those behind the last line break of live code, written backwards. -/
def endFrom (block : Bool) (state : LexState) (depth : Depth) (current : Text) (offset : Nat) :
    Text → Nat
  | [] => offset - 1
  | c :: rest =>
    let (live, next) := state.step c rest.head?
    if !live then endFrom block next depth (c :: current) (offset + 1) rest
    else if c = '\x7d' ∧ block ∧ (depth.after c).closesBlock then offset
    else if c = ';' ∧ depth.atTop then offset
    else if c = '\n' then
      if depth.atTop && !block && !continues current rest then offset - 1
      else endFrom block next depth [] (offset + 1) rest
    else endFrom block next (depth.after c) (c :: current) (offset + 1) rest

/-- The offset of the last character of the statement at the front of a text; a statement that
never ends reaches to the end of the text. -/
def endOffset (block : Bool) (t : Text) : Nat :=
  endFrom block .code .zero [] 0 t

/-- The number of line breaks inside the statement at the front of a text. -/
def lineBreaks (block : Bool) (t : Text) : Nat :=
  (t.take (endOffset block t)).count '\n'

end Transplant.Statement
