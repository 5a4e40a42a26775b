import Transplant.Toml.Scalar

/-!
# Configuration documents

Reads a whole document: key and value pairs, tables in braces, lists over several lines, headers
of tables, comments.  Values may nest 79 levels deep and keys may have 79 parts.  The readers of
values also take a bound on their steps, and the reader of lines one on the number of lines; these
bounds are taken from the length of the text.
-/

namespace Transplant.Toml

/-- Characters of keys without quotation marks. -/
def isBareKeyChar (c : Char) : Bool :=
  c.isAlphanum || c == '_' || c == '-'

def skipSpaces (t : Text) : Text :=
  t.dropWhile isSpace

def keyPart? (t : Text) : Option (Text × Text) :=
  match t with
  | '"' :: rest => basicBody? rest
  | '\x27' :: rest => literalBody? rest
  | _ =>
    let key := t.takeWhile isBareKeyChar
    if key.isEmpty then none else some (key, t.dropWhile isBareKeyChar)

/-- The levels of nested values, and the parts of a key, that a document may have. -/
def maxLevels : Nat := 79

def keyParts? : (bound : Nat) → Text → Option (List Text × Text)
  | 0, _ => none
  | bound + 1, t => do
    let (part, rest) ← keyPart? (skipSpaces t)
    match skipSpaces rest with
    | '.' :: rest => do
      let (parts, rest) ← keyParts? bound rest
      return (part :: parts, rest)
    | rest => return ([part], rest)

def key? (t : Text) : Option (List Text × Text) :=
  keyParts? maxLevels t

def comment? (t : Text) : Option Text :=
  match t with
  | '#' :: rest =>
    let line := rest.takeWhile (· ≠ '\n')
    let closed := line.getLast? = some '\r' ∧ line.length < rest.length
    let body := if closed then line.dropLast else line
    if body.any isControl then none else some (rest.drop body.length)
  | _ => some t

def lineBreak? : Text → Option Text
  | '\n' :: rest => some rest
  | '\r' :: '\n' :: rest => some rest
  | _ => none

/-- Reads what may stand behind a statement: spaces, a comment, and the end of the line or of the
text. -/
def endOfLine? (t : Text) : Option Text := do
  let t ← comment? (skipSpaces t)
  if t.isEmpty then some [] else lineBreak? t

/-- Skips spaces, line breaks and comments.  At most `bound` lines are skipped. -/
def skipLines? : (bound : Nat) → Text → Option Text
  | 0, _ => none
  | bound + 1, t => do
    let t ← comment? (skipSpaces t)
    match lineBreak? t with
    | some rest => skipLines? bound rest
    | none => some t

/-- The path of a key and its last part. -/
def splitKey (parts : List Text) : List Text × Text :=
  (parts.dropLast, parts.getLast?.getD [])

mutual

/-- Reads a value that nests at most `levels` deep, in at most `bound` steps. -/
def value? : (bound levels : Nat) → Text → Option (Value × Text)
  | 0, _, _ => none
  | bound + 1, levels, t =>
    match t, levels with
    | '[' :: _, 0 | '\x7b' :: _, 0 => none
    | '[' :: rest, levels + 1 => do
      let (elements, rest) ← elements? bound levels rest
      return (.array elements, rest)
    | '\x7b' :: rest, levels + 1 =>
      match skipSpaces rest with
      | '\x7d' :: rest => some (.table .closed [], rest)
      | rest => do
        let (members, rest) ← members? bound levels [] rest
        return (.table .closed members, rest)
    | _, _ => scalar? t

/-- Reads the elements of a list and its closing bracket.  A comma may follow the last element. -/
def elements? : (bound levels : Nat) → Text → Option (List Value × Text)
  | 0, _, _ => none
  | bound + 1, levels, t => do
    let t ← skipLines? (t.length + 1) t
    match t with
    | ']' :: rest => some ([], rest)
    | _ =>
      let (first, rest) ← value? bound levels t
      let rest ← skipLines? (rest.length + 1) rest
      match rest with
      | ',' :: rest => do
        let (others, rest) ← elements? bound levels rest
        return (first :: others, rest)
      | ']' :: rest => some ([first], rest)
      | _ => none

/-- Reads the members of a table in braces and its closing brace; `found` holds those in front. -/
def members? : (bound levels : Nat) → (found : Members) → Text → Option (Members × Text)
  | 0, _, _, _ => none
  | bound + 1, levels, found, t => do
    let (parts, rest) ← key? t
    let rest ← Text.after? ['='] rest
    let (value, rest) ← value? bound levels (skipSpaces rest)
    let (path, key) := splitKey parts
    let found ← found.insertDotted? path key value
    match skipSpaces rest with
    | ',' :: rest => members? bound levels found rest
    | '\x7d' :: rest => some (found, rest)
    | _ => none

end

/-- A document that is being read: what was found and the header it goes under. -/
structure Reader where
  members : Members
  header : List Text

def header? (r : Reader) (t : Text) : Option (Reader × Text) := do
  let (parts, rest) ← key? t
  let rest ← Text.after? [']'] rest
  let (path, key) := splitKey parts
  let members ← r.members.defineTable? path key
  return ({ members, header := parts }, rest)

def arrayHeader? (r : Reader) (t : Text) : Option (Reader × Text) := do
  let (parts, rest) ← key? t
  let rest ← Text.after? [']', ']'] rest
  let (path, key) := splitKey parts
  let members ← r.members.appendTable? path key
  return ({ members, header := parts }, rest)

def pair? (r : Reader) (t : Text) : Option (Reader × Text) := do
  let (parts, rest) ← key? t
  let rest ← Text.after? ['='] rest
  let (value, rest) ← value? (rest.length + 1) maxLevels (skipSpaces rest)
  let (path, key) := splitKey parts
  let members ← r.members.insertUnder? r.header path key value
  return ({ r with members }, rest)

def lines? : (bound : Nat) → Reader → Text → Option Reader
  | 0, _, _ => none
  | bound + 1, r, t =>
    match skipSpaces t with
    | [] => some r
    | '#' :: rest => endOfLine? ('#' :: rest) >>= lines? bound r
    | '\n' :: rest => lines? bound r rest
    | '\r' :: '\n' :: rest => lines? bound r rest
    | '[' :: '[' :: rest => do
      let (r, rest) ← arrayHeader? r rest
      endOfLine? rest >>= lines? bound r
    | '[' :: rest => do
      let (r, rest) ← header? r rest
      endOfLine? rest >>= lines? bound r
    | t => do
      let (r, rest) ← pair? r t
      endOfLine? rest >>= lines? bound r

def parse? (t : Text) : Option Members :=
  let t := match t with
    | '\uFEFF' :: rest => rest
    | _ => t
  (lines? (t.length + 1) { members := [], header := [] } t).map (·.members)

end Transplant.Toml
