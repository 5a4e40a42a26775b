import Transplant.Prologue

/-!
# Clauses of import and export statements

The parts that import and export statements are made of: a list of names in braces, a module path
in quotation marks, an optional semicolon.  Each reader takes a text and returns what it read with
the rest; blanks may stand in front of each part.
-/

namespace Transplant.Clause

/-- Skips blanks, then expects a phrase. -/
def expect? (phrase : String) (t : Text) : Option Text :=
  Text.after? phrase.toList t.trimStart

/-- The names between commas, trimmed; empty entries are dropped. -/
def names (list : Text) : List Text :=
  ((list.pieces ',').map Text.trim).filter fun name => !name.isEmpty

def braced? (t : Text) : Option (List Text × Text) := do
  let body ← expect? "\x7b" t
  let rest ← Text.after? ['\x7d'] (body.dropWhile (· ≠ '\x7d'))
  return (names (body.takeWhile (· ≠ '\x7d')), rest)

/-- A module path and the quotation mark that opens it. -/
structure Origin where
  quote : Char
  path : Text
  deriving DecidableEq, Repr

/-- Reads a module path in quotation marks.  The closing mark may differ from the opening one. -/
def quoted? (t : Text) : Option (Origin × Text) :=
  match t.trimStart with
  | quote :: body =>
    if Prologue.isQuote quote then
      match body.dropWhile (!Prologue.isQuote ·) with
      | _ :: rest => some ({ quote, path := body.takeWhile (!Prologue.isQuote ·) }, rest)
      | [] => none
    else none
  | [] => none

def origin? (t : Text) : Option (Origin × Text) :=
  expect? "from" t >>= quoted?

/-- Reads a semicolon if there is one; without one the blanks stay. -/
def semicolon (t : Text) : Bool × Text :=
  match expect? ";" t with
  | some rest => (true, rest)
  | none => (false, t)

def renderNames (names : List Text) : Text :=
  "\x7b ".toList ++ Text.join ", ".toList names ++ " \x7d".toList

def Origin.render (origin : Origin) : Text :=
  " from ".toList ++ origin.quote :: origin.path ++ [origin.quote]

def renderSemicolon (present : Bool) : Text :=
  if present then [';'] else []

end Transplant.Clause
