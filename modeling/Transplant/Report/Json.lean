import Transplant.Refusal

/-!
# JSON documents

The values that reports are written from, and their layout: two spaces of indent for each level,
one member or element a line, empty lists and objects on one line.
-/

namespace Transplant.Report

/-- A JSON value.  Reports have no fractions and no negative numbers. -/
inductive Json where
  | null
  | bool (value : Bool)
  | number (value : Nat)
  | string (value : Text)
  | array (elements : List Json)
  | object (members : List (String × Json))

namespace Json

def hexDigit (n : Nat) : Char :=
  Nat.digitChar (n % 16)

/-- A character inside quotation marks.  Control characters without a letter of their own are
written by their code; everything from the space on stands for itself. -/
def escapeChar (c : Char) : Text :=
  if c = '"' then ['\\', '"']
  else if c = '\\' then ['\\', '\\']
  else if c = '\n' then ['\\', 'n']
  else if c = '\r' then ['\\', 'r']
  else if c = '\t' then ['\\', 't']
  else if c = '\x08' then ['\\', 'b']
  else if c = '\x0c' then ['\\', 'f']
  else if c.toNat < 0x20 then ['\\', 'u', '0', '0', hexDigit (c.toNat / 16), hexDigit c.toNat]
  else [c]

def quote (t : Text) : Text :=
  '"' :: t.flatMap escapeChar ++ ['"']

/-- A line break and the indent of a level. -/
def newline (level : Nat) : Text :=
  '\n' :: List.replicate (2 * level) ' '

mutual

def render (level : Nat) : Json → Text
  | null => "null".toList
  | bool value => if value then "true".toList else "false".toList
  | number value => decimal value
  | string value => quote value
  | array [] => "[]".toList
  | array (first :: rest) =>
    '[' :: newline (level + 1) ++ render (level + 1) first ++ renderElements (level + 1) rest ++
      newline level ++ [']']
  | object [] => "\x7b\x7d".toList
  | object (first :: rest) =>
    '\x7b' :: newline (level + 1) ++ renderMember (level + 1) first ++
      renderMembers (level + 1) rest ++ newline level ++ ['\x7d']

def renderElements (level : Nat) : List Json → Text
  | [] => []
  | first :: rest => ',' :: newline level ++ render level first ++ renderElements level rest

def renderMember (level : Nat) : String × Json → Text
  | (key, value) => quote key.toList ++ ':' :: ' ' :: render level value

def renderMembers (level : Nat) : List (String × Json) → Text
  | [] => []
  | first :: rest => ',' :: newline level ++ renderMember level first ++ renderMembers level rest

end

def ofText? : Option Text → Json
  | some t => string t
  | none => null

end Json

end Transplant.Report
