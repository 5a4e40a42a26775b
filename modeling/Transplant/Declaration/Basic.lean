import Transplant.Text.Basic

/-!
# Declarations

The kinds of declarations a file can hold, and the names that can be moved.  An `Identifier` is an
ASCII identifier: the declaration heuristics accept letters of every script inside a name, but
only an ASCII name is linked between files.
-/

namespace Transplant

inductive Kind where
  | interfaceDecl
  | typeDecl
  | classDecl
  | functionDecl
  | enumDecl
  | variableDecl
  deriving DecidableEq, Repr

namespace Kind

/-- All kinds, in the order in which reports list them. -/
def all : List Kind :=
  [interfaceDecl, typeDecl, classDecl, functionDecl, enumDecl, variableDecl]

def word : Kind → String
  | interfaceDecl => "interface"
  | typeDecl => "type"
  | classDecl => "class"
  | functionDecl => "function"
  | enumDecl => "enum"
  | variableDecl => "variable"

def ofKeyword? (keyword : Text) : Option Kind :=
  if keyword = "interface".toList then some interfaceDecl
  else if keyword = "type".toList then some typeDecl
  else if keyword = "class".toList then some classDecl
  else if keyword = "function".toList ∨ keyword = "function*".toList then some functionDecl
  else if keyword = "enum".toList then some enumDecl
  else if keyword = "const".toList ∨ keyword = "let".toList ∨ keyword = "var".toList then
    some variableDecl
  else none

/-- Kinds whose declarations end with a block in braces. -/
def hasBlock : Kind → Bool
  | interfaceDecl | classDecl | functionDecl | enumDecl => true
  | typeDecl | variableDecl => false

/-- Kinds whose declarations can hold further declarations. -/
def nests : Kind → Bool
  | classDecl | functionDecl => true
  | _ => false

end Kind

def isIdentStart (c : Char) : Bool :=
  c.isAlpha || c == '_' || c == '$'

/-- A non-empty text of ASCII letters, digits, `_` and `$` that does not start with a digit. -/
def isIdentifier : Text → Bool
  | [] => false
  | c :: rest => isIdentStart c && rest.all fun d => isIdentStart d || d.isDigit

/-- An identifier that can be moved, imported and exported. -/
structure Identifier where
  text : Text
  valid : isIdentifier text
  deriving DecidableEq

def Identifier.ofText? (t : Text) : Option Identifier :=
  if h : isIdentifier t then some ⟨t, h⟩ else none

structure Declaration where
  kind : Kind
  name : Text
  exported : Bool
  /-- The index of its line. -/
  line : Nat
  deriving DecidableEq, Repr

end Transplant
