import Transplant.Declaration.Basic

/-!
# Outlines

An outline names the line ranges of the declarations of a document, with the declarations inside
them.  Any function from texts to outlines can serve to resolve a cursor or a name; the library
brings one of its own in `Transplant.Outline.Heuristic`.
-/

namespace Transplant

/-- A range of lines, counted from zero, both ends included. -/
structure LineSpan where
  first : Nat
  last : Nat
  deriving DecidableEq, Repr

def LineSpan.contains (r : LineSpan) (line : Nat) : Bool :=
  r.first ≤ line && line ≤ r.last

/-- A named range of a document.  The range takes in the comments and decorators above the
declaration. -/
inductive OutlineItem where
  | mk (name : Text) (kind : Kind) (range : LineSpan) (children : List OutlineItem)

namespace OutlineItem

def name : OutlineItem → Text
  | mk name _ _ _ => name

def kind : OutlineItem → Kind
  | mk _ kind _ _ => kind

def range : OutlineItem → LineSpan
  | mk _ _ range _ => range

def children : OutlineItem → List OutlineItem
  | mk _ _ _ children => children

mutual

/-- The outermost item at or below this one whose range contains a line. -/
def enclosing? (line : Nat) : OutlineItem → Option OutlineItem
  | mk name kind range children =>
    if range.contains line then some (mk name kind range children)
    else enclosingIn? line children

/-- The first outermost item whose range contains a line.  An item is asked before its children,
and its children before its later siblings. -/
def enclosingIn? (line : Nat) : List OutlineItem → Option OutlineItem
  | [] => none
  | item :: rest => (enclosing? line item).or (enclosingIn? line rest)

end

mutual

/-- The first item of a name below this one, siblings before their children. -/
def below? (name : Text) : OutlineItem → Option OutlineItem
  | mk _ _ _ children => (children.find? (·.name = name)).or (belowAny? name children)

/-- The first item of a name below one of the given items. -/
def belowAny? (name : Text) : List OutlineItem → Option OutlineItem
  | [] => none
  | item :: rest => (below? name item).or (belowAny? name rest)

end

/-- The first item of a name, siblings before their children. -/
def named? (name : Text) (items : List OutlineItem) : Option OutlineItem :=
  (items.find? (·.name = name)).or (belowAny? name items)

end OutlineItem

/-- Supplies the outline of a document. -/
abbrev Outliner := Text → List OutlineItem

end Transplant
