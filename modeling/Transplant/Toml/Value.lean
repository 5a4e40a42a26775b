import Transplant.Text.Basic

/-!
# Values of a configuration document

The tree that a TOML document describes.  Tables remember how they came about, because that
decides whether a later part of the document may add to them: a table written in braces is closed,
a table with a header is defined once, and dotted keys only add to tables that dotted keys made.
-/

namespace Transplant.Toml

inductive TableKind where
  /-- Written in braces. -/
  | closed
  /-- Defined by a header of its own. -/
  | header
  /-- Named on the way to another header. -/
  | implicit
  /-- Made by a dotted key. -/
  | dotted
  deriving DecidableEq, Repr

/-- A value.  Of numbers that are not whole and of dates only their presence is kept. -/
inductive Value where
  | string (t : Text)
  | integer (n : Int)
  | boolean (b : Bool)
  | float
  | datetime
  | array (elements : List Value)
  | table (kind : TableKind) (members : List (Text × Value))
  /-- Tables defined one by one under headers in double brackets. -/
  | tables (elements : List (List (Text × Value)))

abbrev Members := List (Text × Value)

namespace Members

def replace (members : Members) (key : Text) (value : Value) : Members :=
  members.map fun (k, v) => if k = key then (k, value) else (k, v)

/-- Adds a key that is not there yet. -/
def insertNew? (members : Members) (key : Text) (value : Value) : Option Members :=
  if (members.lookup key).isSome then none else some (members ++ [(key, value)])

/-- Changes the table at the end of a path and makes missing tables on the way.  `viaDots` tells
that the path is part of a dotted key; `change` learns whether the table was made by a dotted key.
-/
def descend? (viaDots : Bool) (change : Bool → Members → Option Members) :
    (madeByDots : Bool) → (path : List Text) → Members → Option Members
  | madeByDots, [], members => change madeByDots members
  | _, key :: path, members =>
    match members.lookup key with
    | none => do
      let inner ← descend? viaDots change viaDots path []
      return members ++ [(key, .table (if viaDots then .dotted else .implicit) inner)]
    | some (.table kind inner) =>
      if kind = .closed ∨ (viaDots ∧ kind = .header) then none
      else do
        let inner ← descend? viaDots change (kind = .dotted) path inner
        return members.replace key (.table kind inner)
    | some (.tables elements) =>
      match elements.getLast? with
      | none => none
      | some last => do
        let last ← descend? viaDots change false path last
        return members.replace key (.tables (elements.dropLast ++ [last]))
    | some _ => none

/-- Adds the value of a dotted key.  A plain key does not add to a table made by dots, nor a
dotted key to one that was not. -/
def insertDotted? (members : Members) (path : List Text) (key : Text) (value : Value) :
    Option Members :=
  descend? true (fun madeByDots inner =>
    if madeByDots = path.isEmpty then none else insertNew? inner key value) false path members

def defineTable? (members : Members) (path : List Text) (key : Text) : Option Members :=
  descend? false (fun _ inner =>
    match inner.lookup key with
    | none => some (inner ++ [(key, .table .header [])])
    | some (.table .implicit old) => some (replace inner key (.table .header old))
    | some _ => none) false path members

def appendTable? (members : Members) (path : List Text) (key : Text) : Option Members :=
  descend? false (fun _ inner =>
    match inner.lookup key with
    | none => some (inner ++ [(key, .tables [[]])])
    | some (.tables elements) => some (replace inner key (.tables (elements ++ [[]])))
    | some _ => none) false path members

/-- Adds the value of a key under the current header. -/
def insertUnder? (members : Members) (header path : List Text) (key : Text) (value : Value) :
    Option Members :=
  descend? false (fun _ inner => insertDotted? inner path key value) false header members

end Members

end Transplant.Toml
