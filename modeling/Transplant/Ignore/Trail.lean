/-!
# Trails

A text of bytes in which every position is marked as reached or not.  A pattern is matched by
moving all marks at once, so the work grows with the length of the pattern times the length of the
text, however the pattern is written.
-/

namespace Transplant.Ignore

/-- The positions of a text from one of them to the end, with the bytes between them. -/
inductive Trail where
  /-- The position behind the last byte. -/
  | finish (reached : Bool)
  /-- A position, the byte behind it, and what follows. -/
  | cell (reached : Bool) (byte : UInt8) (rest : Trail)
  deriving DecidableEq, Repr

namespace Trail

/-- A text of which no position is reached. -/
def unreached : List UInt8 → Trail
  | [] => .finish false
  | byte :: rest => .cell false byte (unreached rest)

/-- A text of which only the front is reached. -/
def ofBytes : List UInt8 → Trail
  | [] => .finish true
  | byte :: rest => .cell true byte (unreached rest)

def atEnd : Trail → Bool
  | .finish reached => reached
  | .cell _ _ rest => atEnd rest

/-- What one byte of a kind leads to; `entered` tells whether the first position is reached from
in front of it. -/
def stepFrom (accepts : UInt8 → Bool) (entered : Bool) : Trail → Trail
  | .finish _ => .finish entered
  | .cell reached byte rest => .cell entered byte (stepFrom accepts (reached && accepts byte) rest)

def step (accepts : UInt8 → Bool) (trail : Trail) : Trail :=
  trail.stepFrom accepts false

/-- What any number of bytes of a kind lead to, with a first position that may be reached from in
front of it. -/
def spreadFrom (accepts : UInt8 → Bool) (entered : Bool) : Trail → Trail
  | .finish reached => .finish (entered || reached)
  | .cell reached byte rest =>
    .cell (entered || reached) byte
      (spreadFrom accepts ((entered || reached) && accepts byte) rest)

def spread (accepts : UInt8 → Bool) (trail : Trail) : Trail :=
  trail.spreadFrom accepts false

/-- What some bytes, one behind the other, lead to. -/
def follow (trail : Trail) (word : List UInt8) : Trail :=
  word.foldl (fun trail byte => trail.step (· == byte)) trail

/-- The positions that one of two trails over the same text reaches. -/
def union : Trail → Trail → Trail
  | .finish a, .finish b => .finish (a || b)
  | .cell a byte as, .cell b _ bs => .cell (a || b) byte (union as bs)
  | trail, _ => trail

end Trail

end Transplant.Ignore
