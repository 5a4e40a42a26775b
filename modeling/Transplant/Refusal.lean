import Transplant.Text.Basic

/-!
# Refusals

The reasons for which a move is refused.  A refused move changes neither file.
-/

namespace Transplant

inductive Refusal where
  | emptySelection
  | noEnclosingSymbol (line : Nat)
  | symbolNotFound (name : Text)
  | invalidRange (first last lines : Nat)
  | clash (symbol : Text)
  | sameFile
  deriving DecidableEq, Repr

def decimal (n : Nat) : Text :=
  Nat.toDigits 10 n

def backquoted (t : Text) : Text :=
  '\x60' :: t ++ ['\x60']

def Refusal.message : Refusal → Text
  | emptySelection => "selected text is empty".toList
  | noEnclosingSymbol line => "no declaration encloses line ".toList ++ decimal line
  | symbolNotFound name => "no declaration named ".toList ++ backquoted name ++ " found".toList
  | invalidRange first last lines =>
    "line range ".toList ++ decimal first ++ ':' :: decimal last ++
      " is outside the file (".toList ++ decimal lines ++ " lines)".toList
  | clash symbol => backquoted symbol ++ " is already declared in the destination".toList
  | sameFile => "source and destination are the same file".toList

end Transplant
