import Transplant.Text.Basic

/-!
# Line numbers on the command line

A line number is a 64-bit word in decimal digits, with an optional plus in front.  A range is
`first:last` or a single line.
-/

namespace Transplant.Command

def lineNumber? (t : Text) : Option Nat :=
  let digits := match t with
    | '+' :: rest => rest
    | _ => t
  if digits.isEmpty ∨ !digits.all Char.isDigit then none
  else
    let n := digits.foldl (fun n c => n * 10 + (c.toNat - '0'.toNat)) 0
    if n < UInt64.size then some n else none

inductive SpanError where
  | badFirst (part : Text)
  | badLast (part : Text)
  /-- The range is empty or starts at zero. -/
  | badRange (whole : Text)
  deriving DecidableEq, Repr

def SpanError.message : SpanError → Text
  | badFirst part => "invalid start line: ".toList ++ part
  | badLast part => "invalid end line: ".toList ++ part
  | badRange whole => "invalid line range: ".toList ++ whole

def parseSpan (t : Text) : Except SpanError (Nat × Nat) :=
  let (firstPart, lastPart) := (Text.cut? [':'] t).getD (t, t)
  match lineNumber? firstPart.trim with
  | none => .error (.badFirst firstPart)
  | some first =>
    match lineNumber? lastPart.trim with
    | none => .error (.badLast lastPart)
    | some last =>
      if first = 0 ∨ last < first then .error (.badRange t) else .ok (first, last)

end Transplant.Command
