import Transplant.Text.Basic

/-!
# Terminal styles

Colours, weights and pictures in the output of the command.  A display says which of them the
terminal takes; without colours a text is printed as it is, without pictures a plain replacement
is printed.
-/

namespace Transplant.Report

/-- What the terminal takes. -/
structure Display where
  color : Bool
  pictures : Bool
  deriving DecidableEq, Repr

inductive Style where
  | red
  | green
  | yellow
  | cyan
  | bold
  | dim
  deriving DecidableEq, Repr

def Style.code : Style → Text
  | red => "31".toList
  | green => "32".toList
  | yellow => "33".toList
  | cyan => "36".toList
  | bold => "1".toList
  | dim => "2".toList

def escape (code : Text) : Text :=
  '\x1b' :: '[' :: code ++ ['m']

def Display.paint (d : Display) (styles : List Style) (t : Text) : Text :=
  if d.color then styles.flatMap (fun style => escape style.code) ++ t ++ escape ['0'] else t

def Display.picture (d : Display) (picture replacement : String) : Text :=
  if d.pictures then picture.toList else replacement.toList

end Transplant.Report
