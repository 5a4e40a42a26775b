import Transplant.Declaration.Listing

/-!
# Export markers

Taking the word `export` off a declaration line and putting it back.  Both edits change one line
and leave the line breaks of the text as they are.
-/

namespace Transplant

/-- Takes the marker off the first top-level declaration line; `none` if that line is a default
export, has no marker, or does not exist. -/
def unmarkFirst? : List Text → Option (List Text)
  | [] => none
  | line :: rest =>
    match Head.parse? line with
    | some h =>
      if h.isTopLevel then
        if h.isDefault then none
        else h.marker.map fun marker => line.drop marker.length :: rest
      else (unmarkFirst? rest).map (line :: ·)
    | none => (unmarkFirst? rest).map (line :: ·)

/-- Takes the marker off the first top-level declaration of a text, and tells whether there was
one. -/
def unmarkExported (text : Text) : Text × Bool :=
  match unmarkFirst? (text.pieces '\n') with
  | some lines => (Text.join ['\n'] lines, true)
  | none => (text, false)

def exportMarker : Text :=
  "export ".toList

/-- Puts a marker in front of the first top-level declaration of a name, unless it has one. -/
def markExported (source name : Text) : Text :=
  match declarationOf? source name with
  | some d =>
    if d.exported then source
    else Text.join ['\n'] ((source.pieces '\n').modify d.line (exportMarker ++ ·))
  | none => source

/-- Exports every declaration that the target imports back. -/
def markAllExported (source : Text) (carried : List Text) : Text :=
  carried.foldl markExported source

end Transplant
