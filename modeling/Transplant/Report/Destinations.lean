import Transplant.Browse
import Transplant.Report.Move

/-!
# Reports on destinations

A listing of destinations is printed line by line or as a JSON document.
-/

namespace Transplant.Report

open Transplant.Browse

def destinationIcon (d : Display) : DestinationKind → Text
  | .parent => d.picture "⬆️  " "^ "
  | .directory => d.picture "📁 " ""
  | .file => d.picture "📄 " ""
  | .new => d.picture "✨ " "+ "

def destinationLine (d : Display) (c : Destination) : Text :=
  let path := if c.relativePath.isEmpty then ['.'] else c.relativePath
  destinationIcon d c.kind ++ d.paint [.green] path ++
    ' ' :: d.paint [.dim] ('(' :: c.description ++ [')'])

def ofDestination (c : Destination) : Json :=
  .object [
    ("kind", .string c.kind.word.toList),
    ("label", .string c.label),
    ("description", .string c.description),
    ("relative_path", .string c.relativePath)]

def destinationsDocument (time file directory : Text) (destinations : List Destination) : Text :=
  Json.render 0 <| .object [
    ("version", .string version),
    ("generated_at", .string time),
    ("file", .string file),
    ("directory", .string directory),
    ("candidates", .array (destinations.map ofDestination))]

end Transplant.Report
