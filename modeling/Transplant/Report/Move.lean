import Transplant.Move
import Transplant.Report.Json
import Transplant.Report.Style

/-!
# Reports on a move

A move is reported as lines for a reader or as a JSON document.  The document of a dry run also
holds both new texts, since they are not written anywhere else.
-/

namespace Transplant.Report

def version : Text :=
  "0.1.0".toList

/-- What was moved: a declaration, or the lines if they declare nothing. -/
def subject (d : Display) (record : MoveRecord) : Text :=
  match record.symbol, record.kind with
  | some name, some kind => kind.word.toList ++ ' ' :: d.paint [.yellow, .bold] name
  | some name, none => d.paint [.yellow, .bold] name
  | none, _ => "lines ".toList ++ decimal record.movedLines.1 ++ '-' :: decimal record.movedLines.2

def summary (d : Display) (record : MoveRecord) (source target : Text) (dryRun : Bool) :
    List Text :=
  let verb := if dryRun then "Would move ".toList else "Moved ".toList
  let arrow := d.paint [.dim] ['→']
  let targetName := d.paint [.green] target
  let sourceName := d.paint [.cyan] source
  let toTarget := d.paint [.dim] record.paths.sourceToTarget
  let toSource := d.paint [.dim] record.paths.targetToSource
  let when (present : Bool) (line : Text) := if present then [line] else []
  [d.picture "📦 " "" ++ verb ++ subject d record ++ ' ' :: arrow ++ ' ' :: targetName] ++
    when record.clash ("   ".toList ++ d.picture "⚠️  " "! " ++
      "destination already declared this name; copy marked with a warning".toList) ++
    when record.sourceImported
      ("   ".toList ++ sourceName ++ " now imports it from ".toList ++ toTarget) ++
    when record.forwarded
      ("   ".toList ++ sourceName ++ " re-exports it from ".toList ++ toTarget) ++
    when (!record.carried.isEmpty)
      ("   ".toList ++ targetName ++ " imports ".toList ++
        Text.join ", ".toList record.carried ++ " from ".toList ++ toSource)

def stageWord : Stage → String
  | .linked => "linked"
  | .saved => "saved"

def ofRecord (record : MoveRecord) : Json :=
  .object [
    ("stage", .string (stageWord record.stage).toList),
    ("symbol", .ofText? record.symbol),
    ("kind", .ofText? (record.kind.map (·.word.toList))),
    ("moved_lines", .array [.number record.movedLines.1, .number record.movedLines.2]),
    ("conflict", .bool record.clash),
    ("exported", .bool record.exported),
    ("forwarded", .bool record.forwarded),
    ("source_imported", .bool record.sourceImported),
    ("carried", .array (record.carried.map .string)),
    ("paths", .object [
      ("source_to_target", .string record.paths.sourceToTarget),
      ("target_to_source", .string record.paths.targetToSource)])]

def moveDocument (time : Text) (moved : Moved) (dryRun : Bool) : Text :=
  let texts := if dryRun then
      [("buffers", Json.object [
        ("source", .string moved.source), ("target", .string moved.target)])]
    else []
  Json.render 0 <| .object <| [
    ("version", .string version),
    ("generated_at", .string time),
    ("source", .string moved.sourcePath),
    ("target", .string moved.targetPath),
    ("dry_run", .bool dryRun),
    ("report", ofRecord moved.record)] ++ texts

end Transplant.Report
