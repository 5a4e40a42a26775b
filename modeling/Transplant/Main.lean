import Std.Time.DateTime.Timestamp
import Transplant.Command.Run

/-!
# The program

Looks at the files that a command line concerns, runs the command on them and writes what it
changed.  Nothing is asked at the terminal: the run goes on as if nobody sat there.
-/

namespace Transplant.Program

open Transplant.Command

def pathOf (location : Location) : String :=
  String.ofList ('/' :: Text.join ['/'] location)

def probe (location : Location) : IO (Option Entry) := do
  let path := (← IO.currentDir) / pathOf location
  if ← path.isDir then return some .directory
  else if ← path.pathExists then
    return some (.file (.ofBytes (← IO.FS.readBinFile path).toList))
  else return none

def look (tree : Tree) (locations : List Location) : IO Tree :=
  locations.foldlM (fun tree location => do
    if (tree.get? location).isSome then return tree
    match ← probe location with
    | some entry => return tree.insert location entry
    | none => return tree) tree

/-- The locations on the way along a path. -/
def onTheWay (cwd : Location) (path : Text) : List Location :=
  match path with
  | '/' :: _ => Tree.visited [] (path.pieces '/')
  | _ => Ignore.upward cwd ++ Tree.visited cwd (path.pieces '/')

def lookInside (tree : Tree) (directory : Location) : IO Tree := do
  let path := (← IO.currentDir) / pathOf directory
  if ← path.isDir then
    let names := (← path.readDir).toList.map fun entry => entry.fileName.toList
    look tree (names.map fun name => directory ++ [name])
  else return tree

def lookForSettings (w : World) (config : Option Text) (file : Text) : IO World := do
  let directories := onTheWay w.cwd file ++ Ignore.upward (Browse.absolutePath w.cwd file).names
  let places := directories ++ directories.map (· ++ [Settings.projectFile])
  let tree ← look w.tree (places ++ (config.map (onTheWay w.cwd)).getD [])
  return { w with tree }

def lookFor (w : World) (i : Invocation) : IO World := do
  match i.action with
  | .path .. => return w
  | .move args =>
    let w ← lookForSettings w i.config args.file
    match settingsFor w i.config args.file with
    | .error _ => return w
    | .ok settings =>
      let target := destinationPath args.file (args.target.getD settings.defaultTarget)
      return { w with tree := ← look w.tree (onTheWay w.cwd target.toText) }
  | .browse args =>
    let w ← lookForSettings w i.config args.file
    let query : Browse.Query :=
      { file := args.file, directory := args.directory, search := args.search, root := args.root
        extensions := [], defaultTarget := [] }
    let listed := Tree.locate w.cwd (query.places w.cwd).listed
    let above := Ignore.upward listed
    let ruleFiles := [[".ignore"], [".gitignore"], [".jj"], [".git"],
      [".git", "info", "exclude"]]
    let tree ← look w.tree (above ++ above.flatMap fun directory =>
      ruleFiles.map fun file => directory ++ file.map String.toList)
    return { w with tree := ← lookInside tree listed }

def store (before after : Tree) : IO Unit := do
  for (location, entry) in after.entries.reverse do
    if before.get? location ≠ some entry then
      let path := (← IO.currentDir) / pathOf location
      match entry with
      | .directory => IO.FS.createDirAll path
      | .file (.text t) => IO.FS.writeFile path (String.ofList t)
      | .file (.bytes b) => IO.FS.writeBinFile path ⟨b.toArray⟩

def userSettings : IO (Option Content) := do
  let home := (← IO.getEnv "HOME").map (· ++ "/.config")
  match (← IO.getEnv "XDG_CONFIG_HOME").or home with
  | none => return none
  | some base =>
    let location := (Path.ofText base.toList).names ++ ["relocate".toList, "config.toml".toList]
    match ← probe location with
    | some (.file content) => return some content
    | _ => return none

def run (args : List String) : IO UInt32 := do
  let arguments := args.map String.toList
  let stdout ← IO.getStdout
  let terminal ← stdout.isTty
  let now ← Std.Time.Timestamp.now
  let world : World :=
    { tree := ⟨[]⟩
      cwd := (Path.ofText (← IO.currentDir).toString.toList).names
      userSettings := ← userSettings
      display := { color := terminal, pictures := terminal }
      time := timestamp now.toSecondsSinceUnixEpoch.val.toNat }
  let world ← match parseArguments arguments with
    | .ok invocation => lookFor world invocation
    | .error _ => pure world
  let outcome := Command.run world arguments
  store world.tree outcome.tree
  stdout.putStr (String.ofList outcome.stdout)
  (← IO.getStderr).putStr (String.ofList outcome.stderr)
  return outcome.exit.toUInt32

end Transplant.Program

def main (args : List String) : IO UInt32 :=
  Transplant.Program.run args
