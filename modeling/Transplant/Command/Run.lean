import Transplant.Command.Arguments
import Transplant.Outline.Heuristic
import Transplant.Report.Destinations

/-!
# Running a command

A run takes the files, the working directory and the arguments, and gives the exit code, the
output and the files afterwards, also where it fails.  Files change in one place only, where a
finished move is written.  Someone at the terminal is asked twice at most: for a destination that is
neither given nor to be reported, and whether to go on in spite of a clash.  How they come to their
answers, browsing from directory to directory, is left to them.
-/

namespace Transplant.Command

/-- The answers of someone at the terminal. -/
structure Attendant where
  /-- The destination that they pick, or the cause why they pick none. -/
  picked : Except Text Text
  /-- Whether they let a name move into a file that declares it already. -/
  confirms (name file : Text) : Bool

/-- What a run finds. -/
structure World where
  tree : Tree
  /-- The working directory. -/
  cwd : Location
  /-- The user's own settings file. -/
  userSettings : Option Content
  display : Report.Display
  /-- The time that reports are dated with. -/
  time : Text
  attendant : Option Attendant := none

/-- The time of day and the date, as reports write them, of a number of seconds since the start of
1970.  Years are counted from March, so that the leap day is the last of its year. -/
def timestamp (seconds : Nat) : Text :=
  let padded (width n : Nat) : Text :=
    List.replicate (width - (decimal n).length) '0' ++ decimal n
  let days := seconds / 86400 + 719468
  let era := days / 146097
  let dayOfEra := days % 146097
  let yearOfEra := (dayOfEra - dayOfEra / 1460 + dayOfEra / 36524 - dayOfEra / 146096) / 365
  let dayOfYear := dayOfEra - (365 * yearOfEra + yearOfEra / 4 - yearOfEra / 100)
  let shifted := (5 * dayOfYear + 2) / 153
  let day := dayOfYear - (153 * shifted + 2) / 5 + 1
  let month := if shifted < 10 then shifted + 3 else shifted - 9
  let year := yearOfEra + 400 * era + (if month ≤ 2 then 1 else 0)
  padded 4 year ++ '-' :: padded 2 month ++ '-' :: padded 2 day ++ 'T' ::
    padded 2 (seconds / 3600 % 24) ++ ':' :: padded 2 (seconds / 60 % 60) ++ ':' ::
    padded 2 (seconds % 60) ++ ['Z']

/-- What a run leaves. -/
structure Outcome where
  exit : Nat
  stdout : Text
  stderr : Text
  tree : Tree

inductive Failure where
  | refused (refusal : Refusal)
  | settings (error : SettingsError)
  | unreadable (path : Text) (error : FileError)
  | cancelled (cause : Text)
  | noDirectory (path : Text) (error : FileError)
  | unwritable (path : Text) (error : FileError)
  deriving DecidableEq, Repr

/-- The wording of a failure: the step that failed, then its causes. -/
def Failure.message : Failure → Text
  | refused refusal => refusal.message
  | settings error => "Failed to load config: ".toList ++ error.message ++ error.causes
  | unreadable path error => "Failed to read ".toList ++ path ++ ": ".toList ++ error.message
  | cancelled cause => "Destination selection cancelled: ".toList ++ cause
  | noDirectory path error => "Failed to create ".toList ++ path ++ ": ".toList ++ error.message
  | unwritable path error =>
    "Failed to write ".toList ++ path ++ ": failed to persist temporary file: ".toList ++
      error.message ++ ": ".toList ++ error.message

def printed (line : Text) : Text :=
  line ++ ['\n']

/-- Where the search for settings starts: the directory of a file, from the root if it exists. -/
def settingsStart (w : World) (file : Text) : Text :=
  let directory : Text :=
    match (Path.above file).head? with
    | none | some [] => ['.']
    | some directory => directory
  match w.tree.resolve w.cwd directory with
  | .ok location => Path.toText (.root :: location.map .name)
  | .error _ => directory

def settingsFor (w : World) (config : Option Text) (file : Text) : Except Failure Settings :=
  (Settings.inForce w.tree w.cwd w.userSettings config (settingsStart w file)).mapError .settings

/-- The destination that is wanted: the given one, or one that is picked, or that of the settings.
A run that reports in JSON does not ask for one. -/
def wantedTarget (w : World) (args : MoveArguments) (settings : Settings) : Except Failure Text :=
  match args.target, w.attendant with
  | some target, _ => .ok target
  | none, some attendant =>
    if args.json then .ok settings.defaultTarget else attendant.picked.mapError .cancelled
  | none, none => .ok settings.defaultTarget

/-- The destination of a move: a path seen from the directory of the source file. -/
def destinationPath (file target : Text) : Path :=
  (Path.join ((Path.ofText file).parent?.getD []) (.ofText target)).normalize

/-- The text of the destination; a file that does not exist is empty. -/
def destinationText (w : World) (target : Path) : Except Failure Text :=
  if w.tree.pathExists w.cwd target.toText then
    (w.tree.read w.cwd target.toText).mapError (.unreadable target.toText)
  else .ok []

def destinationFolder (target : Path) : Path :=
  match target.parent? with
  | none | some [] => [.current]
  | some folder => folder

/-- Makes the directories of a destination, and looks whether a file can be put there. -/
def readyDestination (w : World) (target : Path) : Option Failure × Tree :=
  match w.tree.makeDirectories w.cwd (destinationFolder target) with
  | (some fault, tree) => (some (.noDirectory (destinationFolder target).toText fault), tree)
  | (none, tree) => ((Tree.placeFault? target).map (.unwritable target.toText), tree)

/-- Writes both texts of a move, the destination first.  Neither is written before both can be. -/
def writeBoth (w : World) (moved : Moved) (file : Text) (target : Path) : Option Failure × Tree :=
  match readyDestination w target with
  | (some failure, tree) => (some failure, tree)
  | (none, tree) =>
    match w.tree.resolve w.cwd file with
    | .error fault => (some (.unwritable file fault), tree)
    | .ok source =>
      (none, (tree.insert (Tree.locate w.cwd target) (.file (.text moved.target))).insert source
        (.file (.text moved.source)))

/-- A path as it is shown: with `/` as separator. -/
def shownPath (path : Text) : Text :=
  path.replaceChar '\\' '/'

/-- Whether to go on although the destination declares a name already. -/
def confirms (w : World) (args : MoveArguments) (target : Path) (name : Text) : Bool :=
  args.yes || w.attendant.any (·.confirms name (shownPath target.toText))

/-- The move that the arguments ask for, from the texts of both files. -/
def requested (args : MoveArguments) (destination : Path) (source target : Text) : Move :=
  { sourcePath := shownPath args.file
    targetPath := shownPath destination.toText
    source
    target
    selection := args.selection }

/-- The policies of a move: what the arguments ask for, or else the settings. -/
def policiesFor (args : MoveArguments) (settings : Settings) : MovePolicies :=
  { reexport := args.reexport.getD settings.reexport
    onClash := args.onClash.getD settings.onClash }

/-- The move that the arguments ask for once it is planned, with the path of its destination. -/
def prepareMove (w : World) (config : Option Text) (args : MoveArguments) :
    Except Failure (Moved × Path) := do
  let settings ← settingsFor w config args.file
  let source ← (w.tree.read w.cwd args.file).mapError (.unreadable args.file)
  let wanted ← wantedTarget w args settings
  let target := destinationPath args.file wanted
  let text ← destinationText w target
  let moved ← ((requested args target source text).perform (policiesFor args settings)
    Outline.heuristic (confirms w args target)).mapError .refused
  return (moved, target)

def rule (d : Report.Display) : Text :=
  printed (d.paint [.dim] (List.replicate 50 '─'))

def printedText (d : Report.Display) (title content : Text) : Text :=
  rule d ++ printed (d.paint [.bold] title) ++ rule d ++
    if content.getLast? = some '\n' then content else printed content

def moveOutput (w : World) (args : MoveArguments) (moved : Moved) : Text :=
  if args.json then printed (Report.moveDocument w.time moved args.dryRun)
  else
    let summary :=
      Report.summary w.display moved.record moved.sourcePath moved.targetPath args.dryRun
    let details :=
      if args.dryRun then
        printedText w.display moved.sourcePath moved.source ++
          printedText w.display moved.targetPath moved.target
      else printed ("  ".toList ++ w.display.paint [.green] ['✓'] ++ " Both files written".toList)
    summary.flatMap printed ++ details

/-- Shows a move that is planned, or writes it. -/
def carryOut (w : World) (args : MoveArguments) (moved : Moved) (target : Path) :
    Except Failure Text × Tree :=
  if args.dryRun then (.ok (moveOutput w args moved), w.tree)
  else
    match writeBoth w moved args.file target with
    | (some failure, tree) => (.error failure, tree)
    | (none, tree) => (.ok (moveOutput w args moved.asSaved), tree)

/-- Runs `move`: the output, or why there is none, and the files afterwards. -/
def move (w : World) (config : Option Text) (args : MoveArguments) : Except Failure Text × Tree :=
  match prepareMove w config args with
  | .error failure => (.error failure, w.tree)
  | .ok (moved, target) => carryOut w args moved target

def browse (w : World) (config : Option Text) (args : BrowseArguments) :
    Except Failure Text := do
  let settings ← settingsFor w config args.file
  let destinations := Browse.list w.tree w.cwd {
    file := args.file
    directory := args.directory
    search := args.search
    root := args.root
    extensions := settings.sourceExtensions
    defaultTarget := settings.defaultTarget }
  if args.json then
    return printed (Report.destinationsDocument w.time args.file args.directory destinations)
  return destinations.flatMap fun d => printed (Report.destinationLine w.display d)

def runInvocation (w : World) (i : Invocation) : Except Failure Text × Tree :=
  match i.action with
  | .move args => move w i.config args
  | .browse args => (browse w i.config args, w.tree)
  | .path source target => (.ok (printed (ModulePath.relative source target)), w.tree)

def versionText : Text :=
  printed ("relocate ".toList ++ Report.version)

/-- What is printed for `--help`, and when the command line is not accepted. -/
def usageText : Text :=
  ["Move declarations between source files and fix up their imports",
    "",
    "Usage: relocate [OPTIONS] <COMMAND>",
    "",
    "Commands:",
    "  move        Move a declaration (or a line range) into another file",
    "  candidates  List destination candidates next to a file",
    "  path        Print the import path from one file to another",
    "  help        Print this message or the help of the given subcommand(s)"].flatMap
      fun line => printed line.toList

def run (w : World) (arguments : List Text) : Outcome :=
  match parseArguments arguments with
  | .error .usage => { exit := 2, stdout := [], stderr := usageText, tree := w.tree }
  | .error .help => { exit := 0, stdout := usageText, stderr := [], tree := w.tree }
  | .error .version => { exit := 0, stdout := versionText, stderr := [], tree := w.tree }
  | .ok invocation =>
    match runInvocation w invocation with
    | (.ok stdout, tree) => { exit := 0, stdout, stderr := [], tree }
    | (.error failure, tree) =>
      { exit := 1
        stdout := []
        stderr := printed ("  ".toList ++ w.display.paint [.red] ['✗'] ++ ' ' :: failure.message)
        tree }

end Transplant.Command
