import Transplant.Browse
import Transplant.Move
import Transplant.Toml.Document

/-!
# Settings

The settings of the command and where they come from: a file named on the command line, or the
nearest `.relocate.toml` at or above the directory of the source, or the user's own file.  Keys
that are missing keep their defaults, unknown keys are ignored.
-/

namespace Transplant

structure Settings where
  reexport : ForwardPolicy := .exported
  onClash : ClashPolicy := .abort
  /-- The destination of a move that names none. -/
  defaultTarget : Text := "types.ts".toList
  /-- Extensions of the files that are offered as destinations. -/
  sourceExtensions : List Text := ["ts".toList, "tsx".toList, "js".toList, "jsx".toList]
  deriving DecidableEq, Repr

inductive SettingsError where
  | io (error : FileError)
  | malformed
  deriving DecidableEq, Repr

def SettingsError.message : SettingsError → Text
  | io error => "failed to read config file: ".toList ++ error.message
  | malformed => "failed to parse TOML: the document is malformed".toList

/-- The causes behind a settings error, each after a colon. -/
def SettingsError.causes : SettingsError → Text
  | io error => ": ".toList ++ error.message
  | malformed => []

def ClashPolicy.ofWord? (word : Text) : Option ClashPolicy :=
  if word = "abort".toList then some .abort
  else if word = "annotate".toList then some .annotate
  else if word = "ask".toList then some .ask
  else none

def ClashPolicy.word : ClashPolicy → String
  | .abort => "abort"
  | .annotate => "annotate"
  | .ask => "ask"

def ForwardPolicy.ofWord? (word : Text) : Option ForwardPolicy :=
  if word = "never".toList then some .never
  else if word = "exported".toList then some .exported
  else if word = "always".toList then some .always
  else none

def ForwardPolicy.word : ForwardPolicy → String
  | .never => "never"
  | .exported => "exported"
  | .always => "always"

namespace Settings

/-- Whether a value is an empty list or table. -/
def isEmptyValue : Toml.Value → Bool
  | .array elements => elements.isEmpty
  | .tables elements => elements.isEmpty
  | .table _ members => members.isEmpty
  | _ => false

/-- A choice is written as a word, or as a table whose only key is the word and whose value is
empty. -/
def choice? (ofWord : Text → Option α) : Toml.Value → Option α
  | .string word => ofWord word
  | .table _ [(word, value)] => if isEmptyValue value then ofWord word else none
  | _ => none

def text? : Toml.Value → Option Text
  | .string t => some t
  | _ => none

def texts? : Toml.Value → Option (List Text)
  | .array elements => elements.mapM text?
  | _ => none

/-- The value of a key, or its default; `none` if the value is of the wrong kind. -/
def field? (members : Toml.Members) (key : String) (read : Toml.Value → Option α) (default : α) :
    Option α :=
  match members.lookup key.toList with
  | none => some default
  | some value => read value

def ofMembers? (members : Toml.Members) : Option Settings := do
  let standard : Settings := {}
  let reexport ← field? members "reexport" (choice? ForwardPolicy.ofWord?) standard.reexport
  let onClash ← field? members "on_conflict" (choice? ClashPolicy.ofWord?) standard.onClash
  let defaultTarget ← field? members "default_target" text? standard.defaultTarget
  let sourceExtensions ← field? members "source_extensions" texts? standard.sourceExtensions
  return { reexport, onClash, defaultTarget, sourceExtensions }

def parse? (t : Text) : Option Settings :=
  Toml.parse? t >>= ofMembers?

def isSource (s : Settings) (name : Text) : Bool :=
  Browse.hasExtensionIn name s.sourceExtensions

def projectFile : Text :=
  ".relocate.toml".toList

def ofText (t : Text) : Except SettingsError Settings :=
  match parse? t with
  | some settings => .ok settings
  | none => .error .malformed

def ofFile (tree : Tree) (cwd : Location) (path : Text) : Except SettingsError Settings :=
  match tree.read cwd path with
  | .ok t => ofText t
  | .error e => .error (.io e)

/-- The nearest settings file at or above a directory, with the spelling of the directory. -/
def findProject? (tree : Tree) (cwd : Location) (start : Text) : Option Text :=
  ((start :: Path.above start).map (Path.inside · projectFile)).find? (tree.isFile cwd)

/-- The settings for a run that starts in a directory.  `user` is the content of the user's own
settings file, if there is one. -/
def inForce (tree : Tree) (cwd : Location) (user : Option Content) (explicit : Option Text)
    (start : Text) : Except SettingsError Settings :=
  match explicit with
  | some path => ofFile tree cwd path
  | none =>
    match findProject? tree cwd start with
    | some path => ofFile tree cwd path
    | none =>
      match user with
      | some (.text t) => ofText t
      | some (.bytes _) => .error (.io .notText)
      | none => .ok {}

end Settings

end Transplant
