import Transplant.Command.LineSpan
import Transplant.Selection
import Transplant.Settings

/-!
# The command line

Options are `--name value`, `--name=value`, `-n value` or `-nvalue`; flags without a value may be
written together behind one dash.  Behind `--` everything is an operand.  An option may be given
once at each level; `--config` and `--verbose` may stand in front of the name of the command or
behind it.
-/

namespace Transplant.Command

/-- A run that ends before it starts. -/
inductive Early where
  /-- The command line is not accepted. -/
  | usage
  | help
  | version
  deriving DecidableEq, Repr

inductive Arity where
  | flag
  /-- A flag that may be repeated. -/
  | count
  /-- A value that passes the check. -/
  | value (check : Text → Bool)
  | help
  | version

structure OptionSpec where
  name : String
  short : Option Char
  arity : Arity

/-- What was read of a level of the command line. -/
structure Parsed where
  /-- Names of options with their values, in order; flags have an empty value. -/
  options : List (String × Text)
  operands : List Text

namespace Parsed

def empty : Parsed :=
  { options := [], operands := [] }

def value? (p : Parsed) (name : String) : Option Text :=
  p.options.lookup name

def has (p : Parsed) (name : String) : Bool :=
  (p.value? name).isSome

def count (p : Parsed) (name : String) : Nat :=
  (p.options.filter (·.1 = name)).length

/-- Notes an option.  Only a counted flag may be repeated. -/
def add (p : Parsed) (spec : OptionSpec) (value : Text) : Except Early Parsed :=
  let added : Parsed := { p with options := p.options ++ [(spec.name, value)] }
  match spec.arity with
  | .help => .error .help
  | .version => .error .version
  | .count => .ok added
  | .flag => if p.has spec.name then .error .usage else .ok added
  | .value check => if p.has spec.name || !check value then .error .usage else .ok added

end Parsed

def OptionSpec.takesValue (spec : OptionSpec) : Bool :=
  match spec.arity with
  | .value _ => true
  | _ => false

/-- Reads options behind one dash.  The option that is returned still waits for its value. -/
def scanShort (specs : List OptionSpec) (p : Parsed) :
    Text → Except Early (Parsed × Option OptionSpec)
  | [] => .ok (p, none)
  | c :: rest =>
    match specs.find? (·.short = some c) with
    | none => .error .usage
    | some spec =>
      if spec.takesValue then
        match rest with
        | [] => .ok (p, some spec)
        | '=' :: value => (p.add spec value).map (·, none)
        | value => (p.add spec value).map (·, none)
      else do
        let p ← p.add spec []
        scanShort specs p rest

def scanLong (specs : List OptionSpec) (p : Parsed) (body : Text) :
    Except Early (Parsed × Option OptionSpec) :=
  let (name, value) := match Text.cut? ['='] body with
    | some (name, value) => (name, some value)
    | none => (body, none)
  match specs.find? (·.name.toList = name) with
  | none => .error .usage
  | some spec =>
    match spec.takesValue, value with
    | true, some value => (p.add spec value).map (·, none)
    | true, none => .ok (p, some spec)
    | false, some _ => .error .usage
    | false, none => (p.add spec []).map (·, none)

/-- Whether an argument looks like an option.  A single dash does not. -/
def isOptionLike : Text → Bool
  | '-' :: _ :: _ => true
  | _ => false

/-- A level of the command line: its options, and the checks for its operands. -/
structure Level where
  specs : List OptionSpec
  operands : List (Text → Bool)
  /-- Whether the first operand is the name of a command, at which reading stops. -/
  hasCommands : Bool

def Level.addOperand (level : Level) (p : Parsed) (operand : Text) : Except Early Parsed :=
  match level.operands[p.operands.length]? with
  | some check =>
    if check operand then .ok { p with operands := p.operands ++ [operand] } else .error .usage
  | none => .error .usage

/-- Reads a level.  `waiting` is an option that still needs its value, and `escaped` tells that
only operands follow.  The arguments from the name of a command on are returned. -/
def Level.scan (level : Level) (p : Parsed) (waiting : Option OptionSpec) (escaped : Bool) :
    List Text → Except Early (Parsed × List Text)
  | [] => if waiting.isSome then .error .usage else .ok (p, [])
  | argument :: rest =>
    match waiting with
    | some spec =>
      if isOptionLike argument then .error .usage
      else do
        let p ← p.add spec argument
        level.scan p none false rest
    | none =>
      if escaped then do
        let p ← level.addOperand p argument
        level.scan p none true rest
      else
        match argument with
        | ['-', '-'] => level.scan p none true rest
        | '-' :: '-' :: body => do
          let (p, waiting) ← scanLong level.specs p body
          level.scan p waiting false rest
        | '-' :: c :: body => do
          let (p, waiting) ← scanShort level.specs p (c :: body)
          level.scan p waiting false rest
        | _ =>
          if level.hasCommands then .ok (p, argument :: rest)
          else do
            let p ← level.addOperand p argument
            level.scan p none false rest

/-! ## The commands -/

def anyText (_ : Text) : Bool := true

/-- A text that is not empty; paths are. -/
def nonEmpty (t : Text) : Bool := !t.isEmpty

def globalOptions : List OptionSpec :=
  [{ name := "config", short := some 'c', arity := .value nonEmpty },
    { name := "verbose", short := some 'v', arity := .count },
    { name := "help", short := some 'h', arity := .help }]

/-- The level in front of the name of the command. -/
def topLevel : Level :=
  { specs := globalOptions ++ [{ name := "version", short := some 'V', arity := .version }]
    operands := []
    hasCommands := true }

def moveLevel : Level :=
  { specs := globalOptions ++ [
      { name := "symbol", short := some 's', arity := .value anyText },
      { name := "line", short := some 'l', arity := .value fun t => (lineNumber? t).isSome },
      { name := "lines", short := none,
        arity := .value fun t => (parseSpan t).toOption.isSome },
      { name := "to", short := some 't', arity := .value anyText },
      { name := "dry-run", short := none, arity := .flag },
      { name := "json", short := none, arity := .flag },
      { name := "on-conflict", short := none,
        arity := .value fun t => (ClashPolicy.ofWord? t).isSome },
      { name := "reexport", short := none,
        arity := .value fun t => (ForwardPolicy.ofWord? t).isSome },
      { name := "yes", short := some 'y', arity := .flag }]
    operands := [nonEmpty]
    hasCommands := false }

def browseLevel : Level :=
  { specs := globalOptions ++ [
      { name := "dir", short := some 'd', arity := .value anyText },
      { name := "search", short := some 's', arity := .value anyText },
      { name := "root", short := none, arity := .value nonEmpty },
      { name := "json", short := none, arity := .flag }]
    operands := [nonEmpty]
    hasCommands := false }

def pathLevel : Level :=
  { specs := globalOptions, operands := [anyText, anyText], hasCommands := false }

structure MoveArguments where
  file : Text
  selection : Selection
  target : Option Text
  dryRun : Bool
  json : Bool
  onClash : Option ClashPolicy
  reexport : Option ForwardPolicy
  /-- Go on in spite of a clash without asking. -/
  yes : Bool

structure BrowseArguments where
  file : Text
  directory : Text
  search : Text
  root : Option Text
  json : Bool

inductive Action where
  | move (args : MoveArguments)
  | browse (args : BrowseArguments)
  | path (source target : Text)

/-- An accepted command line. -/
structure Invocation where
  config : Option Text
  verbosity : Nat
  action : Action

/-- The one selection of a move. -/
def selection? (p : Parsed) : Except Early Selection :=
  match p.value? "symbol", p.value? "line", p.value? "lines" with
  | some name, none, none => .ok (.symbol name)
  | none, some line, none =>
    match lineNumber? line with
    | some line => .ok (.cursor line)
    | none => .error .usage
  | none, none, some lines =>
    match parseSpan lines with
    | .ok (first, last) => .ok (.range first last)
    | .error _ => .error .usage
  | _, _, _ => .error .usage

def parseMove (p : Parsed) : Except Early Action :=
  match p.operands with
  | [file] => do
    let selection ← selection? p
    return .move {
      file, selection
      target := p.value? "to"
      dryRun := p.has "dry-run"
      json := p.has "json"
      onClash := p.value? "on-conflict" >>= ClashPolicy.ofWord?
      reexport := p.value? "reexport" >>= ForwardPolicy.ofWord?
      yes := p.has "yes" }
  | _ => .error .usage

def parseBrowse (p : Parsed) : Except Early Action :=
  match p.operands with
  | [file] => .ok (.browse {
      file
      directory := (p.value? "dir").getD []
      search := (p.value? "search").getD []
      root := p.value? "root"
      json := p.has "json" })
  | _ => .error .usage

def parsePath (p : Parsed) : Except Early Action :=
  match p.operands with
  | [source, target] => .ok (.path source target)
  | _ => .error .usage

def commandNames : List Text :=
  ["move".toList, "candidates".toList, "path".toList, "help".toList]

/-- Asking for help names at most one command. -/
def parseHelp (arguments : List Text) : Early :=
  match arguments with
  | [] => .help
  | [name] => if commandNames.contains name then .help else .usage
  | _ => .usage

def parseArguments (arguments : List Text) : Except Early Invocation := do
  let (top, rest) ← topLevel.scan .empty none false arguments
  match rest with
  | [] => .error .usage
  | name :: rest =>
    let finish (level : Level) (parse : Parsed → Except Early Action) := do
      let (p, _) ← level.scan .empty none false rest
      let action ← parse p
      return {
        config := (p.value? "config").or (top.value? "config")
        verbosity := p.count "verbose" + top.count "verbose"
        action }
    if name = "move".toList then finish moveLevel parseMove
    else if name = "candidates".toList then finish browseLevel parseBrowse
    else if name = "path".toList then finish pathLevel parsePath
    else if name = "help".toList then .error (parseHelp rest)
    else .error .usage

/-- The level of detail that log messages have after `-v` was given some times. -/
def logLevel : Nat → String
  | 0 => "warn"
  | 1 => "debug"
  | _ => "trace"

end Transplant.Command
