import Transplant.Ignore.Glob
import Transplant.Tree

/-!
# Ignore rules

Which entries of a directory are hidden from a listing.  Rules come from `.ignore` files in the
directory and above it, and, inside a repository, from `.gitignore` files up to the root of the
repository.  The innermost file that says something decides, and in a file the last rule that
matches.  What no rule mentions is hidden if its name starts with a dot.
-/

namespace Transplant.Ignore

structure Rule where
  glob : List GlobPart
  /-- Shows what it matches, in place of hiding it. -/
  shows : Bool
  onlyDirectories : Bool

inductive Verdict where
  | hide
  | show
  deriving DecidableEq, Repr

/-- Drops a separator at the end, and the backslash that escapes it. -/
def dropFinalSlash (pattern : Text) : Text × Bool :=
  if pattern.getLast? = some '/' then
    let pattern := pattern.dropLast
    (if pattern.getLast? = some '\\' then pattern.dropLast else pattern, true)
  else (pattern, false)

/-- Completes a pattern: one without a separator matches at any depth, and one that ends in a
double star matches what is inside a directory and not the directory. -/
def complete (anchored : Bool) (pattern : Text) : Text :=
  let doubleStar := "**/".toList
  let anywhere := !anchored && !pattern.contains ['/'] && !(pattern == ['*', '*'])
  let pattern : Text := if anywhere then doubleStar ++ pattern else pattern
  if pattern.endsWith "/**".toList then pattern ++ ['/', '*'] else pattern

/-- Reads a line of an ignore file.  Blanks at the end do not count unless a backslash stands in
front of the last one. -/
def parseRule? (line : Text) : Option Rule :=
  if line.startsWith ['#'] then none
  else
    let line := if line.endsWith ['\\', ' '] then line else line.trimEnd
    if line.isEmpty then none
    else
      let (shows, anchored, pattern) : Bool × Bool × Text :=
        match line with
        | '\\' :: '!' :: rest => (false, false, '!' :: rest)
        | '\\' :: '#' :: rest => (false, false, '#' :: rest)
        | '!' :: '/' :: rest => (true, true, rest)
        | '!' :: rest => (true, false, rest)
        | '/' :: rest => (false, true, rest)
        | _ => (false, false, line)
      let (pattern, onlyDirectories) := dropFinalSlash pattern
      (parseGlob? (complete anchored pattern)).map fun glob => { glob, shows, onlyDirectories }

/-- The rules of an ignore file; malformed lines are skipped, and so is a byte-order mark in
front.  A pattern that nests too deeply makes the whole file void. -/
def parseRules (lines : List Text) : List Rule :=
  let lines :=
    match lines with
    | first :: rest => first.dropWhile (· = '\uFEFF') :: rest
    | [] => []
  let rules := lines.filterMap parseRule?
  if rules.any (nestsTooDeep ·.glob) then [] else rules

/-- What the rules of one file say about a path below its directory. -/
def verdict? (rules : List Rule) (path : Text) (isDirectory : Bool) : Option Verdict :=
  (rules.reverse.find? fun rule =>
    (isDirectory || !rule.onlyDirectories) && globMatches rule.glob path).map fun rule =>
      if rule.shows then .show else .hide

def rulesAt (tree : Tree) (location : Location) : List Rule :=
  match tree.get? location with
  | some (.file content) => parseRules content.lines
  | _ => []

/-- The directories from the innermost one up to the root. -/
def upward (location : Location) : List Location :=
  (List.range (location.length + 1)).reverse.map (location.take ·)

def isRepository (tree : Tree) (location : Location) : Bool :=
  [".git", ".jj"].any fun store => (tree.get? (location ++ [store.toList])).isSome

/-- The directories of a list up to the first root of a repository; none if there is no such root.
-/
def withinRepository (tree : Tree) (directories : List Location) : List Location :=
  match directories.findIdx? (isRepository tree) with
  | some index => directories.take (index + 1)
  | none => []

/-- What the files named `file` in some directories say about an entry, the first directory first.
-/
def verdictIn? (tree : Tree) (directories : List Location) (file : List Text) (entry : Location)
    (isDirectory : Bool) : Option Verdict :=
  directories.findSome? fun directory =>
    let path := Text.join ['/'] (entry.drop directory.length)
    verdict? (rulesAt tree (directory ++ file)) path isDirectory

def entryVerdict? (tree : Tree) (directory : Location) (name : Text) (isDirectory : Bool) :
    Option Verdict :=
  let entry := directory ++ [name]
  let directories := upward directory
  let repository := withinRepository tree directories
  let verdictOf (directories : List Location) (file : List Text) :=
    verdictIn? tree directories file entry isDirectory
  (verdictOf directories [".ignore".toList]).or <|
  (verdictOf repository [".gitignore".toList]).or <|
  (verdictOf repository [".git".toList, "info".toList, "exclude".toList])

def isShown (tree : Tree) (directory : Location) (name : Text) (isDirectory : Bool) : Bool :=
  match entryVerdict? tree directory name isDirectory with
  | some .hide => false
  | some .show => true
  | none => !name.startsWith ['.']

end Transplant.Ignore
