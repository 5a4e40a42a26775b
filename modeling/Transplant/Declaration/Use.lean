import Transplant.Declaration.Head
import Transplant.Import

/-!
# References to names

Two heuristics tell whether code uses a name.  `uses` searches for one given name as a whole
word; `usedNames` lists all identifiers that a text uses.  Both skip comments and the
lines that link modules.  The second also skips string literals, members after a dot and the keys
of properties and parameters.
-/

namespace Transplant

/-- Characters that continue a word in the search for a name. -/
def isNameChar (c : Char) : Bool :=
  Text.isAlphanumeric c || c == '_' || c == '$'

/-! ## Searching for one name -/

/-- Whether a name may start after the given text, written backwards: not inside a word and not
after a dot, unless the dot ends a spread. -/
def mayStart : Text → Bool
  | [] => true
  | '.' :: '.' :: '.' :: _ => true
  | '.' :: _ => false
  | c :: _ => !isNameChar c

/-- Whether a name may end in front of the given text. -/
def mayEnd : Text → Bool
  | [] => true
  | c :: _ => !isNameChar c

/-- Searches for a name, `before` being the text in front, written backwards.  After a rejected
occurrence the search goes on behind it: `pending` counts its characters that are left to pass. -/
def mentionsFrom (name : Text) (before : Text) (pending : Nat) : Text → Bool
  | [] => false
  | c :: rest =>
    match pending with
    | pending + 1 => mentionsFrom name (c :: before) pending rest
    | 0 =>
      match Text.after? name (c :: rest) with
      | some tail =>
        (mayStart before && mayEnd tail) || mentionsFrom name (c :: before) (name.length - 1) rest
      | none => mentionsFrom name (c :: before) 0 rest

/-- Whether a line has the name as a word of its own. -/
def mentions (line name : Text) : Bool :=
  !name.isEmpty && mentionsFrom name [] 0 line

/-- The start of `export * from '…'` or `export { … } from '…'`. -/
def startsReexport (line : Text) : Bool :=
  match Clause.expect? "export" line with
  | none => false
  | some rest =>
    let rest :=
      match Clause.expect? "*" rest with
      | some rest => some rest
      | none => (Clause.braced? rest).map (·.2)
    match rest >>= Clause.expect? "from" with
    | none => false
    | some rest =>
      match rest.trimStart with
      | c :: _ => Prologue.isQuote c
      | [] => false

/-- Lines that link modules rather than use names. -/
def linksModules (line : Text) : Bool :=
  (NamedImport.parse? line).isSome || startsReexport line ||
    line.trimStart.startsWith "import ".toList

def looksLikeComment (line : Text) : Bool :=
  let line := line.trimStart
  line.startsWith ['/', '/'] || line.startsWith ['/', '*'] || line.startsWith ['*']

/-- The lines of a text in which names are looked for. -/
def codeLines (source : Text) : List Text :=
  source.lines.filter fun line => !linksModules line && !looksLikeComment line

/-- The part of a line in front of a line comment. -/
def codePart (line : Text) : Text :=
  Text.before ['/', '/'] line

/-- Whether a text uses a name outside linking statements and comments. -/
def uses (source name : Text) : Bool :=
  (codeLines source).any fun line => mentions (codePart line) name

/-! ## String literals -/

/-- Where a scan of one line stands.  A substitution counts the braces open inside it. -/
inductive LiteralState where
  | code (substitution : Option Nat)
  | literal (quote : Char) (substitution : Option Nat)
  | escape (quote : Char) (substitution : Option Nat)
  | opening
  deriving DecidableEq, Repr

/-- Blanks out what stands inside string literals.  In a template literal the substitutions stay.
-/
def blankFrom : LiteralState → Text → Text
  | _, [] => []
  | .opening, c :: rest => c :: blankFrom (.code (some 0)) rest
  | .escape quote substitution, _ :: rest => ' ' :: blankFrom (.literal quote substitution) rest
  | .literal quote substitution, c :: rest =>
    if c = '\\' then ' ' :: blankFrom (.escape quote substitution) rest
    else if c = quote then c :: blankFrom (.code substitution) rest
    else if quote = '\x60' ∧ c = '$' ∧ rest.head? = some '\x7b' then c :: blankFrom .opening rest
    else ' ' :: blankFrom (.literal quote substitution) rest
  | .code substitution, c :: rest =>
    let next : LiteralState :=
      if c = '\x27' ∨ c = '"' ∨ c = '\x60' then .literal c substitution
      else match substitution with
        | none => .code none
        | some depth =>
          if c = '\x7b' then .code (some (depth + 1))
          else if c = '\x7d' then
            match depth with
            | 0 => .literal '\x60' none
            | depth + 1 => .code (some depth)
          else .code (some depth)
    c :: blankFrom next rest

def blankStrings (line : Text) : Text :=
  blankFrom (.code none) line

/-! ## Listing identifiers -/

/-- An identifier in its surroundings; the text in front is written backwards. -/
structure Occurrence where
  before : Text
  name : Text
  after : Text

/-- The identifiers of a text from left to right, each as long as possible.  `inside` tells that
the characters in front belong to an identifier that was listed. -/
def identifiersFrom (inside : Bool) (before : Text) : Text → List Occurrence
  | [] => []
  | c :: rest =>
    if inside && isIdentPart c then identifiersFrom true (c :: before) rest
    else if isIdentStart c then
      { before
        name := c :: rest.takeWhile isIdentPart
        after := rest.dropWhile isIdentPart } :: identifiersFrom true (c :: before) rest
    else identifiersFrom false (c :: before) rest

namespace Occurrence

/-- Behind a dot that does not end a spread. -/
def isMember (o : Occurrence) : Bool :=
  match o.before with
  | '.' :: '.' :: '.' :: _ => false
  | '.' :: _ => true
  | _ => false

/-- Right behind a digit. -/
def isInsideNumber (o : Occurrence) : Bool :=
  match o.before with
  | c :: _ => c.isDigit
  | [] => false

def keyModifiers : List Text :=
  ["readonly".toList, "public".toList, "private".toList, "protected".toList, "static".toList,
    "declare".toList, "override".toList]

/-- Whether a colon follows, with an optional mark in front of it. -/
def hasColon (o : Occurrence) : Bool :=
  let after :=
    match o.after.trimStart with
    | '?' :: rest | '!' :: rest => Text.trimStart rest
    | rest => rest
  after.startsWith [':']

/-- Whether the identifier is the key of a property, a member or a parameter. -/
def isKey (o : Occurrence) : Bool :=
  o.hasColon &&
    match o.before.dropWhile Text.isBlank with
    | [] => true
    | c :: rest =>
      c == '\x7b' || c == ',' || c == ';' || c == '(' ||
        keyModifiers.contains ((c :: rest).takeWhile isNameChar).reverse

def isUse (o : Occurrence) : Bool :=
  !o.isMember && !o.isInsideNumber && !o.isKey

end Occurrence

def lineIdentifiers (line : Text) : List Text :=
  ((identifiersFrom false [] (codePart (blankStrings line))).filter (·.isUse)).map (·.name)

/-- The identifiers that a text uses, sorted. -/
def usedNames (text : Text) : List Text :=
  Text.sortedSet ((codeLines text).flatMap lineIdentifiers)

end Transplant
