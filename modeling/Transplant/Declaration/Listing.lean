import Transplant.Declaration.Head

/-!
# The declarations of a text

Declarations are found line by line.  Default exports are never listed: they are recognised only
as the head of moved text (`firstDeclared?`).  A name clash is looked for more widely than a
declaration: any keyword of a type, class, function or enum followed by the name counts, at any
depth and across a line break.
-/

namespace Transplant

/-- Declarations on lines that start at an index, each with its head.  Default exports are left
out. -/
def headsFrom (index : Nat) : List Text → List (Head × Declaration)
  | [] => []
  | line :: rest =>
    match Head.parse? line with
    | some h =>
      if h.isDefault then headsFrom (index + 1) rest
      else (h, h.toDeclaration index) :: headsFrom (index + 1) rest
    | none => headsFrom (index + 1) rest

/-- The declarations that start in the first column, in the order of the text. -/
def declarations (source : Text) : List Declaration :=
  ((headsFrom 0 source.lines).filter (·.1.isTopLevel)).map (·.2)

/-- The names declared at any depth, sorted. -/
def namesDeclared (source : Text) : List Text :=
  Text.sortedSet ((headsFrom 0 source.lines).map (·.2.name))

def declarationOf? (source name : Text) : Option Declaration :=
  (declarations source).find? (·.name = name)

def declaresTop (source name : Text) : Bool :=
  (declarationOf? source name).isSome

/-- Kind and name of the first top-level declaration, a default export included.  Lines whose name
is no `Identifier` are passed over. -/
def firstDeclaredIn? : List Text → Option (Kind × Identifier)
  | [] => none
  | line :: rest =>
    match Head.parse? line with
    | some h =>
      if h.isSound && h.isTopLevel then
        match Identifier.ofText? h.name with
        | some name => some (h.kind, name)
        | none => firstDeclaredIn? rest
      else firstDeclaredIn? rest
    | none => firstDeclaredIn? rest

def firstDeclared? (text : Text) : Option (Kind × Identifier) :=
  firstDeclaredIn? text.lines

/-! ## Name clashes -/

/-- Whether `accept` holds after some non-empty run of blanks at the front. -/
def afterBlanks (accept : Text → Bool) : Text → Bool
  | [] => false
  | c :: rest => Text.isBlank c && (accept rest || afterBlanks accept rest)

/-- Whether the text starts with the name and the name ends there. -/
def startsWithName (name t : Text) : Bool :=
  match Text.after? name t with
  | some (c :: _) => !isIdentPart c
  | some [] => true
  | none => false

def clashKeywords : List Text :=
  ["interface".toList, "type".toList, "class".toList, "function".toList, "enum".toList]

/-- Whether a keyword and then the name stand at the front. -/
def clashesHere (name t : Text) : Bool :=
  clashKeywords.any fun keyword =>
    match Text.after? keyword t with
    | some rest => afterBlanks (startsWithName name) rest
    | none => false

/-- Whether a keyword and then the name stand somewhere, `wordBefore` telling whether the
character in front belongs to a word. -/
def clashesFrom (name : Text) (wordBefore : Bool) : Text → Bool
  | [] => false
  | c :: rest =>
    (!wordBefore && clashesHere name (c :: rest)) || clashesFrom name (isIdentPart c) rest

/-- Whether a text declares a type, class, function or enum of the name, at any depth. -/
def clashesAnywhere (target name : Text) : Bool :=
  clashesFrom name false target

/-- Interfaces and type aliases live beside values of the same name; everything else is a value.
-/
def isValueKind : Option Kind → Bool
  | some .interfaceDecl | some .typeDecl => false
  | _ => true

/-- Whether a declaration of the given kind would clash with a text.  A top-level variable clashes
with whatever is a value too. -/
def clashesWith (target name : Text) (kind : Option Kind) : Bool :=
  clashesAnywhere target name ||
    (isValueKind kind &&
      (declarations target).any fun d => d.name = name && d.kind = .variableDecl)

end Transplant
