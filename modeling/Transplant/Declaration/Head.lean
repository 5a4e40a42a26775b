import Transplant.Declaration.Basic
import Transplant.Text.Letter

/-!
# Declaration lines

The head of a declaration is the start of its line: an indent, an optional `export` and `default`,
modifiers, a declaring keyword and the declared name.  What follows the name is not looked at.
Both the text analysis and the outline recognise declarations by this one reader.
-/

namespace Transplant

def isIdentPart (c : Char) : Bool :=
  Text.isWordChar c || c == '$'

/-- The start of a declaration line. -/
structure Head where
  /-- Spaces and tabs in front. -/
  indent : Text
  /-- The word `export` with the blanks after it. -/
  marker : Option Text
  isDefault : Bool
  kind : Kind
  name : Text
  deriving DecidableEq, Repr

namespace Head

/-- The rest after a phrase and at least one blank, without further blanks. -/
def keyword? (phrase : String) (t : Text) : Option Text :=
  match Text.after? phrase.toList t with
  | some (c :: rest) => if Text.isBlank c then some (Text.trimStart rest) else none
  | _ => none

def skip (phrase : String) (t : Text) : Text :=
  (keyword? phrase t).getD t

def name? : Text → Option Text
  | [] => none
  | c :: rest => if isIdentStart c then some (c :: rest.takeWhile isIdentPart) else none

def named? (phrase : String) (t : Text) : Option Text :=
  keyword? phrase t >>= name?

/-- The name after `function` or `function*`. -/
def functionName? (t : Text) : Option Text :=
  match Text.after? "function".toList t with
  | none => none
  | some rest =>
    match rest.trimStart with
    | '*' :: rest =>
      let start := Text.trimStart rest
      if start.length < rest.length then name? start else none
    | _ => named? "function" t

/-- The kind and the name after the modifiers.  `const enum` declares an enum only where a name
follows; otherwise `enum` is the name of a constant. -/
def declared? (t : Text) : Option (Kind × Text) :=
  let tag (kind : Kind) (name : Option Text) := name.map (kind, ·)
  (tag .interfaceDecl (named? "interface" t)).or <|
  (tag .typeDecl (named? "type" t)).or <|
  (tag .classDecl (named? "class" t)).or <|
  (tag .functionDecl (functionName? t)).or <|
  (tag .enumDecl (named? "enum" (skip "const" t))).or <|
  (tag .variableDecl (named? "const" t)).or <|
  (tag .variableDecl (named? "let" t)).or <|
  (tag .variableDecl (named? "var" t))

def parse? (line : Text) : Option Head :=
  let inIndent c := c == ' ' || c == '\t'
  let start := line.dropWhile inIndent
  let afterExport := skip "export" start
  let afterDefault := skip "default" afterExport
  (declared? (skip "async" (skip "abstract" (skip "declare" afterDefault)))).map
    fun (kind, name) =>
      { indent := line.takeWhile inIndent
        marker :=
          if afterExport.length < start.length then
            some (start.take (start.length - afterExport.length))
          else none
        isDefault := afterDefault.length < afterExport.length
        kind, name }

/-- Whether the line starts in the first column. -/
def isTopLevel (h : Head) : Bool :=
  h.indent.isEmpty

def isExported (h : Head) : Bool :=
  h.marker.isSome

/-- A line with `default` and no `export` declares nothing. -/
def isSound (h : Head) : Bool :=
  h.isExported || !h.isDefault

def toDeclaration (h : Head) (line : Nat) : Declaration :=
  { kind := h.kind, name := h.name, exported := h.isExported, line }

end Head

end Transplant
