import Mathlib.Logic.Relation
import Transplant.Proofs.Blocks
import Transplant.Proofs.Edits
import Transplant.Proofs.Markers
import Transplant.Proofs.ModulePaths

/-!
# The steps of a move

What a successful move did, step by step.  The lines of the source fall into those that the move
selects and those around them.  The source of the result comes from the lines around the selection
by edits of linking statements and of export markers; the target comes from the old target, a
warning and the selected lines in the same way.  Everything that is proved about moves starts here.
-/

namespace Transplant

/-! ## Runs of edits -/

/-- A run of edits that touch only lines of one sort. -/
def Relines (p : Text → Bool) : Text → Text → Prop :=
  Relation.ReflTransGen (Relined p)

namespace Relines

variable {p : Text → Bool} {t u : Text}

theorem of_lines {β : Type*} (hedits : Relines p t u) (v : LineView β)
    (hp : ∀ line, p line → v.read line = none) : v.of u.lines = v.of t.lines := by
  induction hedits with
  | refl => rfl
  | tail _ hedit ih => rw [hedit.of_lines v hp, ih]

theorem tidy (hedits : Relines p t u) (htidy : t.Tidy) : u.Tidy := by
  induction hedits with
  | refl => exact htidy
  | tail _ hedit ih => exact hedit.tidy ih

end Relines

/-- A sort of lines that holds of every statement which links a source to the module at a path. -/
structure CoversSource (p : Text → Bool) (symbol path : Text) : Prop where
  blank : p []
  list : ∀ line l, ExportList.parse? line = some l → p line
  forwarding : p (ExportList.statement symbol path)
  named : ∀ line i, NamedImport.parse? line = some i → i.origin.path = path → p line
  statement : p (NamedImport.statement symbol path)

/-- A sort of lines that holds of every import of the module at a path. -/
structure CoversTarget (p : Text → Bool) (path : Text) : Prop where
  blank : p []
  named : ∀ line i, NamedImport.parse? line = some i → i.origin.path = path → p line
  statement : ∀ name, IsWord name → p (NamedImport.statement name path)

/-- Imports that are added one after the other are edits of lines of one sort. -/
theorem relines_addImports {p : Text → Bool} {path : Text} {names : List Text}
    (hnames : ∀ name ∈ names, IsWord name) (hpath : '\n' ∉ path) (hcovers : CoversTarget p path)
    (t : Text) : Relines p t (names.foldl (fun text name => addImport text name path) t) := by
  induction names generalizing t with
  | nil => exact .refl
  | cons name names ih =>
      rw [List.forall_mem_cons] at hnames
      rw [List.foldl_cons]
      apply Relation.ReflTransGen.head _ (ih hnames.2 _)
      exact relined_addImport hcovers.named (hcovers.statement name hnames.1) hcovers.blank
        hnames.1 hpath

def MoveRecord.range (record : MoveRecord) : LineSpan :=
  ⟨record.movedLines.1 - 1, record.movedLines.2 - 1⟩

/-! ## Linking statements declare nothing -/

namespace Head

variable {line : Text}

theorem parse?_of_expect?_import {rest : Text}
    (himport : Clause.expect? "import" line = some rest) : parse? line = none := by
  have hfront : "import".toList <+: line.trimStart :=
    ⟨rest, (Text.after?_eq_some_iff.1 himport).symm⟩
  exact parse?_of_lead (by decide) hfront

theorem parse?_of_import {i : NamedImport} (hread : NamedImport.parse? line = some i) :
    parse? line = none := by
  obtain ⟨list, clause, tail, himport, -⟩ := NamedImport.parse?_eq_some_iff.1 hread
  exact parse?_of_expect?_import himport

theorem parse?_of_braces {rest clause : Text} {entries : List Text}
    (hexport : Clause.expect? "export" line = some rest)
    (hbraces : Clause.braced? rest = some (entries, clause)) : parse? line = none := by
  obtain ⟨gap, body, hgap, -, rfl, -⟩ := Clause.braced?_eq_some_iff.1 hbraces
  apply parse?_of_expect? hexport
  · rw [Text.trimStart_append hgap, Text.trimStart_cons (by decide)]
  · decide

theorem parse?_of_exportList {l : ExportList} (hread : ExportList.parse? line = some l) :
    parse? line = none := by
  obtain ⟨list, clause, tail, hexport, hbraces, -⟩ := ExportList.parse?_eq_some_iff.1 hread
  exact parse?_of_braces hexport hbraces

/-- A declaration line is no import. -/
theorem import_of_parse? {h : Head} (hread : parse? line = some h) :
    NamedImport.parse? line = none := by
  rw [Option.eq_none_iff_forall_ne_some]
  intro i hi
  rw [parse?_of_import hi] at hread
  cases hread

/-- A declaration line is no export list. -/
theorem exportList_of_parse? {h : Head} (hread : parse? line = some h) :
    ExportList.parse? line = none := by
  rw [Option.eq_none_iff_forall_ne_some]
  intro l hl
  rw [parse?_of_exportList hl] at hread
  cases hread

theorem parse?_importStatement (name path : Text) :
    parse? (NamedImport.statement name path) = none := by
  have hfront : "import".toList <+: (NamedImport.statement name path).trimStart :=
    ⟨" \x7b ".toList ++ name ++ " \x7d from '".toList ++ path ++ "';".toList, rfl⟩
  exact parse?_of_lead (by decide) hfront

theorem parse?_forwardingStatement (name path : Text) :
    parse? (ExportList.statement name path) = none := by
  have hexport : Clause.expect? "export" (ExportList.statement name path) =
      some (' ' :: '\x7b' ::
        (" ".toList ++ name ++ " \x7d from '".toList ++ path ++ "';".toList)) :=
    Text.after?_eq_some_iff.2 rfl
  exact parse?_of_expect? hexport rfl (by decide)

theorem parse?_clashMarker (symbol : Text) : parse? (clashMarker symbol) = none := by
  have hfront : ['/', '/'] <+: (clashMarker symbol).trimStart :=
    ⟨" WARNING: Duplicate symbol \"".toList ++ symbol ++ "\" below".toList, rfl⟩
  exact parse?_of_lead (by decide) hfront

end Head

namespace Move

variable {move : Move} {policies : MovePolicies} {outline : Outliner} {confirm : Text → Bool}

/-- A path without quotation marks and line breaks. -/
def PlainPath (path : Text) : Prop :=
  ∀ c ∈ path, Prologue.isQuote c = false ∧ c ≠ '\n'

instance (path : Text) : Decidable (PlainPath path) :=
  List.decidableBAll _ path

/-! ## Selections -/

/-- What is known of the selection of a move. -/
structure SelectedFrom (move : Move) (outline : Outliner) (s : Selected) : Prop where
  distinct : samePath move.sourcePath move.targetPath = false
  span : move.selection.lineSpan move.source (LinedText.splitLines move.source).length outline =
    .ok s.excerpt.range
  inside : s.excerpt.range.last < (LinedText.splitLines move.source).length
  ordered : s.excerpt.range.first ≤ s.excerpt.range.last + 1
  text : s.excerpt.text =
    Text.join ['\n'] (s.excerpt.range.within (LinedText.splitLines move.source))
  notBlank : s.excerpt.text.trim ≠ []
  code : s.code = .ofText s.excerpt.text
  paths : s.paths = .ofFiles move.sourcePath move.targetPath
  remainder : s.remainder = cutOut move.source s.excerpt.range

theorem excerptOf_spec {lines : List Text} {range : LineSpan} {excerpt : Excerpt}
    (hexcerpt : Selection.excerptOf lines range = .ok excerpt) :
    range.last < lines.length ∧ range.first ≤ range.last + 1 ∧ excerpt.range = range ∧
      excerpt.text = Text.join ['\n'] (range.within lines) ∧ excerpt.text.trim ≠ [] := by
  unfold Selection.excerptOf at hexcerpt
  split at hexcerpt
  · rename_i hrange
    simp only at hexcerpt
    split at hexcerpt
    · cases hexcerpt
    · rename_i hblank
      cases hexcerpt
      exact ⟨hrange.1, hrange.2, rfl, rfl, by simpa using hblank⟩
  · cases hexcerpt

theorem select_spec {s : Selected} (hselect : select move outline = .ok s) :
    SelectedFrom move outline s := by
  unfold select at hselect
  split at hselect
  · cases hselect
  · rename_i hdistinct
    simp only [Selection.resolve, bind, Except.bind, pure, Except.pure] at hselect
    split at hselect
    · cases hselect
    · rename_i excerpt hexcerpt
      split at hexcerpt
      · cases hexcerpt
      · rename_i range hspan
        obtain ⟨hinside, hordered, rfl, htext, hblank⟩ := excerptOf_spec hexcerpt
        cases hselect
        exact ⟨by simpa using hdistinct, hspan, hinside, hordered, htext, hblank, rfl, rfl, rfl⟩

/-- A successful move moves either text without a declaration or a declaration and its links. -/
theorem perform_cases {moved : Moved} (hmove : perform move policies outline confirm = .ok moved) :
    ∃ s, SelectedFrom move outline s ∧
      ((s.code.declared = none ∧ moved = performPlain move s) ∨
        ∃ (kind : Kind) (symbol : Identifier) (clash : Bool),
          s.code.declared = some (kind, symbol) ∧
            moved = performLinked move policies.reexport s symbol.text clash) := by
  simp only [perform, bind, Except.bind, pure, Except.pure] at hmove
  split at hmove
  · cases hmove
  · rename_i s hselect
    refine ⟨s, select_spec hselect, ?_⟩
    split at hmove
    · rename_i hdeclared
      cases hmove
      exact .inl ⟨hdeclared, rfl⟩
    · rename_i kind symbol hdeclared
      split at hmove
      · cases hmove
        exact .inr ⟨kind, symbol, false, hdeclared, rfl⟩
      · cases hmove
        exact .inr ⟨kind, symbol, true, hdeclared, rfl⟩
      · cases hmove

/-- A successful move whose record names a symbol moves the declaration of that symbol. -/
theorem exists_performLinked {moved : Moved} {symbol : Text}
    (hmove : perform move policies outline confirm = .ok moved)
    (hsymbol : moved.record.symbol = some symbol) :
    ∃ (s : Selected) (kind : Kind) (declared : Identifier) (clash : Bool),
      SelectedFrom move outline s ∧ s.code.declared = some (kind, declared) ∧
        declared.text = symbol ∧
        moved = performLinked move policies.reexport s declared.text clash := by
  obtain ⟨s, hs, ⟨hnone, rfl⟩ | ⟨kind, declared, clash, hdeclared, rfl⟩⟩ := perform_cases hmove
  · simp [performPlain, Selected.record, hnone] at hsymbol
  · have hname : s.record.symbol = some declared.text := by simp [Selected.record, hdeclared]
    exact ⟨s, kind, declared, clash, hs, hdeclared, Option.some.inj (hname.symm.trans hsymbol), rfl⟩

/-! ## The texts of a linked move -/

section Linked

variable (move : Move) (reexport : ForwardPolicy) (s : Selected) (symbol : Text) (clash : Bool)

def isForwarded : Bool :=
  reexport.forwards s.remainder symbol s.code.wasExported

def forwardedSource : Text :=
  if isForwarded reexport s symbol then
    replaceByForwarding s.remainder symbol s.paths.sourceToTarget
  else s.remainder

def isExported : Bool :=
  needsExport s.code.wasExported (uses (forwardedSource reexport s symbol) symbol)
    (isForwarded reexport s symbol)

def movedText : Text :=
  if isExported reexport s symbol then markExported s.code.text symbol else s.code.text

def warning : Option Text :=
  if clash then some (clashMarker symbol) else none

def pastedTarget : Text :=
  pasteBelow (removeImport move.target s.paths.targetToSource symbol)
    (movedText reexport s symbol) (warning symbol clash)

def linked : Links :=
  link move.sourcePath move.targetPath symbol (forwardedSource reexport s symbol)
    (pastedTarget move reexport s symbol clash) (some (movedText reexport s symbol))

theorem performLinked_eq :
    performLinked move reexport s symbol clash =
      { sourcePath := move.sourcePath
        targetPath := move.targetPath
        source := markAllExported (linked move reexport s symbol clash).source
          (linked move reexport s symbol clash).carried
        target := (linked move reexport s symbol clash).target
        record :=
          { s.record with
            clash
            exported := isExported reexport s symbol
            forwarded := isForwarded reexport s symbol
            sourceImported := (linked move reexport s symbol clash).sourceImported
            carried := (linked move reexport s symbol clash).carried } } := by
  rfl

end Linked

variable {reexport : ForwardPolicy} {s : Selected} {symbol : Text} {clash : Bool}

theorem linked_source (hs : SelectedFrom move outline s) :
    (linked move reexport s symbol clash).source =
      if (linked move reexport s symbol clash).sourceImported then
        addImport (forwardedSource reexport s symbol) symbol s.paths.sourceToTarget
      else forwardedSource reexport s symbol := by
  rw [hs.paths]
  rfl

theorem linked_target (hs : SelectedFrom move outline s) :
    (linked move reexport s symbol clash).target =
      (linked move reexport s symbol clash).carried.foldl
        (fun text name => addImport text name s.paths.targetToSource)
        (pastedTarget move reexport s symbol clash) := by
  rw [hs.paths]
  rfl

theorem isWord_of_mem_carried {name : Text}
    (hname : name ∈ (linked move reexport s symbol clash).carried) : IsWord name := by
  have hused : name ∈ usedNames (movedText reexport s symbol) := by
    simp only [linked, link, carriedNames] at hname
    exact List.mem_of_mem_filter hname
  exact isWord_of_mem_usedNames hused

/-- The source of a linked move, up to the export markers of carried names. -/
theorem relines_source {p : Text → Bool} (hs : SelectedFrom move outline s)
    (hsymbol : IsWord symbol) (hpath : '\n' ∉ s.paths.sourceToTarget)
    (hcovers : CoversSource p symbol s.paths.sourceToTarget) :
    Relines p s.remainder (linked move reexport s symbol clash).source := by
  have hforwarded : Relines p s.remainder (forwardedSource reexport s symbol) := by
    rw [forwardedSource]
    split
    · have hunlist : Relined p s.remainder (unlist s.remainder symbol) :=
        relined_unlist hcovers.list
      apply (Relation.ReflTransGen.single hunlist).tail
      exact relined_addForwarding hcovers.list hcovers.forwarding hsymbol hpath
    · exact .refl
  rw [linked_source hs]
  split
  · apply hforwarded.tail
    exact relined_addImport hcovers.named hcovers.statement hcovers.blank hsymbol hpath
  · exact hforwarded

/-- A view that does not see the export markers of carried names does not see the last edit of the
source. -/
theorem of_marked_source {β : Type*} (v : LineView β)
    (hmarks : ∀ old new, Exported (linked move reexport s symbol clash).carried old new →
      v.read new = v.read old) :
    v.of (performLinked move reexport s symbol clash).source.lines =
      v.of (linked move reexport s symbol clash).source.lines := by
  rw [performLinked_eq]
  exact v.of_lines_eq_of_forall₂ (forall₂_markAllExported _ _) hmarks

/-- The target of a linked move gains imports only. -/
theorem relines_target {p : Text → Bool} (hs : SelectedFrom move outline s)
    (hpath : '\n' ∉ s.paths.targetToSource) (hcovers : CoversTarget p s.paths.targetToSource) :
    Relines p (pastedTarget move reexport s symbol clash)
      (linked move reexport s symbol clash).target := by
  rw [linked_target hs]
  exact relines_addImports (fun _ => isWord_of_mem_carried) hpath hcovers _

/-- The code that moves has the selected lines, one of them perhaps without its marker. -/
theorem forall₂_code (hs : SelectedFrom move outline s) :
    List.Forall₂ Remarked (s.excerpt.text.pieces '\n') (s.code.text.pieces '\n') := by
  rw [hs.code]
  exact forall₂_unmarkExported s.excerpt.text

/-- The pasted text has the selected lines, with other export markers. -/
theorem forall₂_movedText (hs : SelectedFrom move outline s) (reexport : ForwardPolicy)
    (symbol : Text) :
    List.Forall₂ Remarked (s.excerpt.text.pieces '\n')
      ((movedText reexport s symbol).pieces '\n') := by
  rw [movedText]
  split
  · have htrans : ∀ old mid new, Remarked old mid → Exported [symbol] mid new →
        Remarked old new := fun _ _ _ => Remarked.trans_exported
    exact forall₂_trans htrans (forall₂_code hs) (forall₂_markExported s.code.text symbol)
  · exact forall₂_code hs

/-- Lines of a source are found again after joining them. -/
theorem pieces_within {source : Text} {range : LineSpan}
    (hne : range.within (LinedText.splitLines source) ≠ []) :
    (Text.join ['\n'] (range.within (LinedText.splitLines source))).pieces '\n' =
      range.within (LinedText.splitLines source) := by
  apply Text.pieces_join hne
  intro line hline
  exact LinedText.not_mem_of_mem_splitLines (List.mem_of_mem_take (List.mem_of_mem_drop hline))

/-- The pieces of the selected text are the selected lines. -/
theorem pieces_excerpt (hs : SelectedFrom move outline s) :
    s.excerpt.text.pieces '\n' = s.excerpt.range.within (LinedText.splitLines move.source) := by
  rw [hs.text]
  apply pieces_within
  intro hnil
  have htext := hs.notBlank
  rw [hs.text, hnil] at htext
  exact htext rfl

theorem not_mem_warning (hsymbol : IsWord symbol) :
    ∀ line ∈ warning symbol clash, '\n' ∉ line := by
  intro line hline
  rw [warning] at hline
  split at hline
  · cases hline
    have hname : '\n' ∉ symbol := hsymbol.not_mem (by decide)
    delta clashMarker
    simp only [List.mem_append, not_or]
    exact ⟨⟨by decide, hname⟩, by decide⟩
  · cases hline

/-- The path of a module is plain if the path of its file is. -/
theorem PlainPath.relative {target : Text} (hplain : PlainPath target) (source : Text) :
    PlainPath (ModulePath.relative source target) := by
  intro c hc
  obtain hmem | rfl | rfl := ModulePath.mem_relative hc
  · exact hplain c hmem
  · decide
  · decide

theorem SelectedFrom.plain_out (hs : SelectedFrom move outline s)
    (htarget : PlainPath move.targetPath) : PlainPath s.paths.sourceToTarget := by
  rw [hs.paths]
  exact htarget.relative _

theorem SelectedFrom.plain_back (hs : SelectedFrom move outline s)
    (hsource : PlainPath move.sourcePath) : PlainPath s.paths.targetToSource := by
  rw [hs.paths]
  exact hsource.relative _

/-- The module paths between files with plain paths can be written into statements. -/
theorem SelectedFrom.plain (hs : SelectedFrom move outline s) (hsource : PlainPath move.sourcePath)
    (htarget : PlainPath move.targetPath) :
    PlainPath s.paths.sourceToTarget ∧ PlainPath s.paths.targetToSource :=
  ⟨hs.plain_out htarget, hs.plain_back hsource⟩

theorem PlainPath.not_mem {path : Text} (hplain : PlainPath path) : '\n' ∉ path :=
  fun hmem => (hplain '\n' hmem).2 rfl

/-! ## A sample -/

/-- A move of a declaration that its source goes on using and that uses its source. -/
def sampleMove : Move :=
  { sourcePath := "a.ts".toList
    targetPath := "b.ts".toList
    source := "export type A = B;\ntype B = string;\nlet x: A;\n".toList
    target := "let y = 1;\n".toList
    selection := .range 1 1 }

def sampleMoved : Moved :=
  { sourcePath := "a.ts".toList
    targetPath := "b.ts".toList
    source := ("import \x7b A \x7d from './b';\n\nexport type B = string;\nlet x: A;\n" ++
      "export \x7b A \x7d from './b';\n").toList
    target := ("import \x7b B \x7d from './a';\n\nlet y = 1;\n\n" ++
      "export type A = B;\n").toList
    record :=
      { stage := .linked
        symbol := some "A".toList
        kind := some .typeDecl
        movedLines := (1, 1)
        clash := false
        exported := true
        forwarded := true
        sourceImported := true
        carried := ["B".toList]
        paths := { sourceToTarget := "./b".toList, targetToSource := "./a".toList } } }

theorem perform_sampleMove :
    perform sampleMove { } (fun _ => []) (fun _ => false) = .ok sampleMoved := by
  decide +kernel

end Move

end Transplant
