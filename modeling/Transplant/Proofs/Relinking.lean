import Transplant.Proofs.RoundTrip
import Transplant.Proofs.TargetLinks

/-!
# Linking twice

Texts that are linked once stay as they are when they are linked again.  An added import is found
where it was written, and it lists the name, so there is nothing left to write; this is where the
texts have to be read back as they were written.  Neither an import nor the blank line below it
declares or uses a name, so the second run decides about the source as the first one did.  The
target imports by then what it lacked before, so the second run carries nothing.
-/

namespace Transplant

open Move (PlainPath isLinking)

variable {source name path : Text}

/-! ## An import that is added twice -/

def FirstImports (path name : Text) (lines : List Text) : Prop :=
  ∃ above line below i, lines = above ++ line :: below ∧ NoImportOf path above ∧
    NamedImport.parse? line = some i ∧ i.origin.path = path ∧ name ∈ i.names

/-- A name that the first import of the module lists is not added again. -/
theorem addImport_of_firstImports {l : LinedText} (hl : l.Settled)
    (hfirst : FirstImports path name l.lines) : addImport l.toText name path = l.toText := by
  obtain ⟨above, line, below, i, hlines, habove, hread, hpath, hname⟩ := hfirst
  have hfind : l.importOf? path = some ⟨above.length, line, i⟩ := by
    rw [LinedText.importOf?, hlines, findImport?_append habove, findImport?]
    simp [hread, hpath]
  have hmerge : NamedImport.mergeInto line name = line := by
    simp [NamedImport.mergeInto, hread, hname]
  have hset : l.set above.length line = l := by
    rw [LinedText.set, hlines, List.set_append_right _ _ (Nat.le_refl _), Nat.sub_self,
      List.set_cons_zero, ← hlines]
  simp only [addImport, LinedText.ofText_toText hl, hfind, hmerge, hset]

/-- An import that a name is merged into is still the first one of its module. -/
theorem settled_merged {found : ImportLine} (hreturn : source.getLast? ≠ some '\r')
    (hfind : (LinedText.ofText source).importOf? path = some found) (hname : IsWord name) :
    let l := (LinedText.ofText source).set found.index (NamedImport.mergeInto found.line name)
    l.Settled ∧ FirstImports path name l.lines := by
  obtain ⟨above, below, hlines, hindex, habove, hread, hpath⟩ := findImport?_spec hfind
  have hlines : LinedText.splitLines source = above ++ found.line :: below := hlines
  have hbreak : '\n' ∉ found.line :=
    LinedText.not_mem_of_mem_splitLines (by rw [hlines]; simp)
  obtain ⟨j, hj, horigin, hnames, hnewBreak, hnewReturn⟩ :=
    NamedImport.mergeInto_spec hbreak hread hname
  have hset : (LinedText.ofText source).set found.index (NamedImport.mergeInto found.line name) =
      ⟨above ++ [NamedImport.mergeInto found.line name] ++ below, .ofText source⟩ := by
    rw [hindex, LinedText.set, LinedText.ofText, hlines, Nat.zero_add,
      List.set_append_right _ _ (Nat.le_refl _), Nat.sub_self, List.set_cons_zero,
      List.append_assoc, List.singleton_append]
  have hsource := LinedText.settled_ofText hreturn
  rw [LinedText.ofText, hlines] at hsource
  rw [hset]
  constructor
  · apply LinedText.Settled.splice (some found.line)
    · simpa using hsource
    · simp
    · simpa using hnewBreak
    · simpa using hnewReturn
  · exact ⟨above, _, below, j, by simp, habove, hj, by rw [horigin, hpath],
      (hnames name).2 (.inr rfl)⟩

/-- A new import is the first one of its module. -/
theorem settled_inserted (hreturn : source.getLast? ≠ some '\r')
    (hnone : NoImportOf path (LinedText.splitLines source)) (hname : IsWord name)
    (hplain : PlainPath path) :
    let l := (LinedText.ofText source).insertStatement
      (LinedText.splitLines (NamedImport.statement name path))
    l.Settled ∧ FirstImports path name l.lines := by
  have hnamebreak : '\n' ∉ name := hname.not_mem (by decide)
  have hbreak := NamedImport.not_mem_statement hnamebreak hplain.not_mem
  have hend : (NamedImport.statement name path).getLast? ≠ some '\r' := getLast?_statement _
  have hread := NamedImport.parse?_statement hname.isEntry fun c hc => (hplain c hc).1
  have hsource := LinedText.settled_ofText hreturn
  rw [LinedText.insertStatement, splitLines_statement hbreak hend]
  generalize (LinedText.ofText source).slot.line = index
  generalize (LinedText.ofText source).slot.blankAfter = blankAfter
  constructor
  · apply LinedText.Settled.splice none
    · simpa [LinedText.ofText] using hsource
    · simp
    · cases blankAfter <;> simp [hbreak]
    · cases blankAfter <;> simp [hend]
  · refine ⟨(LinedText.splitLines source).take index, NamedImport.statement name path,
      (if blankAfter then [[]] else []) ++ (LinedText.splitLines source).drop index, _, ?_, ?_,
      hread, rfl, ?_⟩
    · simp [LinedText.insertAt, LinedText.ofText]
    · exact fun line hline => hnone line (List.mem_of_mem_take hline)
    · simp [NamedImport.single]

/-- An import that is added twice is written once. -/
theorem addImport_addImport (hreturn : source.getLast? ≠ some '\r') (hname : IsWord name)
    (hplain : PlainPath path) :
    addImport (addImport source name path) name path = addImport source name path := by
  cases hfind : (LinedText.ofText source).importOf? path with
  | some found =>
      have hadd : addImport source name path = ((LinedText.ofText source).set found.index
          (NamedImport.mergeInto found.line name)).toText := by
        simp only [addImport, hfind]
      obtain ⟨hl, hfirst⟩ := settled_merged hreturn hfind hname
      rw [hadd, addImport_of_firstImports hl hfirst]
  | none =>
      have hadd : addImport source name path = ((LinedText.ofText source).insertStatement
          (LinedText.splitLines (NamedImport.statement name path))).toText := by
        simp only [addImport, hfind, insertBelowPrologue]
      obtain ⟨hl, hfirst⟩ :=
        settled_inserted hreturn (findImport?_eq_none_iff.1 hfind) hname hplain
      rw [hadd, addImport_of_firstImports hl hfirst]

/-! ## What an added import does not change -/

theorem identifierView_of_isLinking (line : Text) (hline : isLinking line) :
    identifierView.read line = none := by
  simp only [isLinking, Bool.or_eq_true, List.isEmpty_iff] at hline
  obtain hblank | himport := hline
  · exact identifierView.read_blank line hblank
  · simp [identifierView, linksModules, himport]

theorem uses_addImport (hname : IsWord name) (hplain : PlainPath path) (symbol : Identifier) :
    uses (addImport source name path) symbol.text = uses source symbol.text := by
  have hedit : Relined isLinking source (addImport source name path) :=
    Move.relined_addImport_isLinking hname hplain
  rw [Bool.eq_iff_iff, uses_iff, uses_iff, hedit.of_lines _ (Move.usesView_of_isLinking symbol)]

theorem declaresTop_addImport (hname : IsWord name) (hplain : PlainPath path) (other : Text) :
    declaresTop (addImport source name path) other = declaresTop source other := by
  have hedit : Relined isLinking source (addImport source name path) :=
    Move.relined_addImport_isLinking hname hplain
  rw [Bool.eq_iff_iff, declaresTop_iff_signature, declaresTop_iff_signature,
    hedit.of_lines _ Move.signatureView_of_isLinking]

section Imports

variable {target : Text} {names : List Text}

theorem mem_usedNames_addImports (hnames : ∀ name ∈ names, IsWord name) (hplain : PlainPath path) :
    name ∈ usedNames (names.foldl (fun text name => addImport text name path) target) ↔
      name ∈ usedNames target := by
  have hedits :=
    relines_addImports hnames hplain.not_mem (Move.coversTarget_isLinking hplain) target
  rw [mem_usedNames_iff_view, mem_usedNames_iff_view,
    hedits.of_lines _ identifierView_of_isLinking]

theorem mem_namesDeclared_addImports (hnames : ∀ name ∈ names, IsWord name)
    (hplain : PlainPath path) :
    name ∈ namesDeclared (names.foldl (fun text name => addImport text name path) target) ↔
      name ∈ namesDeclared target := by
  have hedits := relines_addImports hnames hplain.not_mem (coversTarget_declaresNothing path) target
  rw [mem_namesDeclared_iff, mem_namesDeclared_iff, hedits.of_lines headView
    fun _ => Option.isNone_iff_eq_none.1]

end Imports

/-! ## The second run -/

section Link

variable {sourcePath targetPath target : Text} {symbol : Identifier}

theorem isWord_of_mem_carriedNames {symbol source target code name : Text}
    (hname : name ∈ carriedNames symbol source target code) : IsWord name :=
  isWord_of_mem_usedNames (List.mem_of_mem_filter hname)

/-- Linking does not change what the source declares. -/
theorem declaresTop_link
    (hout : PlainPath (ModulePaths.ofFiles sourcePath targetPath).sourceToTarget) (other : Text) :
    declaresTop (link sourcePath targetPath symbol.text source target none).source other =
      declaresTop source other := by
  simp only [link]
  split
  · exact declaresTop_addImport symbol.isWord hout other
  · rfl

/-- Linking does not change whether the source uses the symbol. -/
theorem uses_link (hout : PlainPath (ModulePaths.ofFiles sourcePath targetPath).sourceToTarget) :
    uses (link sourcePath targetPath symbol.text source target none).source symbol.text =
      uses source symbol.text := by
  simp only [link]
  split
  · exact uses_addImport symbol.isWord hout symbol
  · rfl

/-- Nothing is left to carry once the texts are linked. -/
theorem carriedNames_link
    (hout : PlainPath (ModulePaths.ofFiles sourcePath targetPath).sourceToTarget)
    (hback : PlainPath (ModulePaths.ofFiles sourcePath targetPath).targetToSource) :
    carriedNames symbol.text (link sourcePath targetPath symbol.text source target none).source
      (link sourcePath targetPath symbol.text source target none).target
      (link sourcePath targetPath symbol.text source target none).target = [] := by
  have hwords : ∀ name ∈ carriedNames symbol.text source target target, IsWord name :=
    fun _ => isWord_of_mem_carriedNames
  rw [List.eq_nil_iff_forall_not_mem]
  intro name hname
  obtain ⟨hused, hsymbol, hlocal, himported, hdeclares⟩ := mem_carriedNames_iff.1 hname
  rw [declaresTop_link hout] at hdeclares
  have hused : name ∈ usedNames target := (mem_usedNames_addImports hwords hback).1 hused
  have hlocal : name ∉ namesDeclared target :=
    fun hmem => hlocal ((mem_namesDeclared_addImports hwords hback).2 hmem)
  -- The first run imported what it carried, and it removed no import.
  have himports : ∀ module, ImportsFrom target module name ∨
      (ModulePaths.ofFiles sourcePath targetPath).targetToSource = module ∧
        name ∈ carriedNames symbol.text source target target → False :=
    fun module himports =>
      himported (mem_namesImported_iff.2 ⟨module, (importsFrom_addImports hwords hback).2 himports⟩)
  apply himports _ (.inr ⟨rfl, mem_carriedNames_iff.2 ⟨hused, hsymbol, hlocal, ?_, hdeclares⟩⟩)
  intro hmem
  obtain ⟨module, hold⟩ := mem_namesImported_iff.1 hmem
  exact himports module (.inl hold)

/-- Linking is idempotent.  A second run writes the same two texts, makes the same decision about
the source and carries nothing. -/
theorem link_link (symbol : Identifier) (hreturn : source.getLast? ≠ some '\r')
    (hout : PlainPath (ModulePaths.ofFiles sourcePath targetPath).sourceToTarget)
    (hback : PlainPath (ModulePaths.ofFiles sourcePath targetPath).targetToSource) :
    let links := link sourcePath targetPath symbol.text source target none
    link sourcePath targetPath symbol.text links.source links.target none =
      { links with carried := [] } := by
  intro links
  have hcarried : carriedNames symbol.text links.source links.target links.target = [] :=
    carriedNames_link hout hback
  have hagain : (uses links.source symbol.text && !declaresTop links.source symbol.text) =
      links.sourceImported := by
    rw [uses_link hout, declaresTop_link hout]
    rfl
  have hsource : (if links.sourceImported then
      addImport links.source symbol.text links.paths.sourceToTarget else links.source) =
        links.source := by
    split
    · rename_i himported
      have hlinked : links.source = addImport source symbol.text links.paths.sourceToTarget :=
        if_pos himported
      rw [hlinked]
      exact addImport_addImport hreturn symbol.isWord hout
    · rfl
  rw [link, Option.getD_none, hcarried, hagain]
  exact congrArg (fun text : Text => { links with source := text, carried := [] }) hsource

/-- A source that goes on using its symbol and a target that uses its source, with line breaks of
both kinds. -/
theorem link_link_sample :
    let links := link "src/a.ts".toList "src/b.ts".toList "A".toList
      "const b = 1;\r\nlet x: A;\n".toList "type A = typeof b;\r".toList none
    links.sourceImported ∧ links.carried = ["b".toList] ∧
      link "src/a.ts".toList "src/b.ts".toList "A".toList links.source links.target none =
        { links with carried := [] } :=
  ⟨by decide +kernel, by decide +kernel,
    link_link ⟨"A".toList, by decide⟩ (by decide) (by decide) (by decide)⟩

end Link

end Transplant
