import Transplant.Proofs.DeclarationConservation
import Transplant.Proofs.Imports
import Transplant.Proofs.Mentions

/-!
# Links of the source

After a declaration has moved, the source may still use its name or export it.  The record of a move
tells whether the source imports the name and whether it forwards it.  Both are decided on texts
that the move goes on editing; this module proves that they are true of the texts that come out, and
that the target then exports the name.
-/

namespace Transplant

/-! ## The declaration that gives a move its name -/

/-- Whether a head gives its name to text that moves: it declares something in the first column, and
its name can be linked. -/
def Head.isNaming (h : Head) : Bool :=
  h.isSound && h.isTopLevel && isIdentifier h.name

def namingHead? (lines : List Text) : Option Head :=
  (headView.of lines).find? (·.isNaming)

theorem firstDeclaredIn?_cons (line : Text) (rest : List Text) :
    firstDeclaredIn? (line :: rest) =
      match headView.read line with
      | some h =>
        if h.isSound && h.isTopLevel then
          match Identifier.ofText? h.name with
          | some name => some (h.kind, name)
          | none => firstDeclaredIn? rest
        else firstDeclaredIn? rest
      | none => firstDeclaredIn? rest := by
  rfl

theorem namingHead?_of_firstDeclaredIn? {lines : List Text} {kind : Kind} {name : Identifier}
    (hfirst : firstDeclaredIn? lines = some (kind, name)) :
    ∃ h, namingHead? lines = some h ∧ h.name = name.text := by
  induction lines with
  | nil => cases hfirst
  | cons line rest ih =>
      rw [firstDeclaredIn?_cons] at hfirst
      rw [namingHead?, headView.of_cons]
      cases hread : headView.read line with
      | none =>
          rw [hread] at hfirst
          exact ih hfirst
      | some h =>
          simp only [hread] at hfirst
          simp only [Option.toList_some, List.cons_append, List.nil_append, List.find?_cons]
          by_cases hsound : h.isSound && h.isTopLevel
          · by_cases hidentifier : isIdentifier h.name
            · have hname : Identifier.ofText? h.name = some ⟨h.name, hidentifier⟩ := by
                simp [Identifier.ofText?, hidentifier]
              simp only [hsound, if_true, hname] at hfirst
              cases hfirst
              have hnaming : h.isNaming := by simp [Head.isNaming, hsound, hidentifier]
              exact ⟨h, by rw [hnaming], rfl⟩
            · have hname : Identifier.ofText? h.name = none := by
                simp [Identifier.ofText?, hidentifier]
              have hnaming : h.isNaming = false := by simp [Head.isNaming, hidentifier]
              simp only [hsound, if_true, hname] at hfirst
              rw [hnaming]
              exact ih hfirst
          · have hnaming : h.isNaming = false := by simp [Head.isNaming, hsound]
            simp only [hsound, Bool.false_eq_true, if_false] at hfirst
            rw [hnaming]
            exact ih hfirst

/-- Heads that differ in the marker of a listed declaration at most. -/
def SameButMarker (old new : Head) : Prop :=
  new = old ∨ old.isListed ∧ ∃ marker, new = { old with marker }

theorem SameButMarker.isNaming {old new : Head} (hsame : SameButMarker old new) :
    new.isNaming = old.isNaming := by
  obtain rfl | ⟨hlisted, marker, rfl⟩ := hsame
  · rfl
  · simp only [Head.isListed, Bool.and_eq_true, Bool.not_eq_true'] at hlisted
    simp [Head.isNaming, Head.isSound, Head.isTopLevel, hlisted.2]

theorem Remarked.sameButMarker {old new : Text} (hchange : Remarked old new) :
    Option.Rel SameButMarker (headView.read old) (headView.read new) := by
  obtain rfl | ⟨h, marker, hold, hlisted, hnew⟩ := hchange.parse?
  · cases headView.read new with
    | none => exact .none
    | some h => exact .some (.inl rfl)
  · have hrel : Option.Rel SameButMarker (Head.parse? old) (Head.parse? new) := by
      rw [hold, hnew]
      exact .some (.inr ⟨hlisted, marker, rfl⟩)
    exact hrel

/-- A change of markers does not change which declaration gives its name. -/
theorem namingHead?_remarked {olds news : List Text} (hlines : List.Forall₂ Remarked olds news)
    {h : Head} (hnew : namingHead? news = some h) :
    ∃ h', namingHead? olds = some h' ∧ h.isDefault = h'.isDefault := by
  have hheads : List.Forall₂ SameButMarker (headView.of olds) (headView.of news) :=
    List.rel_filterMap (fun _ _ hchange => hchange.sameButMarker) hlines
  rw [namingHead?] at hnew ⊢
  generalize headView.of olds = oldHeads at hheads
  generalize headView.of news = newHeads at hheads hnew
  induction hheads with
  | nil => cases hnew
  | @cons old new olds news hsame _ ih =>
      rw [List.find?_cons] at hnew ⊢
      rw [hsame.isNaming] at hnew
      cases hnaming : old.isNaming with
      | false =>
          rw [hnaming] at hnew
          exact ih hnew
      | true =>
          rw [hnaming] at hnew
          cases hnew
          refine ⟨old, rfl, ?_⟩
          obtain rfl | ⟨-, marker, rfl⟩ := hsame
          · rfl
          · rfl

namespace Move

variable {move : Move} {policies : MovePolicies} {outline : Outliner} {confirm : Text → Bool}
variable {reexport : ForwardPolicy} {s : Selected} {clash : Bool}

/-- The pasted code declares the symbol, unless the symbol is a default export. -/
theorem declaresTop_code {kind : Kind} {symbol : Identifier}
    (hs : SelectedFrom move outline s) (hdeclared : s.code.declared = some (kind, symbol))
    (hdefault : ∀ h, namingHead? (s.excerpt.range.within (LinedText.splitLines move.source)) =
      some h → h.isDefault = false) : declaresTop s.code.text symbol.text := by
  have hfirst : firstDeclared? s.code.text = some (kind, symbol) := by
    rw [hs.code] at hdeclared ⊢
    exact hdeclared
  obtain ⟨h, hnaming, hname⟩ := namingHead?_of_firstDeclaredIn? hfirst
  have hpieces : namingHead? (s.code.text.pieces '\n') = some h := by
    rw [namingHead?, ← headView.of_lines]
    exact hnaming
  obtain ⟨old, hold, hsame⟩ := namingHead?_remarked (forall₂_code hs) hpieces
  rw [pieces_excerpt hs] at hold
  rw [hdefault old hold] at hsame
  have htop : h.isTopLevel := by
    have hfound := List.find?_some hnaming
    simp only [Head.isNaming, Bool.and_eq_true] at hfound
    exact hfound.1.2
  rw [declaresTop_iff]
  refine ⟨h, ?_, hname⟩
  obtain ⟨line, hline, hread⟩ := List.mem_filterMap.1 (List.mem_of_find?_eq_some hnaming)
  have hlisted : h.isListed := by simp [Head.isListed, htop, hsame]
  exact List.mem_filterMap.2 ⟨line, hline, listedView_of_head hread hlisted⟩

/-! ## The source -/

/-- Lines that link modules, and blank lines. -/
def isLinking (line : Text) : Bool :=
  line.trim.isEmpty || (NamedImport.parse? line).isSome

theorem coversTarget_isLinking {path : Text} (hplain : PlainPath path) :
    CoversTarget isLinking path where
  blank := rfl
  named line i hread _ := by simp [isLinking, hread]
  statement name hname := by
    have hread := NamedImport.parse?_statement hname.isEntry fun c hc => (hplain c hc).1
    simp [isLinking, hread]

theorem relined_addImport_isLinking {source symbol path : Text} (hsymbol : IsWord symbol)
    (hplain : PlainPath path) : Relined isLinking source (addImport source symbol path) := by
  have hcovers := coversTarget_isLinking hplain
  exact relined_addImport hcovers.named (hcovers.statement symbol hsymbol) hcovers.blank hsymbol
    hplain.not_mem

theorem usesView_of_isLinking (symbol : Identifier) (line : Text) (hline : isLinking line) :
    (usesView symbol).read line = none := by
  simp only [isLinking, Bool.or_eq_true, List.isEmpty_iff] at hline
  obtain hblank | himport := hline
  · exact (usesView symbol).read_blank line hblank
  · have hlinks : linksModules line := by
      rw [linksModules, himport]
      rfl
    simp [usesView, hlinks]

theorem signatureView_of_isLinking (line : Text) (hline : isLinking line) :
    signatureView.read line = none := by
  simp only [isLinking, Bool.or_eq_true, List.isEmpty_iff] at hline
  obtain hblank | himport := hline
  · exact signatureView.read_blank line hblank
  · obtain ⟨i, hread⟩ := Option.isSome_iff_exists.1 himport
    apply signatureView_of_declaresNothing
    rw [declaresNothing, Head.parse?_of_import hread]
    rfl

theorem exportView_of_isLinking (line : Text) (hline : isLinking line) :
    exportView.read line = none := by
  simp only [isLinking, Bool.or_eq_true, List.isEmpty_iff] at hline
  obtain hblank | himport := hline
  · exact exportView.read_blank line hblank
  · obtain ⟨i, hread⟩ := Option.isSome_iff_exists.1 himport
    obtain ⟨list, clause, tail, hstart, -⟩ := NamedImport.parse?_eq_some_iff.1 hread
    have hstart : line.trimStart = "import".toList ++ list := Text.after?_eq_some_iff.1 hstart
    have hexport : Clause.expect? "export" line = none := by
      rw [Clause.expect?, hstart]
      rfl
    have hnone : ExportList.parse? line = none := by
      rw [ExportList.parse?_eq, hexport]
      rfl
    simp [exportView, hnone]

/-- The source of a linked move before its declarations are marked. -/
theorem relines_linked_source (hs : SelectedFrom move outline s) {symbol : Text}
    (hsymbol : IsWord symbol) (hplain : PlainPath s.paths.sourceToTarget) :
    Relines isLinking (forwardedSource reexport s symbol)
      (linked move reexport s symbol clash).source := by
  rw [linked_source hs]
  split
  · exact .single (relined_addImport_isLinking hsymbol hplain)
  · exact .refl

/-- A view that sees neither links nor the export markers of carried names sees the source as it was
when the links were decided. -/
theorem of_linked_source (hs : SelectedFrom move outline s) {symbol : Text}
    (hsymbol : IsWord symbol) (hplain : PlainPath s.paths.sourceToTarget) {β : Type*}
    (v : LineView β) (hhidden : ∀ line, isLinking line → v.read line = none)
    (hmarks : ∀ old new, Exported (linked move reexport s symbol clash).carried old new →
      v.read new = v.read old) :
    v.of (performLinked move reexport s symbol clash).source.lines =
      v.of (forwardedSource reexport s symbol).lines := by
  have hedits : Relines isLinking (forwardedSource reexport s symbol)
      (linked move reexport s symbol clash).source := relines_linked_source hs hsymbol hplain
  rw [of_marked_source v hmarks, hedits.of_lines v hhidden]

theorem uses_source (hs : SelectedFrom move outline s) (symbol : Identifier)
    (hexport : symbol.text ≠ "export".toList) (hplain : PlainPath s.paths.sourceToTarget) :
    uses (performLinked move reexport s symbol.text clash).source symbol.text =
      uses (forwardedSource reexport s symbol.text) symbol.text := by
  rw [Bool.eq_iff_iff, uses_iff, uses_iff, of_linked_source hs symbol.isWord hplain
    (usesView symbol) (usesView_of_isLinking symbol) fun _ _ hchange => hchange.read_uses hexport]

theorem declaresTop_source (hs : SelectedFrom move outline s) {symbol : Text}
    (hsymbol : IsWord symbol) (hplain : PlainPath s.paths.sourceToTarget) (name : Text) :
    declaresTop (performLinked move reexport s symbol clash).source name =
      declaresTop (forwardedSource reexport s symbol) name := by
  rw [Bool.eq_iff_iff, declaresTop_iff_signature, declaresTop_iff_signature,
    of_linked_source hs hsymbol hplain signatureView signatureView_of_isLinking
      fun _ _ hchange => hchange.remarked.read_signature]

/-- The imports of a linked source: those around the selection and, if the move tells so, the
symbol. -/
theorem importsFrom_source (hs : SelectedFrom move outline s) {symbol : Text}
    (hsymbol : IsWord symbol) (hplain : PlainPath s.paths.sourceToTarget) {module name : Text} :
    ImportsFrom (performLinked move reexport s symbol clash).source module name ↔
      ImportsFrom s.remainder module name ∨
        (linked move reexport s symbol clash).sourceImported ∧
          s.paths.sourceToTarget = module ∧ name = symbol := by
  have hmarked : importView.of (performLinked move reexport s symbol clash).source.lines =
      importView.of (linked move reexport s symbol clash).source.lines :=
    of_marked_source importView fun _ _ hchange => hchange.remarked.read_eq importView_of_head
  have hforwarded : ImportsFrom (forwardedSource reexport s symbol) module name ↔
      ImportsFrom s.remainder module name := by
    rw [forwardedSource]
    split
    · rw [importsFrom_iff, importView_replaceByForwarding hsymbol hplain, ← importsFrom_iff]
    · rfl
  rw [importsFrom_iff, hmarked, ← importsFrom_iff, linked_source hs]
  split
  · rename_i himported
    rw [importsFrom_addImport hsymbol hplain, hforwarded]
    simp [himported]
  · rename_i himported
    rw [hforwarded]
    simp [himported]

theorem exists_import_source (hs : SelectedFrom move outline s) {symbol : Text}
    (hsymbol : IsWord symbol) (hplain : PlainPath s.paths.sourceToTarget)
    (himported : (linked move reexport s symbol clash).sourceImported) :
    ∃ line ∈ (performLinked move reexport s symbol clash).source.lines, ∃ i,
      NamedImport.parse? line = some i ∧ i.origin.path = s.paths.sourceToTarget ∧
        symbol ∈ i.names :=
  (importsFrom_source hs hsymbol hplain).2 (.inr ⟨himported, rfl, rfl⟩)

/-- A forwarding export that is written into the source is still there at the end. -/
theorem forwardsFrom_source (hs : SelectedFrom move outline s) {symbol : Text}
    (hsymbol : IsWord symbol) (hplain : PlainPath s.paths.sourceToTarget)
    (hforwarded : isForwarded reexport s symbol) :
    forwardsFrom (performLinked move reexport s symbol clash).source symbol
      s.paths.sourceToTarget := by
  have hhidden : ∀ line h, Head.parse? line = some h → exportView.read line = none := by
    intro line h hread
    simp [exportView, Head.exportList_of_parse? hread]
  have hforwards : forwardsFrom (forwardedSource reexport s symbol) symbol
      s.paths.sourceToTarget := by
    rw [forwardedSource, if_pos hforwarded]
    exact forwardsFrom_addForwarding hsymbol hplain.not_mem fun c hc => (hplain c hc).1
  rw [forwardsFrom_iff] at hforwards ⊢
  rwa [of_linked_source hs hsymbol hplain exportView exportView_of_isLinking
    fun _ _ hchange => hchange.remarked.read_eq hhidden]

/-! ## The target -/

/-- The marked copy of a declaration shows in the target. -/
theorem exists_exported_target {kind : Kind} {symbol : Identifier}
    (hs : SelectedFrom move outline s) (hdeclared : s.code.declared = some (kind, symbol))
    (hplain : PlainPath s.paths.targetToSource)
    (hdefault : ∀ h, namingHead? (s.excerpt.range.within (LinedText.splitLines move.source)) =
      some h → h.isDefault = false)
    (hexported : isExported reexport s symbol.text) :
    ∃ d ∈ declarations (performLinked move reexport s symbol.text clash).target,
      d.name = symbol.text ∧ d.exported := by
  have hedits : Relines declaresNothing (pastedTarget move reexport s symbol.text clash)
      (linked move reexport s symbol.text clash).target :=
    relines_target hs hplain.not_mem (coversTarget_declaresNothing _)
  have hmoved : movedText reexport s symbol.text = markExported s.code.text symbol.text := by
    rw [movedText, if_pos hexported]
  obtain ⟨h, hmem, hname, hmarker⟩ :=
    exists_exported_of_markExported (declaresTop_code hs hdeclared hdefault)
  have hview :
      h ∈ listedView.of (performLinked move reexport s symbol.text clash).target.lines := by
    rw [performLinked_eq, hedits.of_lines _ listedView_of_declaresNothing, pastedTarget,
      of_pasteBelow _ _ _ (not_mem_warning symbol.isWord), hmoved]
    simp [hmem]
  have hpair : (h.name, h.isExported) ∈
      (declarations (performLinked move reexport s symbol.text clash).target).map
        fun d => (d.name, d.exported) := by
    rw [declarations_map fun _ name exported => (name, exported)]
    exact List.mem_map.2 ⟨h, hview, rfl⟩
  obtain ⟨d, hd, heq⟩ := List.mem_map.1 hpair
  rw [Prod.mk.injEq] at heq
  exact ⟨d, hd, heq.1.trans hname, heq.2.trans hmarker⟩

/-- The links that the record of a move tells of are links of the texts that come out.  The source
imports the symbol exactly if it still uses it and declares nothing of that name; an import or a
forwarding export that the record tells of stands in the source; and then the target exports the
symbol. -/
theorem source_links_perform {moved : Moved} {symbol : Text}
    (hmove : perform move policies outline confirm = .ok moved)
    (hsourcePath : PlainPath move.sourcePath) (htargetPath : PlainPath move.targetPath)
    (hsymbol : moved.record.symbol = some symbol) (hexport : symbol ≠ "export".toList)
    (hdefault : ∀ h,
      namingHead? (moved.record.range.within (LinedText.splitLines move.source)) = some h →
        h.isDefault = false) :
    moved.record.sourceImported =
        (uses moved.source symbol && !declaresTop moved.source symbol) ∧
      (moved.record.sourceImported → ∃ line ∈ moved.source.lines, ∃ i,
        NamedImport.parse? line = some i ∧
          i.origin.path = moved.record.paths.sourceToTarget ∧ symbol ∈ i.names) ∧
      (moved.record.forwarded →
        forwardsFrom moved.source symbol moved.record.paths.sourceToTarget) ∧
      (moved.record.sourceImported ∨ moved.record.forwarded →
        ∃ d ∈ declarations moved.target, d.name = symbol ∧ d.exported) := by
  obtain ⟨s, hs, hcases⟩ := perform_cases hmove
  obtain ⟨hout, hback⟩ := hs.plain hsourcePath htargetPath
  obtain ⟨hnone, rfl⟩ | ⟨kind, name, clash, hdeclared, rfl⟩ := hcases
  · simp [performPlain, Selected.record, hnone] at hsymbol
  · obtain rfl : symbol = name.text := by
      have hname : s.record.symbol = some name.text := by simp [Selected.record, hdeclared]
      exact Option.some.inj (hsymbol.symm.trans hname)
    have himported : (linked move policies.reexport s name.text clash).sourceImported =
        (uses (forwardedSource policies.reexport s name.text) name.text &&
          !declaresTop (forwardedSource policies.reexport s name.text) name.text) := rfl
    refine ⟨?_, ?_, ?_, ?_⟩
    · rw [uses_source hs name hexport hout, declaresTop_source hs name.isWord hout]
      exact himported
    · exact exists_import_source hs name.isWord hout
    · exact forwardsFrom_source hs name.isWord hout
    · intro hlinked
      apply exists_exported_target hs hdeclared hback hdefault
      rw [isExported, needsExport, Bool.or_eq_true, Bool.or_eq_true]
      obtain hsource | hforwarded := hlinked
      · have huses := himported.symm.trans hsource
        rw [Bool.and_eq_true] at huses
        exact .inl (.inr huses.1)
      · exact .inr hforwarded

theorem source_links_perform_sample :
    (∃ line ∈ sampleMoved.source.lines, ∃ i, NamedImport.parse? line = some i ∧
        i.origin.path = "./b".toList ∧ "A".toList ∈ i.names) ∧
      forwardsFrom sampleMoved.source "A".toList "./b".toList ∧
      ∃ d ∈ declarations sampleMoved.target, d.name = "A".toList ∧ d.exported := by
  have hhead : namingHead? (sampleMoved.record.range.within
      (LinedText.splitLines sampleMove.source)) =
      some { indent := [], marker := some exportMarker, isDefault := false, kind := .typeDecl,
             name := "A".toList } := by
    decide +kernel
  have hdefault : ∀ h, namingHead? (sampleMoved.record.range.within
      (LinedText.splitLines sampleMove.source)) = some h → h.isDefault = false := by
    intro h hsome
    rw [hhead] at hsome
    cases hsome
    rfl
  obtain ⟨-, himport, hforward, htarget⟩ := source_links_perform perform_sampleMove (by decide)
    (by decide) rfl (by decide) hdefault
  exact ⟨himport rfl, hforward rfl, htarget (.inl rfl)⟩

end Move

end Transplant
