import Transplant.Proofs.DeclarationLines
import Transplant.Proofs.Imports
import Transplant.Proofs.SourceLinks
import Transplant.Proofs.UsedNames

/-!
# Links of the target

The moved code may use names that its source declares.  The target imports these names back, and the
source exports them: the record of a move lists them as carried.  This module proves that the list
is sound and complete for the texts that come out.  Carried names are imported and exported; every
other name that the code uses and the source declares is known to the target; and the target imports
nothing else that neither it nor the moved lines imported before.
-/

namespace Transplant

/-! ## The first declaration of a name -/

/-- Once they are marked, the first declarations of all names are exported. -/
theorem exported_markAllExported {t : Text} {names : List Text}
    (hdeclared : ∀ name ∈ names, declaresTop t name) :
    ∀ name ∈ names, ∃ d, declarationOf? (markAllExported t names) name = some d ∧ d.exported := by
  intro name hname
  obtain ⟨d, hfind⟩ := Option.isSome_iff_exists.1 (hdeclared name hname)
  rw [declarationOf?_markAllExported, hfind, Option.map_some, if_pos hname]
  exact ⟨_, rfl, rfl⟩

/-! ## The texts of a linked move -/

theorem mem_namesDeclared_iff {t name : Text} :
    name ∈ namesDeclared t ↔
      ∃ h ∈ headView.of t.lines, h.isDefault = false ∧ h.name = name := by
  suffices hlines : ∀ (index : Nat) (lines : List Text),
      (headsFrom index lines).map (·.2.name) =
        ((headView.of lines).filter (!·.isDefault)).map (·.name) by
    rw [namesDeclared, Text.mem_sortedSet, hlines]
    simp [and_assoc]
  intro index lines
  induction lines generalizing index with
  | nil => rfl
  | cons line rest ih =>
      rw [headsFrom_cons, headView.of_cons, List.filter_append, List.map_append, ← ih (index + 1)]
      cases headView.read line with
      | none => rfl
      | some h => cases hdefault : h.isDefault <;> simp [hdefault, Head.toDeclaration]

theorem mem_carriedNames_iff {symbol source target code name : Text} :
    name ∈ carriedNames symbol source target code ↔
      name ∈ usedNames code ∧ name ≠ symbol ∧ name ∉ namesDeclared target ∧
        name ∉ namesImported target ∧ declaresTop source name := by
  simp [carriedNames, and_assoc]

namespace Move

variable {move : Move} {policies : MovePolicies} {outline : Outliner} {confirm : Text → Bool}
variable {reexport : ForwardPolicy} {s : Selected} {symbol : Text} {clash : Bool}

def selectedText (move : Move) (record : MoveRecord) : Text :=
  Text.join ['\n'] (record.range.within (LinedText.splitLines move.source))

theorem importView_warning (symbol : Text) (clash : Bool) :
    importView.of (warning symbol clash).toList = [] := by
  cases clash with
  | false => rfl
  | true =>
      have hread : NamedImport.parse? (clashMarker symbol) = none := rfl
      simp [warning, LineView.of, importView, hread]

/-- The pasted text brings along the imports among the selected lines. -/
theorem importsFrom_pastedTarget (hs : SelectedFrom move outline s) (hsymbol : IsWord symbol)
    {module name : Text} :
    ImportsFrom (pastedTarget move reexport s symbol clash) module name ↔
      ImportsFrom (removeImport move.target s.paths.targetToSource symbol) module name ∨
        ImportsFrom s.excerpt.text module name := by
  have hmoved : importView.of (movedText reexport s symbol).lines =
      importView.of s.excerpt.text.lines :=
    importView.of_lines_eq_of_forall₂ (forall₂_movedText hs reexport symbol)
      fun _ _ hchange => hchange.read_eq importView_of_head
  rw [importsFrom_iff, importsFrom_iff, importsFrom_iff, pastedTarget,
    of_pasteBelow _ _ _ (not_mem_warning hsymbol), importView_warning, hmoved, List.nil_append,
    listedFrom_append]

/-- Linking adds the imports of the carried names to the target. -/
theorem importsFrom_target (hs : SelectedFrom move outline s)
    (hplain : PlainPath s.paths.targetToSource) {module name : Text} :
    ImportsFrom (linked move reexport s symbol clash).target module name ↔
      ImportsFrom (pastedTarget move reexport s symbol clash) module name ∨
        s.paths.targetToSource = module ∧ name ∈ (linked move reexport s symbol clash).carried := by
  rw [linked_target hs]
  exact importsFrom_addImports (fun _ => isWord_of_mem_carried) hplain

/-- Linking changes no declaration of the target. -/
theorem namesDeclared_target (hs : SelectedFrom move outline s)
    (hplain : PlainPath s.paths.targetToSource) {name : Text} :
    name ∈ namesDeclared (linked move reexport s symbol clash).target ↔
      name ∈ namesDeclared (pastedTarget move reexport s symbol clash) := by
  have hedits : Relines declaresNothing (pastedTarget move reexport s symbol clash)
      (linked move reexport s symbol clash).target :=
    relines_target hs hplain.not_mem (coversTarget_declaresNothing _)
  rw [mem_namesDeclared_iff, mem_namesDeclared_iff, hedits.of_lines headView
    fun _ => Option.isNone_iff_eq_none.1]

theorem mem_carried_iff {name : Text} :
    name ∈ (linked move reexport s symbol clash).carried ↔
      name ∈ usedNames (movedText reexport s symbol) ∧ name ≠ symbol ∧
        name ∉ namesDeclared (pastedTarget move reexport s symbol clash) ∧
        name ∉ namesImported (pastedTarget move reexport s symbol clash) ∧
        declaresTop (forwardedSource reexport s symbol) name :=
  mem_carriedNames_iff

/-- Before they are marked, the source declares the carried names. -/
theorem declaresTop_of_mem_carried (hs : SelectedFrom move outline s) (hsymbol : IsWord symbol)
    (hplain : PlainPath s.paths.sourceToTarget) {name : Text}
    (hname : name ∈ (linked move reexport s symbol clash).carried) :
    declaresTop (linked move reexport s symbol clash).source name := by
  have hedits : Relines isLinking (forwardedSource reexport s symbol)
      (linked move reexport s symbol clash).source := relines_linked_source hs hsymbol hplain
  rw [declaresTop_iff_signature, hedits.of_lines _ signatureView_of_isLinking,
    ← declaresTop_iff_signature]
  exact (mem_carried_iff.1 hname).2.2.2.2

/-- The names that a record lists as carried are the ones that the target needs.  Each is imported
by the target and exported by the source; a name that the selected lines use and the source still
declares is declared or imported by the target; and the target imports nothing that is not carried
and that neither it nor the selected lines imported before. -/
theorem target_links_perform {moved : Moved} {symbol : Text}
    (hmove : perform move policies outline confirm = .ok moved)
    (hsourcePath : PlainPath move.sourcePath) (htargetPath : PlainPath move.targetPath)
    (hsymbol : moved.record.symbol = some symbol) :
    (∀ name ∈ moved.record.carried,
      ImportsFrom moved.target moved.record.paths.targetToSource name ∧
        ∃ d, declarationOf? moved.source name = some d ∧ d.exported) ∧
    (∀ name ∈ usedNames (selectedText move moved.record), name ≠ symbol →
      name ≠ "export".toList → declaresTop moved.source name →
        name ∈ namesDeclared moved.target ∨ name ∈ namesImported moved.target) ∧
    ∀ name ∈ namesImported moved.target,
      name ∈ namesImported move.target ∨ name ∈ moved.record.carried ∨
        name ∈ namesImported (selectedText move moved.record) := by
  obtain ⟨s, hs, hcases⟩ := perform_cases hmove
  obtain ⟨hout, hback⟩ := hs.plain hsourcePath htargetPath
  obtain ⟨hnone, rfl⟩ | ⟨kind, declared, clash, hdeclared, rfl⟩ := hcases
  · simp [performPlain, Selected.record, hnone] at hsymbol
  · obtain rfl : symbol = declared.text := by
      have hname : s.record.symbol = some declared.text := by simp [Selected.record, hdeclared]
      exact Option.some.inj (hsymbol.symm.trans hname)
    have htext : selectedText move (performLinked move policies.reexport s declared.text
        clash).record = s.excerpt.text := hs.text.symm
    rw [htext]
    refine ⟨?_, ?_, ?_⟩
    · intro name hname
      refine ⟨(importsFrom_target hs hback).2 (.inr ⟨rfl, hname⟩), ?_⟩
      apply exported_markAllExported _ name hname
      exact fun other hother => declaresTop_of_mem_carried hs declared.isWord hout hother
    · intro name hused hsymbol hexport hdeclares
      have hmoved := (mem_usedNames_remarked (forall₂_movedText hs policies.reexport
        declared.text) hexport).2 hused
      rw [declaresTop_source hs declared.isWord hout] at hdeclares
      by_cases hlocal : name ∈ namesDeclared
          (pastedTarget move policies.reexport s declared.text clash)
      · exact .inl ((namesDeclared_target hs hback).2 hlocal)
      · right
        rw [mem_namesImported_iff]
        by_cases himported : name ∈ namesImported
            (pastedTarget move policies.reexport s declared.text clash)
        · obtain ⟨path, himports⟩ := mem_namesImported_iff.1 himported
          exact ⟨path, (importsFrom_target hs hback).2 (.inl himports)⟩
        · exact ⟨_, (importsFrom_target hs hback).2
            (.inr ⟨rfl, mem_carried_iff.2 ⟨hmoved, hsymbol, hlocal, himported, hdeclares⟩⟩)⟩
    · intro name hname
      obtain ⟨path, himports⟩ := mem_namesImported_iff.1 hname
      obtain hpasted | ⟨-, hcarried⟩ := (importsFrom_target hs hback).1 himports
      · obtain hold | hmoved := (importsFrom_pastedTarget hs declared.isWord).1 hpasted
        · exact .inl (mem_namesImported_iff.2 ⟨path, hold.of_removeImport⟩)
        · exact .inr (.inr (mem_namesImported_iff.2 ⟨path, hmoved⟩))
      · exact .inr (.inl hcarried)

theorem target_links_perform_sample :
    (ImportsFrom sampleMoved.target "./a".toList "B".toList ∧
        ∃ d, declarationOf? sampleMoved.source "B".toList = some d ∧ d.exported) ∧
      ("B".toList ∈ namesDeclared sampleMoved.target ∨
        "B".toList ∈ namesImported sampleMoved.target) ∧
      ("B".toList ∈ namesImported sampleMove.target ∨ "B".toList ∈ sampleMoved.record.carried ∨
        "B".toList ∈ namesImported (selectedText sampleMove sampleMoved.record)) := by
  obtain ⟨hcarried, hused, himported⟩ :=
    target_links_perform perform_sampleMove (by decide) (by decide) rfl
  exact ⟨hcarried _ (by decide), hused _ (by decide +kernel) (by decide) (by decide)
    (by decide +kernel), himported _ (by decide +kernel)⟩

end Move

end Transplant
