import Transplant.Proofs.Exports
import Transplant.Proofs.FirstDeclaration

/-!
# The marker of the copy

The marker of the first declaration is taken off before the text moves and put back on the copy.  It
is put back for the symbol of the move, and a name with letters of other scripts is no symbol.  So
an exported declaration is copied without its marker exactly if its name cannot be linked; the
marker goes to the next declaration that can be linked, or to none.
-/

namespace Transplant

/-! ## The declarations of a target -/

/-- A statement that is inserted adds what it shows, and hides nothing. -/
theorem LineView.perm_insertBelowPrologue {β : Type*} (v : LineView β) (t statement : Text) :
    (v.of (insertBelowPrologue t statement).lines).Perm (v.of t.lines ++ v.of statement.lines) := by
  have hnew : ∀ blank : Bool,
      (∀ line ∈ LinedText.splitLines statement ++ (if blank then [[]] else []), '\n' ∉ line) ∧
        v.of (LinedText.splitLines statement ++ (if blank then [[]] else [])) =
          v.of statement.lines := by
    intro blank
    have hbreak : ∀ line ∈ LinedText.splitLines statement, '\n' ∉ line :=
      fun _ => LinedText.not_mem_of_mem_splitLines
    constructor
    · cases blank <;> simpa [or_imp, forall_and] using hbreak
    · rw [v.of_append, v.of_splitLines]
      cases blank <;> simp [LineView.of]
  obtain ⟨hbreak, hshown⟩ := hnew (LinedText.ofText t).slot.blankAfter
  obtain ⟨above, below, hbefore, hafter⟩ := v.of_insertAt t (LinedText.ofText t).slot.line hbreak
  rw [insertBelowPrologue, LinedText.insertStatement, hafter, hshown, hbefore, List.append_assoc,
    List.append_assoc]
  exact List.Perm.append_left above List.perm_append_comm

/-- An import that is added declares nothing, unless the path breaks its line. -/
theorem perm_addImport {name : Text} (hname : IsWord name) (t path : Text) :
    ∃ extra, (headView.of (addImport t name path).lines).Perm (headView.of t.lines ++ extra) ∧
      ('\n' ∉ path → extra = []) := by
  simp only [addImport]
  split
  · rename_i found hfind
    obtain ⟨hindex, hread, -⟩ := importOf?_spec hfind
    obtain ⟨j, hj, -, -, hbreak, -⟩ :=
      NamedImport.mergeInto_spec (not_mem_of_getElem? hindex) hread hname
    obtain ⟨above, below, hbefore, hafter⟩ := headView.of_set hindex hbreak
    have hold : headView.read found.line = none := Head.parse?_of_import hread
    have hnew : headView.read (NamedImport.mergeInto found.line name) = none :=
      Head.parse?_of_import hj
    refine ⟨[], ?_, fun _ => rfl⟩
    rw [hbefore, hafter, hold, hnew, List.append_nil]
  · refine ⟨_, headView.perm_insertBelowPrologue t _, fun hpath => ?_⟩
    have hbreak : '\n' ∉ NamedImport.statement name path :=
      NamedImport.not_mem_statement (hname.not_mem (by decide)) hpath
    have hread : headView.read (NamedImport.statement name path) = none :=
      Head.parse?_importStatement name path
    rw [headView.of_lines, Text.pieces_of_not_mem hbreak]
    simp [LineView.of, hread]

/-- Imports that are added one after the other declare nothing, unless the path breaks a line. -/
theorem perm_addImports {names : List Text} (hnames : ∀ name ∈ names, IsWord name) (t path : Text) :
    ∃ extra, (headView.of (names.foldl (fun text name => addImport text name path) t).lines).Perm
        (headView.of t.lines ++ extra) ∧ ('\n' ∉ path → extra = []) := by
  induction names generalizing t with
  | nil => exact ⟨[], by simp, fun _ => rfl⟩
  | cons name names ih =>
      obtain ⟨hname, hnames⟩ := List.forall_mem_cons.1 hnames
      obtain ⟨first, hfirst, hfirstNil⟩ := perm_addImport hname t path
      obtain ⟨later, hlater, hlaterNil⟩ := ih hnames (addImport t name path)
      refine ⟨first ++ later, ?_, fun hpath => by rw [hfirstNil hpath, hlaterNil hpath]; rfl⟩
      rw [List.foldl_cons, ← List.append_assoc]
      exact hlater.trans (hfirst.append_right later)

namespace Move

variable {move : Move} {policies : MovePolicies} {outline : Outliner} {confirm : Text → Bool}

/-- The declaration lines of the target are those that it had and those of the copied text. -/
theorem perm_target {moved : Moved} (hmove : perform move policies outline confirm = .ok moved) :
    ∃ extra, (headView.of moved.target.lines).Perm (headView.of move.target.lines ++
        headView.of (copiedText move moved.record).lines ++ extra) ∧
      ('\n' ∉ move.sourcePath → extra = []) := by
  obtain ⟨s, hs, ⟨hnone, rfl⟩ | ⟨kind, symbol, clash, hdeclared, rfl⟩⟩ := perform_cases hmove
  · have hwarning : ∀ line ∈ (none : Option Text), '\n' ∉ line := by simp
    refine ⟨[], ?_, fun _ => rfl⟩
    rw [copiedText_plain hs hnone, performPlain, of_pasteBelow headView _ _ hwarning,
      List.append_nil]
    exact List.Perm.refl _
  · have hwarning : headView.of (warning symbol.text clash).toList = [] := by
      have hread : headView.read (clashMarker symbol.text) = none :=
        Head.parse?_clashMarker symbol.text
      cases clash <;> simp [warning, LineView.of, hread]
    have hremove : headView.of (removeImport move.target s.paths.targetToSource symbol.text).lines =
        headView.of move.target.lines := by
      have hedit : Relined (fun line => (NamedImport.parse? line).isSome) move.target
          (removeImport move.target s.paths.targetToSource symbol.text) :=
        relined_removeImport fun line i hread _ => by simp [hread]
      apply hedit.of_lines headView
      intro line hline
      obtain ⟨i, hread⟩ := Option.isSome_iff_exists.1 hline
      exact Head.parse?_of_import hread
    have hpasted : headView.of (pastedTarget move policies.reexport s symbol.text clash).lines =
        headView.of move.target.lines ++
          headView.of (movedText policies.reexport s symbol.text).lines := by
      rw [pastedTarget, of_pasteBelow headView _ _ (not_mem_warning symbol.isWord), hremove,
        hwarning, List.nil_append]
    have hpath : '\n' ∉ move.sourcePath → '\n' ∉ s.paths.targetToSource := by
      intro hbreak
      rw [hs.paths]
      exact ModulePath.not_mem_relative hbreak (by decide) (by decide)
    have hwords : ∀ name ∈ (linked move policies.reexport s symbol.text clash).carried,
        IsWord name := fun _ => isWord_of_mem_carried
    obtain ⟨extra, hperm, hextra⟩ := perm_addImports hwords
      (pastedTarget move policies.reexport s symbol.text clash) s.paths.targetToSource
    refine ⟨extra, ?_, fun hbreak => hextra (hpath hbreak)⟩
    rw [copiedText_linked hs hdeclared, ← hpasted, performLinked_eq]
    simp only
    rwa [linked_target hs]

/-- A move puts the text that it copies into the target.  If the first declaration of the selected
lines is exported and no default export, the first declaration of the copied text is the same one;
it carries a marker exactly if its name can be linked. -/
theorem marker_copiedText {moved : Moved} {h : Head}
    (hmove : perform move policies outline confirm = .ok moved)
    (hfirst : topHead? (selectedText move moved.record).lines = some h)
    (hexported : h.isExported) (hdefault : h.isDefault = false) :
    (∃ extra, (headView.of moved.target.lines).Perm (headView.of move.target.lines ++
        headView.of (copiedText move moved.record).lines ++ extra) ∧
      ('\n' ∉ move.sourcePath → extra = [])) ∧
    topHead? (copiedText move moved.record).lines =
      some { h with marker := if isIdentifier h.name then some exportMarker else none } := by
  refine ⟨perm_target hmove, ?_⟩
  have hsound : h.isSound := by simp [Head.isSound, hexported]
  rw [topHead?_lines] at hfirst ⊢
  obtain ⟨s, hs, ⟨hnone, rfl⟩ | ⟨kind, symbol, clash, hdeclared, rfl⟩⟩ := perform_cases hmove
  · have htext : s.excerpt.text = selectedText move (performPlain move s).record := hs.text
    rw [← htext] at hfirst
    have hname : isIdentifier h.name = false := by
      by_contra hname
      rw [hs.code, declared_ofText hfirst hsound (by simpa using hname)] at hnone
      cases hnone
    rw [copiedText_plain hs hnone, hs.code, topHead?_ofText hfirst hexported hdefault, hname]
    rfl
  · have htext : s.excerpt.text = selectedText move
        (performLinked move policies.reexport s symbol.text clash).record := hs.text
    rw [← htext] at hfirst
    have hcode : topHead? (s.code.text.pieces '\n') = some { h with marker := none } := by
      rw [hs.code]
      exact topHead?_ofText hfirst hexported hdefault
    have hmoved : movedText policies.reexport s symbol.text =
        markExported s.code.text symbol.text := by
      have hwas : s.code.wasExported := by
        rw [hs.code, wasExported_ofText, hfirst]
        simp [hexported, hdefault]
      rw [movedText, isExported, needsExport, hwas]
      rfl
    rw [copiedText_linked hs hdeclared, hmoved]
    by_cases hname : isIdentifier h.name
    · have hsymbol : symbol.text = h.name := by
        rw [hs.code, declared_ofText hfirst hsound hname] at hdeclared
        cases hdeclared
        rfl
      have hmarked := topHead?_markExported hcode hdefault rfl
      rw [hsymbol, if_pos hname]
      exact hmarked
    · have hne : h.name ≠ symbol.text := by
        intro hsame
        exact hname (hsame ▸ symbol.valid)
      rw [if_neg hname]
      exact topHead?_markExported_of_ne hcode hne

/-- A move of an exported constant whose name has a letter outside of the ASCII block. -/
def accentedMove : Move :=
  { sourcePath := "a.ts".toList
    targetPath := "b.ts".toList
    source := "export const na\u00efve = 1;\n".toList
    target := []
    selection := .range 1 1 }

def accentedMoved : Moved :=
  { sourcePath := "a.ts".toList
    targetPath := "b.ts".toList
    source := []
    target := "const na\u00efve = 1;\n".toList
    record :=
      { stage := .linked
        symbol := none
        kind := none
        movedLines := (1, 1)
        clash := false
        exported := true
        forwarded := false
        sourceImported := false
        carried := []
        paths := { sourceToTarget := "./b".toList, targetToSource := "./a".toList } } }

/-- The record tells that the constant is exported, and the copy is not. -/
theorem marker_copiedText_accented :
    perform accentedMove { } (fun _ => []) (fun _ => false) = .ok accentedMoved ∧
      ∃ h, topHead? (selectedText accentedMove accentedMoved.record).lines = some h ∧
        h.isExported ∧ h.isDefault = false ∧
        topHead? (copiedText accentedMove accentedMoved.record).lines =
          some { h with marker := none } := by
  have hperform : perform accentedMove { } (fun _ => []) (fun _ => false) = .ok accentedMoved := by
    decide +kernel
  have hfirst : topHead? (selectedText accentedMove accentedMoved.record).lines =
      some { indent := [], marker := some exportMarker, isDefault := false, kind := .variableDecl,
             name := "na\u00efve".toList } := by
    decide +kernel
  have hname : isIdentifier "na\u00efve".toList = false := by decide
  refine ⟨hperform, _, hfirst, rfl, rfl, ?_⟩
  rw [(marker_copiedText hperform hfirst rfl rfl).2, hname]
  rfl

end Move

end Transplant
