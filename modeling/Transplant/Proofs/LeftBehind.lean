import Transplant.Proofs.TargetLinks

/-!
# Names left behind

A move links one name: the first one that the selected lines declare in the first column and that
can be written into an import.  If the source goes on using this name, it imports it.  The selected
lines may declare further names; a source that goes on using one of these is left without an import
of it.
-/

namespace Transplant

/-! ## The name of the selected lines -/

/-- A change of markers does not change what lines declare first. -/
theorem firstDeclaredIn?_remarked {olds news : List Text}
    (hlines : List.Forall₂ Remarked olds news) :
    firstDeclaredIn? news = firstDeclaredIn? olds := by
  induction hlines with
  | nil => rfl
  | @cons old new olds news hchange _ ih =>
      have hsame := hchange.sameButMarker
      rw [firstDeclaredIn?_cons, firstDeclaredIn?_cons, ih]
      generalize headView.read old = oldHead at hsame
      generalize headView.read new = newHead at hsame
      cases hsame with
      | none => rfl
      | some hheads =>
          obtain rfl | ⟨hlisted, marker, rfl⟩ := hheads
          · rfl
          · simp only [Head.isListed, Bool.and_eq_true, Bool.not_eq_true'] at hlisted
            simp [Head.isSound, Head.isTopLevel, hlisted.2]

namespace Move

variable {move : Move} {policies : MovePolicies} {outline : Outliner} {confirm : Text → Bool}
variable {s : Selected}

theorem symbol_record (hs : SelectedFrom move outline s) :
    s.record.symbol = (firstDeclared? (selectedText move s.record)).map (·.2.text) := by
  have htext : selectedText move s.record = s.excerpt.text := hs.text.symm
  have hdeclared : s.code.declared = firstDeclared? s.code.text := by
    rw [hs.code]
    rfl
  have hfirst : firstDeclared? s.code.text = firstDeclared? s.excerpt.text :=
    firstDeclaredIn?_remarked (forall₂_lines (forall₂_code hs))
  rw [htext, ← hfirst, ← hdeclared]
  rfl

/-- The lines around a selection import nothing that the source did not import. -/
theorem importsFrom_of_remainder (hs : SelectedFrom move outline s) {module name : Text}
    (himports : ImportsFrom s.remainder module name) : ImportsFrom move.source module name := by
  rw [importsFrom_iff, hs.remainder, of_cutOut _ _ hs.ordered] at himports
  rw [importsFrom_iff, ← importView.of_splitLines]
  obtain ⟨entry, hentry, hlisted⟩ := himports
  refine ⟨entry, ?_, hlisted⟩
  rw [← (perm_within_outside importView _ hs.ordered).mem_iff]
  exact List.mem_append_left _ hentry

/-- A name that the source still uses after a move, that it does not declare and did not import
before. -/
structure LeftBehind (move : Move) (moved : Moved) (name : Text) : Prop where
  used : uses moved.source name
  undeclared : declaresTop moved.source name = false
  unknown : name ∉ namesImported move.source

/-- The record names what the selected lines declare first, and among the names that a source is
left behind with this is the one that it imports. -/
theorem imports_leftBehind {moved : Moved}
    (hmove : perform move policies outline confirm = .ok moved)
    (hsourcePath : PlainPath move.sourcePath) (htargetPath : PlainPath move.targetPath) :
    moved.record.symbol = (firstDeclared? (selectedText move moved.record)).map (·.2.text) ∧
      ∀ name : Identifier, name.text ≠ "export".toList → LeftBehind move moved name.text →
        (ImportsFrom moved.source moved.record.paths.sourceToTarget name.text ↔
          moved.record.symbol = some name.text) := by
  obtain ⟨s, hs, hcases⟩ := perform_cases hmove
  obtain ⟨hout, -⟩ := hs.plain hsourcePath htargetPath
  have hunknown : ∀ {module name : Text}, name ∉ namesImported move.source →
      ¬ ImportsFrom s.remainder module name :=
    fun hname himports => hname (mem_namesImported_iff.2 ⟨_, importsFrom_of_remainder hs himports⟩)
  obtain ⟨hnone, rfl⟩ | ⟨kind, symbol, clash, hdeclared, rfl⟩ := hcases
  · refine ⟨symbol_record hs, fun name _ hleft => iff_of_false (hunknown hleft.unknown) ?_⟩
    simp [performPlain, Selected.record, hnone]
  · have hsymbol : s.record.symbol = some symbol.text := by simp [Selected.record, hdeclared]
    refine ⟨symbol_record hs, ?_⟩
    intro name hexport hleft
    rw [importsFrom_source hs symbol.isWord hout]
    constructor
    · rintro (hremainder | ⟨-, -, hname⟩)
      · exact absurd hremainder (hunknown hleft.unknown)
      · rw [hname]
        exact hsymbol
    · intro hname
      have htext : name.text = symbol.text := Option.some.inj (hname.symm.trans hsymbol)
      have hused := hleft.used
      have hundeclared := hleft.undeclared
      rw [htext] at hexport hused hundeclared
      rw [uses_source hs symbol hexport hout] at hused
      rw [declaresTop_source hs symbol.isWord hout] at hundeclared
      refine .inr ⟨?_, rfl, htext⟩
      simp [linked, link, hused, hundeclared]

/-- The sample imports the one name that its source is left behind with. -/
theorem imports_leftBehind_sample :
    LeftBehind sampleMove sampleMoved "A".toList ∧
      ImportsFrom sampleMoved.source "./b".toList "A".toList := by
  have hleft : LeftBehind sampleMove sampleMoved "A".toList :=
    ⟨by decide +kernel, by decide +kernel, by decide +kernel⟩
  obtain ⟨-, hnames⟩ := imports_leftBehind perform_sampleMove (by decide) (by decide)
  exact ⟨hleft, (hnames ⟨"A".toList, by decide⟩ (by decide) hleft).2 rfl⟩

/-! ## Names without an import -/

/-- A move of two declarations, of which the source goes on using the second. -/
def pairMove : Move :=
  { sourcePath := "a.ts".toList
    targetPath := "b.ts".toList
    source := "type A = string;\ntype B = number;\nlet x: B;\n".toList
    target := []
    selection := .range 1 2 }

def pairMoved : Moved :=
  { sourcePath := "a.ts".toList
    targetPath := "b.ts".toList
    source := "let x: B;\n".toList
    target := "type A = string;\ntype B = number;\n".toList
    record :=
      { stage := .linked
        symbol := some "A".toList
        kind := some .typeDecl
        movedLines := (1, 2)
        clash := false
        exported := false
        forwarded := false
        sourceImported := false
        carried := []
        paths := { sourceToTarget := "./b".toList, targetToSource := "./a".toList } } }

/-- A move of a declaration whose name is the word of the export marker. -/
def markerMove : Move :=
  { sourcePath := "a.ts".toList
    targetPath := "b.ts".toList
    source := "type export = B;\ntype B = string;\n".toList
    target := []
    selection := .range 1 1 }

def markerMoved : Moved :=
  { sourcePath := "a.ts".toList
    targetPath := "b.ts".toList
    source := "export type B = string;\n".toList
    target := "import \x7b B \x7d from './a';\n\ntype export = B;\n".toList
    record :=
      { stage := .linked
        symbol := some "export".toList
        kind := some .typeDecl
        movedLines := (1, 1)
        clash := false
        exported := false
        forwarded := false
        sourceImported := false
        carried := ["B".toList]
        paths := { sourceToTarget := "./b".toList, targetToSource := "./a".toList } } }

/-- A source can be left behind with a name that the selected lines declare and that it does not
import: a further name of several, or the word of the export marker. -/
theorem leftBehind_without_import :
    (perform pairMove { } (fun _ => []) (fun _ => false) = .ok pairMoved ∧
      declaresTop (selectedText pairMove pairMoved.record) "B".toList ∧
      LeftBehind pairMove pairMoved "B".toList ∧
      ¬ ImportsFrom pairMoved.source pairMoved.record.paths.sourceToTarget "B".toList) ∧
    perform markerMove { } (fun _ => []) (fun _ => false) = .ok markerMoved ∧
      declaresTop (selectedText markerMove markerMoved.record) "export".toList ∧
      LeftBehind markerMove markerMoved "export".toList ∧
      ¬ ImportsFrom markerMoved.source markerMoved.record.paths.sourceToTarget
        "export".toList := by
  have hpair : "B".toList ∉ namesImported pairMoved.source := by decide +kernel
  have hmarker : "export".toList ∉ namesImported markerMoved.source := by decide +kernel
  exact ⟨⟨by decide +kernel, by decide +kernel,
      ⟨by decide +kernel, by decide +kernel, by decide +kernel⟩,
      fun himports => hpair (mem_namesImported_iff.2 ⟨_, himports⟩)⟩,
    by decide +kernel, by decide +kernel,
    ⟨by decide +kernel, by decide +kernel, by decide +kernel⟩,
    fun himports => hmarker (mem_namesImported_iff.2 ⟨_, himports⟩)⟩

end Move

end Transplant
