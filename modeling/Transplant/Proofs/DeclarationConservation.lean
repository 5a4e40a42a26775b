import Mathlib.Algebra.Order.Group.Multiset
import Mathlib.Algebra.BigOperators.Group.List.Basic
import Mathlib.Tactic.Abel
import Transplant.Session
import Transplant.Proofs.Steps

/-!
# Conservation of declarations

A session moves declarations between files.  It never loses, duplicates or renames one: the multiset
of all declarations, over all files, is the same after every step.  The selected lines carry their
declarations to the target, the other lines keep theirs, and no statement that a move writes
declares anything.
-/

namespace Transplant

/-- The declarations of a text that start in the first column, by kind and name. -/
def declared (t : Text) : Multiset (Kind × Text) :=
  ((declarations t).map fun d => (d.kind, d.name) : List (Kind × Text))

def Files.declared (files : Files) : Multiset (Kind × Text) :=
  (files.map fun file => Transplant.declared file.2).sum

theorem declared_eq (t : Text) : declared t = signatureView.of t.lines := by
  rw [declared, signatureView_of, declarations_map fun kind name _ => (kind, name)]

theorem declared_nil : declared [] = 0 := rfl

/-! ## One move -/

def declaresNothing (line : Text) : Bool :=
  (Head.parse? line).isNone

theorem listedView_of_declaresNothing (line : Text) (hline : declaresNothing line) :
    listedView.read line = none := by
  have hread : headView.read line = none := Option.isNone_iff_eq_none.1 hline
  rw [listedView_read, hread, Option.bind_none]

theorem signatureView_of_declaresNothing (line : Text) (hline : declaresNothing line) :
    signatureView.read line = none := by
  have hread : signatureView.read line =
      (listedView.read line).bind fun h => some (h.kind, h.name) := rfl
  rw [hread, listedView_of_declaresNothing line hline]
  rfl

theorem coversSource_declaresNothing (symbol path : Text) :
    CoversSource declaresNothing symbol path where
  blank := by
    rw [declaresNothing, Head.parse?_of_blank rfl]
    rfl
  list line l hread := by
    rw [declaresNothing, Head.parse?_of_exportList hread]
    rfl
  forwarding := by
    rw [declaresNothing, Head.parse?_forwardingStatement]
    rfl
  named line i hread _ := by
    rw [declaresNothing, Head.parse?_of_import hread]
    rfl
  statement := by
    rw [declaresNothing, Head.parse?_importStatement]
    rfl

theorem coversTarget_declaresNothing (path : Text) : CoversTarget declaresNothing path where
  blank := (coversSource_declaresNothing [] path).blank
  named := (coversSource_declaresNothing [] path).named
  statement name _ := (coversSource_declaresNothing name path).statement

/-- A line comment declares nothing. -/
theorem signatureView_warning (symbol : Text) (clash : Bool) :
    signatureView.of (Move.warning symbol clash).toList = [] := by
  rw [Move.warning]
  cases clash with
  | false => rfl
  | true =>
      have hread : signatureView.read (clashMarker symbol) = none := by
        apply signatureView_of_declaresNothing
        rw [declaresNothing, Head.parse?_clashMarker]
        rfl
      exact List.filterMap_cons_none hread

namespace Move

variable {move : Move} {policies : MovePolicies} {outline : Outliner} {confirm : Text → Bool}

/-- What is pasted declares what was selected. -/
theorem signatures_of_remarked {s : Selected} {t : Text} (hs : SelectedFrom move outline s)
    (hlines : List.Forall₂ Remarked (s.excerpt.text.pieces '\n') (t.pieces '\n')) :
    signatureView.of t.lines =
      signatureView.of (s.excerpt.range.within (LinedText.splitLines move.source)) := by
  rw [signatureView.of_lines_eq_of_forall₂ hlines fun _ _ hchange => hchange.read_signature,
    signatureView.of_lines, pieces_excerpt hs]

theorem signatures_remainder {s : Selected} (hs : SelectedFrom move outline s) :
    signatureView.of s.remainder.lines =
      signatureView.of (s.excerpt.range.outside (LinedText.splitLines move.source)) := by
  rw [hs.remainder, of_cutOut _ _ hs.ordered]

theorem signatures_plain {s : Selected} (hs : SelectedFrom move outline s) :
    signatureView.of (performPlain move s).target.lines = signatureView.of move.target.lines ++
      signatureView.of (s.excerpt.range.within (LinedText.splitLines move.source)) := by
  have hnone : ∀ line ∈ (none : Option Text), '\n' ∉ line := by simp
  rw [← signatures_of_remarked hs (forall₂_code hs)]
  exact of_pasteBelow signatureView move.target s.code.text hnone

section Linked

variable {reexport : ForwardPolicy} {s : Selected} {symbol : Text} {clash : Bool}

theorem signatures_linked_source (hs : SelectedFrom move outline s) (hsymbol : IsWord symbol)
    (hpath : '\n' ∉ s.paths.sourceToTarget) :
    signatureView.of (performLinked move reexport s symbol clash).source.lines =
      signatureView.of (s.excerpt.range.outside (LinedText.splitLines move.source)) := by
  have hedits : Relines declaresNothing s.remainder (linked move reexport s symbol clash).source :=
    relines_source hs hsymbol hpath (coversSource_declaresNothing _ _)
  rw [of_marked_source signatureView fun _ _ hchange => hchange.remarked.read_signature,
    hedits.of_lines _ signatureView_of_declaresNothing, signatures_remainder hs]

theorem signatures_linked_target (hs : SelectedFrom move outline s) (hsymbol : IsWord symbol)
    (hpath : '\n' ∉ s.paths.targetToSource) :
    signatureView.of (performLinked move reexport s symbol clash).target.lines =
      signatureView.of move.target.lines ++
        signatureView.of (s.excerpt.range.within (LinedText.splitLines move.source)) := by
  have hcovers := coversTarget_declaresNothing s.paths.targetToSource
  have hedits : Relines declaresNothing (pastedTarget move reexport s symbol clash)
      (linked move reexport s symbol clash).target := relines_target hs hpath hcovers
  have hremove : Relined declaresNothing move.target
      (removeImport move.target s.paths.targetToSource symbol) := relined_removeImport hcovers.named
  rw [performLinked_eq, hedits.of_lines _ signatureView_of_declaresNothing, pastedTarget,
    of_pasteBelow _ _ _ (not_mem_warning hsymbol), signatureView_warning,
    hremove.of_lines _ signatureView_of_declaresNothing,
    signatures_of_remarked hs (forall₂_movedText hs _ _)]
  rfl

end Linked

/-- Both texts of a move together declare what they declared before. -/
theorem declared_perform {moved : Moved}
    (hmove : perform move policies outline confirm = .ok moved)
    (hsource : '\n' ∉ move.sourcePath) (htarget : '\n' ∉ move.targetPath) :
    declared moved.source + declared moved.target =
      declared move.source + declared move.target := by
  obtain ⟨s, hs, hcases⟩ := perform_cases hmove
  have hout : '\n' ∉ s.paths.sourceToTarget := by
    rw [hs.paths]
    exact ModulePath.not_mem_relative htarget (by decide) (by decide)
  have hback : '\n' ∉ s.paths.targetToSource := by
    rw [hs.paths]
    exact ModulePath.not_mem_relative hsource (by decide) (by decide)
  -- The source keeps what stands around the selection, the target gains what stands in it.
  have hparts : signatureView.of moved.source.lines =
        signatureView.of (s.excerpt.range.outside (LinedText.splitLines move.source)) ∧
      signatureView.of moved.target.lines = signatureView.of move.target.lines ++
        signatureView.of (s.excerpt.range.within (LinedText.splitLines move.source)) := by
    obtain ⟨-, rfl⟩ | ⟨kind, symbol, clash, -, rfl⟩ := hcases
    · exact ⟨signatures_remainder hs, signatures_plain hs⟩
    · exact ⟨signatures_linked_source hs symbol.isWord hout,
        signatures_linked_target hs symbol.isWord hback⟩
  have hperm := perm_within_outside signatureView (LinedText.splitLines move.source) hs.ordered
  rw [signatureView.of_splitLines] at hperm
  rw [declared_eq, declared_eq, declared_eq, declared_eq, hparts.1, hparts.2,
    ← Multiset.coe_eq_coe.2 hperm]
  simp only [← Multiset.coe_add]
  rw [← add_assoc, add_right_comm]

end Move

/-! ## Sessions -/

/-- Storing a text exchanges the declarations of one file. -/
theorem Files.declared_write (files : Files) (path text : Text) :
    (files.write path text).declared + Transplant.declared (files.read path) =
      files.declared + Transplant.declared text := by
  induction files with
  | nil => simp [write, read, Files.declared, declared_nil]
  | cons file rest ih =>
      obtain ⟨first, old⟩ := file
      by_cases hfirst : first = path
      · subst hfirst
        have hread : read ((first, old) :: rest) first = old := by simp [read]
        rw [write, if_pos rfl, hread]
        simp only [Files.declared, List.map_cons, List.sum_cons]
        abel
      · have hother : (path == first) = false := by simp [Ne.symm hfirst]
        have hread : read ((first, old) :: rest) path = read rest path := by
          simp [read, List.lookup_cons, hother]
        rw [write, if_neg hfirst, hread]
        simp only [Files.declared, List.map_cons, List.sum_cons] at ih ⊢
        rw [add_assoc, ih, add_assoc]

/-- A step of a session keeps the declarations of all files together. -/
theorem SessionStep.declared_run (step : SessionStep) (files : Files)
    (hsource : '\n' ∉ step.sourcePath) (htarget : '\n' ∉ step.targetPath) :
    (step.run files).2.declared = files.declared := by
  rw [run]
  split
  · rfl
  · rename_i moved hmove
    obtain ⟨s, hs, hcases⟩ := Move.perform_cases hmove
    have hpaths : moved.sourcePath = step.sourcePath ∧ moved.targetPath = step.targetPath := by
      obtain ⟨-, rfl⟩ | ⟨kind, symbol, clash, -, rfl⟩ := hcases <;> exact ⟨rfl, rfl⟩
    have hdistinct : step.targetPath ≠ step.sourcePath := by
      intro hsame
      have hdistinct := hs.distinct
      simp [Move.samePath, SessionStep.move, hsame] at hdistinct
    have hmoved := Move.declared_perform hmove hsource htarget
    have hfirst := files.declared_write step.sourcePath moved.source
    have hsecond := (files.write step.sourcePath moved.source).declared_write step.targetPath
      moved.target
    rw [Files.read_write, if_neg hdistinct] at hsecond
    rw [hpaths.1, hpaths.2]
    apply add_right_cancel (b := declared (files.read step.sourcePath) +
      declared (files.read step.targetPath))
    calc
      _ = ((files.write step.sourcePath moved.source).declared + declared moved.target) +
          declared (files.read step.sourcePath) := by rw [← hsecond]; abel
      _ = files.declared + (declared moved.source + declared moved.target) := by
          rw [add_right_comm, hfirst, add_assoc]
      _ = _ := by rw [hmoved]; rfl

/-- A refused step leaves every file as it is. -/
theorem SessionStep.run_error {step : SessionStep} {files : Files} {refusal : Refusal}
    (hrun : (step.run files).1 = .error refusal) : (step.run files).2 = files := by
  unfold run at hrun ⊢
  split
  · rfl
  · rename_i moved hmove
    rw [hmove] at hrun
    cases hrun

/-- The declarations of all files together are the same after every session. -/
theorem declared_runSession (files : Files) (steps : List SessionStep)
    (hpaths : ∀ step ∈ steps, '\n' ∉ step.sourcePath ∧ '\n' ∉ step.targetPath) :
    (runSession files steps).2.declared = files.declared ∧
      ∀ step ∈ steps, ∀ (before : Files) (refusal : Refusal),
        (step.run before).1 = .error refusal → (step.run before).2 = before := by
  constructor
  · induction steps generalizing files with
    | nil => rfl
    | cons step rest ih =>
        rw [List.forall_mem_cons] at hpaths
        have hstep := step.declared_run files hpaths.1.1 hpaths.1.2
        have hrest := ih (step.run files).2 hpaths.2
        exact hrest.trans hstep
  · intro step _ before refusal hrun
    exact SessionStep.run_error hrun

theorem declared_runSession_sample :
    let files : Files := [("a.ts".toList, Move.sampleMove.source),
      ("b.ts".toList, Move.sampleMove.target)]
    let step : SessionStep :=
      { sourcePath := "a.ts".toList, targetPath := "b.ts".toList, selection := .range 1 1,
        policies := { }, outline := fun _ => [], confirm := fun _ => false }
    (runSession files [step]).2 = [("a.ts".toList, Move.sampleMoved.source),
        ("b.ts".toList, Move.sampleMoved.target)] ∧
      (runSession files [step]).2.declared = files.declared := by
  intro files step
  constructor
  · have hmove : Move.perform (step.move files) step.policies step.outline step.confirm =
        .ok Move.sampleMoved := Move.perform_sampleMove
    have hrun : step.run files = (.ok Move.sampleMoved.asSaved,
        [("a.ts".toList, Move.sampleMoved.source), ("b.ts".toList, Move.sampleMoved.target)]) := by
      rw [SessionStep.run, hmove]
      rfl
    rw [runSession, hrun]
    rfl
  · have hpaths : ∀ other ∈ [step], '\n' ∉ other.sourcePath ∧ '\n' ∉ other.targetPath := by
      intro other hother
      rw [List.mem_singleton.1 hother]
      decide
    exact (declared_runSession files [step] hpaths).1

end Transplant
