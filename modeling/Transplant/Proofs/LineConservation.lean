import Transplant.Proofs.Steps

/-!
# Conservation of lines

A move takes the selected lines from the source to the target and leaves every other line where it
is.  What it adds, removes or rewrites are blank lines, the statements that link the two files, the
warning about a clash, and export markers of declarations.
-/

namespace Transplant

/-- Every carriage return of the text stands directly before a line feed. -/
def Text.ReturnsPaired (t : Text) : Prop :=
  ∀ before after : Text, t = before ++ '\r' :: after → after.head? = some '\n'

def isImportOf (path line : Text) : Bool :=
  (NamedImport.parse? line).any fun i => i.origin.path = path

/-- The lines of a target that a move keeps: all but blank lines and imports of the source. -/
def keptInTarget (path line : Text) : Bool :=
  !line.trim.isEmpty && !isImportOf path line

/-- The lines of a source that a move keeps: all but blank lines, export lists and imports of the
target. -/
def keptInSource (path line : Text) : Bool :=
  !line.trim.isEmpty && (ExportList.parse? line).isNone && !isImportOf path line

def MoveRecord.warningLines (record : MoveRecord) : List Text :=
  if record.clash then record.symbol.toList.map clashMarker else []

/-! ## Texts with paired carriage returns -/

namespace Text

theorem pieces_cons_cases {sep : Char} {t piece : Text} {rest : List Text}
    (hpieces : pieces sep t = piece :: rest) :
    (rest = [] ∧ t = piece) ∨ ∃ u, t = piece ++ sep :: u ∧ pieces sep u = rest := by
  have ht := join_pieces sep t
  rw [hpieces] at ht
  cases rest with
  | nil => exact .inl ⟨rfl, by rw [← ht, join_singleton]⟩
  | cons second rest =>
      right
      refine ⟨join [sep] (second :: rest), ?_, ?_⟩
      · rw [← ht, join_cons_cons, List.append_assoc, List.singleton_append]
      · apply pieces_join (by simp)
        intro part hpart
        apply not_mem_of_mem_pieces (t := t)
        rw [hpieces]
        exact List.mem_cons_of_mem _ hpart

theorem ReturnsPaired.of_not_mem {t : Text} (hreturn : '\r' ∉ t) : ReturnsPaired t := by
  rintro before after rfl
  exact absurd (by simp) hreturn

theorem ReturnsPaired.of_suffix {s t : Text} (hpaired : ReturnsPaired (s ++ t)) :
    ReturnsPaired t := by
  intro before after ht
  apply hpaired (s ++ before) after
  rw [ht, List.append_assoc]

theorem ReturnsPaired.tidy {t : Text} (hpaired : ReturnsPaired t) : Tidy t := by
  obtain ⟨piece, rest, hpieces⟩ := List.exists_cons_of_ne_nil (pieces_ne_nil '\n' t)
  induction rest generalizing t piece with
  | nil =>
      obtain ⟨-, rfl⟩ | ⟨u, -, hnil⟩ := pieces_cons_cases hpieces
      · rw [Tidy, lines, hpieces, ← List.nil_append [t], linesOfPieces_concat]
        intro line hline hreturn
        have ht : line = t := by
          split at hline <;> simp_all
        obtain ⟨before, hbefore⟩ := List.getLast?_eq_some_iff.1 hreturn
        have hhead := hpaired before [] (by rw [← ht, hbefore])
        cases hhead
      · exact absurd hnil (pieces_ne_nil _ _)
  | cons second rest ih =>
      obtain ⟨hnil, -⟩ | ⟨u, rfl, hu⟩ := pieces_cons_cases hpieces
      · cases hnil
      · have hrest := ih (ReturnsPaired.of_suffix (s := piece ++ ['\n']) (by simpa using hpaired))
          second hu
        have hpiece : '\n' ∉ piece := by
          apply not_mem_of_mem_pieces (t := piece ++ '\n' :: u)
          rw [hpieces]
          exact List.mem_cons_self ..
        rw [Tidy, lines_append_lf, LinedText.splitLines_of_not_mem hpiece]
        intro line hline hreturn
        obtain hfirst | hline := List.mem_append.1 hline
        · rw [List.mem_singleton] at hfirst
          subst hfirst
          obtain ⟨before, hbefore⟩ := List.getLast?_eq_some_iff.1 hreturn
          obtain heq | heq := eq_dropReturn_or piece
          · rw [hbefore] at heq
            have hdrop : dropReturn piece = before := by rw [heq, dropReturn_append_return]
            rw [hdrop] at hbefore
            exact absurd (congrArg List.length hbefore) (by simp)
          · rw [hbefore] at heq
            have hhead := hpaired before ('\r' :: '\n' :: u) (by rw [heq]; simp)
            cases hhead
        · exact hrest line hline hreturn

end Text

/-! ## Filters of lines -/

variable {path line : Text}

theorem isImportOf_append_return (path line : Text) :
    isImportOf path (line ++ ['\r']) = isImportOf path line := by
  rw [isImportOf, NamedImport.parse?_append_return, Option.any_map]
  rfl

theorem keptInTarget_append_return (path line : Text) :
    keptInTarget path (line ++ ['\r']) = keptInTarget path line := by
  rw [keptInTarget, keptInTarget, Text.trim_append_return, isImportOf_append_return]

theorem keptInSource_append_return (path line : Text) :
    keptInSource path (line ++ ['\r']) = keptInSource path line := by
  rw [keptInSource, keptInSource, Text.trim_append_return, isImportOf_append_return,
    ExportList.parse?_append_return, Option.isNone_map]

theorem keptInTarget_of_blank (hblank : line.trim = []) : keptInTarget path line = false := by
  simp [keptInTarget, hblank]

theorem keptInSource_of_blank (hblank : line.trim = []) : keptInSource path line = false := by
  simp [keptInSource, hblank]

theorem isImportOf_of_parse? {i : NamedImport} (hread : NamedImport.parse? line = some i)
    (hpath : i.origin.path = path) : isImportOf path line := by
  simp [isImportOf, hread, hpath]

/-- Declaration lines are kept. -/
theorem keptInSource_of_head {h : Head} (hread : Head.parse? line = some h) (path : Text) :
    keptInSource path line := by
  have hblank : line.trim ≠ [] := by
    intro hblank
    rw [Head.parse?_of_blank hblank] at hread
    cases hread
  simp [keptInSource, isImportOf, hblank, Head.exportList_of_parse? hread,
    Head.import_of_parse? hread]

theorem keptInTarget_of_keptInSource (hkept : keptInSource path line) :
    keptInTarget path line := by
  simp only [keptInSource, keptInTarget, Bool.and_eq_true] at hkept ⊢
  exact ⟨hkept.1.1, hkept.2⟩

theorem coversSource_kept {symbol : Text} (hsymbol : IsWord symbol)
    (hquote : ∀ c ∈ path, Prologue.isQuote c = false) :
    CoversSource (!keptInSource path ·) symbol path where
  blank := by rw [keptInSource_of_blank rfl]; rfl
  list line l hread := by simp [keptInSource, hread]
  forwarding := by
    simp [keptInSource, ExportList.parse?_statement hsymbol.isEntry hquote]
  named line i hread hpath := by simp [keptInSource, isImportOf_of_parse? hread hpath]
  statement := by
    have himport : isImportOf path (NamedImport.statement symbol path) :=
      isImportOf_of_parse? (NamedImport.parse?_statement hsymbol.isEntry hquote) rfl
    simp [keptInSource, himport]

theorem coversTarget_kept (hquote : ∀ c ∈ path, Prologue.isQuote c = false) :
    CoversTarget (!keptInTarget path ·) path where
  blank := by rw [keptInTarget_of_blank rfl]; rfl
  named line i hread hpath := by simp [keptInTarget, isImportOf_of_parse? hread hpath]
  statement name hname := by
    have himport : isImportOf path (NamedImport.statement name path) :=
      isImportOf_of_parse? (NamedImport.parse?_statement hname.isEntry hquote) rfl
    simp [keptInTarget, himport]

def targetView (path : Text) : LineView Text :=
  .kept (keptInTarget path) fun _ => keptInTarget_of_blank

def sourceView (path : Text) : LineView Text :=
  .kept (keptInSource path) fun _ => keptInSource_of_blank

theorem targetView_of_not_kept (line : Text) (hline : !keptInTarget path line) :
    (targetView path).read line = none := by
  have hreturns := Text.apply_dropReturns (keptInTarget_append_return path) line
  have hnot : keptInTarget path line.dropReturns = false := by simpa [hreturns] using hline
  simp [targetView, LineView.kept, hnot]

theorem sourceView_of_not_kept (line : Text) (hline : !keptInSource path line) :
    (sourceView path).read line = none := by
  have hreturns := Text.apply_dropReturns (keptInSource_append_return path) line
  have hnot : keptInSource path line.dropReturns = false := by simpa [hreturns] using hline
  simp [sourceView, LineView.kept, hnot]

theorem targetView_of_tidy {t : Text} (htidy : t.Tidy) (path : Text) :
    (targetView path).of t.lines = t.lines.filter (keptInTarget path) :=
  LineView.kept_of_tidy htidy

theorem sourceView_of_tidy {t : Text} (htidy : t.Tidy) (path : Text) :
    (sourceView path).of t.lines = t.lines.filter (keptInSource path) :=
  LineView.kept_of_tidy htidy

/-! ## Changes of markers keep lines -/

theorem Remarked.kept {old new : Text} (hchange : Remarked old new) :
    keptInTarget path old ↔ keptInTarget path new := by
  obtain rfl | ⟨h, marker, hold, -, hnew⟩ := hchange.parse?
  · rfl
  · have hkept := keptInTarget_of_keptInSource (keptInSource_of_head hold path)
    have hkept' := keptInTarget_of_keptInSource (keptInSource_of_head hnew path)
    exact iff_of_true hkept hkept'

theorem Text.dropReturns_append {s t : Text} (hs : s.getLast? ≠ some '\r') :
    dropReturns (s ++ t) = s ++ dropReturns t := by
  induction t using List.reverseRecOn with
  | nil =>
      rw [List.append_nil, dropReturns_of_ne hs]
      exact (List.append_nil s).symm
  | append_singleton front c ih =>
      by_cases hc : c = '\r'
      · subst hc
        rw [← List.append_assoc, dropReturns_append_return, dropReturns_append_return, ih]
      · rw [dropReturns_of_ne, dropReturns_of_ne]
        · simpa using hc
        · simpa using hc

/-- A line that gains a marker is kept, with the marker. -/
theorem Exported.kept {names : List Text} {old new : Text} (hchange : Exported names old new) :
    Option.Rel (Exported names) ((sourceView path).read old) ((sourceView path).read new) := by
  have hrefl : ∀ shown : Option Text, Option.Rel (Exported names) shown shown := by
    intro shown
    cases shown with
    | none => exact .none
    | some line => exact .some .same
  cases hchange with
  | same => exact hrefl _
  | marked h hread hlisted hname hmarker =>
      have hold : Head.parse? old.dropReturns = some h :=
        (headView.read_dropReturns old).trans hread
      have hnew := Exported.parse?_marked hold hlisted hmarker
      have hdrop : Text.dropReturns (exportMarker ++ old) = exportMarker ++ old.dropReturns :=
        Text.dropReturns_append (by decide)
      simp only [sourceView, LineView.kept, hdrop, keptInSource_of_head hold path,
        keptInSource_of_head hnew path, if_true]
      exact .some (.marked h hold hlisted hname hmarker)

theorem Text.Tidy.of_exported {names : List Text} {t u : Text} (htidy : t.Tidy)
    (hlines : List.Forall₂ (Exported names) (t.pieces '\n') (u.pieces '\n')) : u.Tidy := by
  have hmarker : exportMarker.getLast? ≠ some '\r' := by decide
  rw [Tidy, lines] at htidy ⊢
  generalize t.pieces '\n' = olds at hlines htidy
  generalize u.pieces '\n' = news at hlines
  induction hlines with
  | nil => exact htidy
  | @cons old new olds news hchange hrest ih =>
      cases hrest with
      | nil =>
          have hold : old.getLast? ≠ some '\r' := by
            by_cases hnil : old = []
            · simp [hnil]
            · exact htidy old (by simp [linesOfPieces, hnil])
          intro line hline
          rw [← List.nil_append [new], linesOfPieces_concat] at hline
          split at hline
          · cases hline
          · rw [List.map_nil, List.nil_append, List.mem_singleton] at hline
            rw [hline]
            exact hchange.remarked.getLast? hold
      | cons hsecond hrest =>
          rw [linesOfPieces_cons_cons, List.forall_mem_cons] at htidy ⊢
          refine ⟨?_, ih htidy.2⟩
          cases hchange with
          | same => exact htidy.1
          | marked h hread hlisted hname hnone =>
              rw [dropReturn_append hmarker]
              exact getLast?_append_ne hmarker htidy.1

/-! ## Lines of a range -/

/-- The empty line after a final line break is no line. -/
theorem Text.Tidy.exists_splitLines {t : Text} (htidy : t.Tidy) :
    ∃ tail : List Text, LinedText.splitLines t = t.lines ++ tail ∧ ∀ line ∈ tail, line = [] := by
  obtain ⟨front, last, hpieces⟩ := exists_pieces_concat '\n' t
  have hlast : last.getLast? ≠ some '\r' := by
    by_cases hnil : last = []
    · simp [hnil]
    · apply htidy
      rw [lines, hpieces, linesOfPieces_concat]
      simp [hnil]
  rw [LinedText.splitLines, lines, hpieces, linesOfPieces_concat, List.map_append,
    List.map_singleton, dropReturn_of_ne hlast]
  by_cases hnil : last = []
  · exact ⟨[[]], by simp [hnil], by simp⟩
  · exact ⟨[], by simp [hnil], by simp⟩

theorem filter_eq_nil_of_blank {keep : Text → Bool} (hkeep : keep [] = false) {lines : List Text}
    (hlines : ∀ line ∈ lines, line = []) : lines.filter keep = [] := by
  rw [List.filter_eq_nil_iff]
  intro line hline
  rw [hlines line hline, hkeep]
  simp

/-- Kept lines of a range do not depend on how the lines are counted at the end of the text. -/
theorem filter_within {keep : Text → Bool} (hkeep : keep [] = false) {t : Text} (htidy : t.Tidy)
    (range : LineSpan) : (range.within (LinedText.splitLines t)).filter keep =
      (range.within t.lines).filter keep := by
  obtain ⟨tail, hlines, htail⟩ := htidy.exists_splitLines
  rw [LineSpan.within, LineSpan.within, hlines, List.take_append, List.drop_append,
    List.filter_append, filter_eq_nil_of_blank hkeep fun line hline =>
      htail line (List.mem_of_mem_take (List.mem_of_mem_drop hline)), List.append_nil]

theorem filter_outside {keep : Text → Bool} (hkeep : keep [] = false) {t : Text} (htidy : t.Tidy)
    (range : LineSpan) : (range.outside (LinedText.splitLines t)).filter keep =
      (range.outside t.lines).filter keep := by
  obtain ⟨tail, hlines, htail⟩ := htidy.exists_splitLines
  rw [LineSpan.outside, LineSpan.outside, hlines, List.take_append, List.drop_append,
    List.filter_append, List.filter_append, List.filter_append, List.filter_append,
    filter_eq_nil_of_blank hkeep fun line hline => htail line (List.mem_of_mem_take hline),
    filter_eq_nil_of_blank hkeep fun line hline => htail line (List.mem_of_mem_drop hline),
    List.append_nil, List.append_nil]

namespace Move

variable {move : Move} {policies : MovePolicies} {outline : Outliner} {confirm : Text → Bool}
variable {reexport : ForwardPolicy} {s : Selected} {symbol : Text} {clash : Bool}

/-- The range of the record is the range of the selection. -/
theorem range_record (s : Selected) : s.record.range = s.excerpt.range := rfl

/-! ## The target of a move -/

theorem tidy_within (htidy : move.source.Tidy) (range : LineSpan) :
    ∀ line ∈ range.within (LinedText.splitLines move.source), line.getLast? ≠ some '\r' :=
  fun line hline => htidy.splitLines line (List.mem_of_mem_take (List.mem_of_mem_drop hline))

/-- The copied lines of a pasted text, for a text that has the selected lines up to markers. -/
theorem forall₂_copied (hs : SelectedFrom move outline s) (htidy : move.source.Tidy) {t : Text}
    (hlines : List.Forall₂ Remarked (s.excerpt.text.pieces '\n') (t.pieces '\n')) (path : Text) :
    List.Forall₂ Remarked ((s.record.range.within move.source.lines).filter (keptInTarget path))
      ((t.pieces '\n').filter (keptInTarget path)) := by
  have hblank : keptInTarget path [] = false := keptInTarget_of_blank rfl
  rw [range_record, ← filter_within hblank htidy, ← pieces_excerpt hs]
  apply List.rel_filter _ hlines
  intro old new hchange
  exact hchange.kept

theorem tidy_pieces (hs : SelectedFrom move outline s) (htidy : move.source.Tidy) {t : Text}
    (hlines : List.Forall₂ Remarked (s.excerpt.text.pieces '\n') (t.pieces '\n')) :
    ∀ line ∈ t.pieces '\n', line.getLast? ≠ some '\r' := by
  have hold := tidy_within htidy s.excerpt.range
  rw [← pieces_excerpt hs] at hold
  generalize s.excerpt.text.pieces '\n' = olds at hlines hold
  generalize t.pieces '\n' = news at hlines
  induction hlines with
  | nil => simp
  | cons hchange _ ih =>
      rw [List.forall_mem_cons] at hold ⊢
      exact ⟨hchange.getLast? hold.1, ih hold.2⟩

/-- The kept lines of a target with a block below it. -/
theorem filter_pasteBelow {target block : Text} {marker : Option Text} (htarget : target.Tidy)
    (hblock : ∀ line ∈ block.pieces '\n', line.getLast? ≠ some '\r')
    (hbreak : ∀ line ∈ marker, '\n' ∉ line) (hreturn : ∀ line ∈ marker, line.getLast? ≠ some '\r')
    (path : Text) :
    (targetView path).of (pasteBelow target block marker).lines =
      target.lines.filter (keptInTarget path) ++
        (marker.toList.filter (keptInTarget path) ++
          (block.pieces '\n').filter (keptInTarget path)) := by
  rw [of_pasteBelow _ _ _ hbreak, (targetView path).of_lines block]
  congr 1
  · exact targetView_of_tidy htarget path
  · congr 1
    · exact LineView.kept_of_tidy fun line hline => hreturn line (Option.mem_toList.1 hline)
    · exact LineView.kept_of_tidy hblock

theorem filter_plain_target {code : Text} (htarget : move.target.Tidy)
    (hcode : ∀ line ∈ code.pieces '\n', line.getLast? ≠ some '\r') (path : Text) :
    (pasteBelow move.target code none).lines.filter (keptInTarget path) =
      move.target.lines.filter (keptInTarget path) ++
        (code.pieces '\n').filter (keptInTarget path) := by
  have hbreak : ∀ line ∈ (none : Option Text), '\n' ∉ line := by simp
  have hreturn : ∀ line ∈ (none : Option Text), line.getLast? ≠ some '\r' := by simp
  have hmarker : ∀ line ∈ (none : Option Text), line.Tidy := by simp
  rw [← targetView_of_tidy (tidy_pasteBelow htarget hcode hmarker),
    filter_pasteBelow htarget hcode hbreak hreturn]
  rfl

theorem getLast?_warning : ∀ line ∈ warning symbol clash, line.getLast? ≠ some '\r' := by
  intro line hline
  rw [warning] at hline
  split at hline
  · cases hline
    have hlast : (clashMarker symbol).getLast? = some 'w' := by
      delta clashMarker
      rw [List.getLast?_append]
      rfl
    rw [hlast]
    decide
  · cases hline

/-- The warning is a line of its own. -/
theorem filter_warning (symbol : Text) (clash : Bool) (path : Text) :
    (warning symbol clash).toList.filter (keptInTarget path) = (warning symbol clash).toList := by
  rw [List.filter_eq_self]
  intro line hline
  rw [Option.mem_toList, warning] at hline
  split at hline
  · cases hline
    have hblank : (clashMarker symbol).trim ≠ [] := by
      intro hblank
      have hslash : '/' ∈ clashMarker symbol :=
        List.mem_append_left _ (List.mem_append_left _ (by decide))
      exact absurd (Text.trim_eq_nil_iff.1 hblank '/' hslash) (by decide)
    have himport : NamedImport.parse? (clashMarker symbol) = none := rfl
    simp [keptInTarget, isImportOf, hblank, himport]
  · cases hline

theorem tidy_warning (hsymbol : IsWord symbol) : ∀ line ∈ warning symbol clash, line.Tidy := by
  intro line hline
  have hbreak := not_mem_warning hsymbol line hline
  have hreturn := getLast?_warning line hline
  rw [Text.Tidy, Text.lines, Text.pieces_of_not_mem hbreak]
  intro other hother
  rw [← List.nil_append [line], Text.linesOfPieces_concat] at hother
  split at hother
  · cases hother
  · rw [List.map_nil, List.nil_append, List.mem_singleton] at hother
    rwa [hother]

theorem filter_linked_target (hs : SelectedFrom move outline s) (hsymbol : IsWord symbol)
    (hplain : PlainPath s.paths.targetToSource) (hsource : move.source.Tidy)
    (htarget : move.target.Tidy) :
    (linked move reexport s symbol clash).target.lines.filter
        (keptInTarget s.paths.targetToSource) =
      move.target.lines.filter (keptInTarget s.paths.targetToSource) ++
        ((warning symbol clash).toList ++
          ((movedText reexport s symbol).pieces '\n').filter
            (keptInTarget s.paths.targetToSource)) := by
  have hcovers := coversTarget_kept fun c hc => (hplain c hc).1
  have hremove : Relined (!keptInTarget s.paths.targetToSource ·) move.target
      (removeImport move.target s.paths.targetToSource symbol) := relined_removeImport hcovers.named
  have hedits : Relines (!keptInTarget s.paths.targetToSource ·)
      (pastedTarget move reexport s symbol clash) (linked move reexport s symbol clash).target :=
    relines_target hs hplain.not_mem hcovers
  have hremoved := hremove.tidy htarget
  have hblock := tidy_pieces hs hsource (forall₂_movedText hs reexport symbol)
  have hpasted : (pastedTarget move reexport s symbol clash).Tidy :=
    tidy_pasteBelow hremoved hblock (tidy_warning hsymbol)
  calc
    _ = (targetView s.paths.targetToSource).of
          (linked move reexport s symbol clash).target.lines :=
        (targetView_of_tidy (hedits.tidy hpasted) _).symm
    _ = (targetView s.paths.targetToSource).of
          (pastedTarget move reexport s symbol clash).lines :=
        hedits.of_lines _ targetView_of_not_kept
    _ = _ := filter_pasteBelow hremoved hblock (not_mem_warning hsymbol) getLast?_warning _
    _ = _ := by
        rw [filter_warning]
        congr 1
        have hlines := hremove.of_lines _ targetView_of_not_kept
        rwa [targetView_of_tidy hremoved, targetView_of_tidy htarget] at hlines

/-! ## The source of a move -/

theorem sourceView_remainder (hs : SelectedFrom move outline s) (htidy : move.source.Tidy)
    (path : Text) : (sourceView path).of s.remainder.lines =
      (s.record.range.outside move.source.lines).filter (keptInSource path) := by
  have hblank : keptInSource path [] = false := keptInSource_of_blank rfl
  have hlines : ∀ line ∈ s.excerpt.range.outside (LinedText.splitLines move.source),
      line.getLast? ≠ some '\r' := by
    intro line hline
    apply htidy.splitLines
    obtain h | h := List.mem_append.1 hline
    · exact List.mem_of_mem_take h
    · exact List.mem_of_mem_drop h
  rw [hs.remainder, of_cutOut _ _ hs.ordered, range_record, ← filter_outside hblank htidy]
  exact LineView.kept_of_tidy hlines

theorem tidy_remainder (hs : SelectedFrom move outline s) (htidy : move.source.Tidy) :
    s.remainder.Tidy := by
  rw [hs.remainder]
  exact tidy_cutOut htidy hs.ordered

theorem forall₂_plain_source (hs : SelectedFrom move outline s) (htidy : move.source.Tidy)
    (path : Text) :
    List.Forall₂ (Exported [])
      ((s.record.range.outside move.source.lines).filter (keptInSource path))
      (s.remainder.lines.filter (keptInSource path)) := by
  rw [← sourceView_remainder hs htidy, sourceView_of_tidy (tidy_remainder hs htidy)]
  exact List.forall₂_same.2 fun _ _ => .same

theorem forall₂_linked_source (hs : SelectedFrom move outline s) (hsymbol : IsWord symbol)
    (hplain : PlainPath s.paths.sourceToTarget) (htidy : move.source.Tidy) :
    List.Forall₂ (Exported (linked move reexport s symbol clash).carried)
      ((s.record.range.outside move.source.lines).filter (keptInSource s.paths.sourceToTarget))
      ((performLinked move reexport s symbol clash).source.lines.filter
        (keptInSource s.paths.sourceToTarget)) := by
  have hcovers := coversSource_kept hsymbol fun c hc => (hplain c hc).1
  have hedits : Relines (!keptInSource s.paths.sourceToTarget ·) s.remainder
      (linked move reexport s symbol clash).source :=
    relines_source hs hsymbol hplain.not_mem hcovers
  have hmarked := forall₂_markAllExported (linked move reexport s symbol clash).source
    (linked move reexport s symbol clash).carried
  have hsource : (performLinked move reexport s symbol clash).source.Tidy :=
    (hedits.tidy (tidy_remainder hs htidy)).of_exported hmarked
  rw [← sourceView_remainder hs htidy, ← hedits.of_lines _ sourceView_of_not_kept,
    LineView.of_lines, ← sourceView_of_tidy hsource, LineView.of_lines]
  exact List.rel_filterMap (fun _ _ hchange => hchange.kept) hmarked

/-! ## Moves -/

/-- A move conserves lines.  In the target, the kept lines are those it had, the warning if there is
one, and the selected lines; in the source they are the lines around the selection.  Only export
markers of declaration lines change. -/
theorem lines_perform {moved : Moved} (hmove : perform move policies outline confirm = .ok moved)
    (hsourcePath : PlainPath move.sourcePath) (htargetPath : PlainPath move.targetPath)
    (hsource : move.source.ReturnsPaired) (htarget : move.target.ReturnsPaired) :
    moved.record.paths = .ofFiles move.sourcePath move.targetPath ∧
    move.selection.lineSpan move.source (LinedText.splitLines move.source).length outline =
      .ok moved.record.range ∧
    (∃ copied,
      moved.target.lines.filter (keptInTarget moved.record.paths.targetToSource) =
        move.target.lines.filter (keptInTarget moved.record.paths.targetToSource) ++
          (moved.record.warningLines ++ copied) ∧
      List.Forall₂ Remarked
        ((moved.record.range.within move.source.lines).filter
          (keptInTarget moved.record.paths.targetToSource)) copied) ∧
    List.Forall₂ (Exported moved.record.carried)
      ((moved.record.range.outside move.source.lines).filter
        (keptInSource moved.record.paths.sourceToTarget))
      (moved.source.lines.filter (keptInSource moved.record.paths.sourceToTarget)) := by
  obtain ⟨s, hs, hcases⟩ := perform_cases hmove
  obtain ⟨hout, hback⟩ := hs.plain hsourcePath htargetPath
  obtain ⟨-, rfl⟩ | ⟨kind, symbol, clash, hdeclared, rfl⟩ := hcases
  · have hcode := forall₂_code hs
    have hblock := tidy_pieces hs hsource.tidy hcode
    refine ⟨hs.paths, hs.span, ⟨_, ?_, forall₂_copied hs hsource.tidy hcode _⟩, ?_⟩
    · exact filter_plain_target htarget.tidy hblock _
    · exact forall₂_plain_source hs hsource.tidy _
  · have hcopied := forall₂_copied hs hsource.tidy
      (forall₂_movedText hs policies.reexport symbol.text) s.paths.targetToSource
    have hwarning : (performLinked move policies.reexport s symbol.text clash).record.warningLines =
        (warning symbol.text clash).toList := by
      have hsymbol : s.record.symbol = some symbol.text := by
        simp [Selected.record, hdeclared]
      rw [performLinked_eq, MoveRecord.warningLines, warning]
      simp only [hsymbol]
      cases clash <;> rfl
    refine ⟨hs.paths, hs.span, ⟨_, ?_, hcopied⟩, ?_⟩
    · rw [hwarning]
      exact filter_linked_target hs symbol.isWord hback hsource.tidy htarget.tidy
    · exact forall₂_linked_source hs symbol.isWord hout hsource.tidy

theorem lines_perform_sample :
    ∃ copied,
      sampleMoved.target.lines.filter (keptInTarget "./a".toList) =
          sampleMove.target.lines.filter (keptInTarget "./a".toList) ++ ([] ++ copied) ∧
        List.Forall₂ Remarked (["export type A = B;".toList].filter (keptInTarget "./a".toList))
          copied :=
  (lines_perform perform_sampleMove (by decide) (by decide)
    (.of_not_mem (by decide)) (.of_not_mem (by decide))).2.2.1

end Move

end Transplant
