import Transplant.Proofs.Exports
import Transplant.Proofs.LineBreaks
import Transplant.Proofs.LineConservation

/-!
# The line breaks of the source of a move

Every edit of a text finds out anew which line breaks the text has.  A text without any line break
counts as one with `lf` breaks, whatever the file had before.  So a move keeps the `crlf` breaks of
its source as long as the lines around the selection have a break left.  If they are one line only,
the next line that is added to them brings an `lf` break with it.
-/

namespace Transplant

namespace Text

/-- Every line feed of the text stands directly behind a carriage return. -/
def BreaksReturned (t : Text) : Prop :=
  ∀ before after : Text, t = before ++ '\n' :: after → before.getLast? = some '\r'

theorem BreaksReturned.of_not_mem {t : Text} (hbreak : '\n' ∉ t) : BreaksReturned t := by
  rintro before after rfl
  exact absurd (by simp) hbreak

theorem BreaksReturned.of_append_lf {s t : Text} (hreturned : BreaksReturned (s ++ '\n' :: t)) :
    BreaksReturned t := by
  rintro before after rfl
  have hlast := hreturned (s ++ '\n' :: before) after (by simp)
  rw [List.getLast?_append, List.getLast?_cons] at hlast
  cases hbefore : before.getLast? with
  | none => simp [hbefore] at hlast
  | some c => simpa [hbefore] using hlast

/-- The line breaks of a text are seen in its pieces. -/
theorem breaksReturned_iff {t last : Text} {front : List Text}
    (hpieces : pieces '\n' t = front ++ [last]) :
    BreaksReturned t ↔ ∀ piece ∈ front, piece.getLast? = some '\r' := by
  constructor
  · intro hreturned
    induction front generalizing t with
    | nil => simp
    | cons piece front ih =>
        obtain ⟨hnil, -⟩ | ⟨u, rfl, hu⟩ := pieces_cons_cases hpieces
        · simp at hnil
        · rw [List.forall_mem_cons]
          exact ⟨hreturned piece u rfl, ih hu hreturned.of_append_lf⟩
  · rintro hreturned before after rfl
    obtain ⟨upper, line, hbefore⟩ := exists_pieces_concat '\n' before
    obtain ⟨lower, rest, hafter⟩ := exists_pieces_concat '\n' after
    rw [pieces_append_sep, hbefore, hafter, ← List.append_assoc] at hpieces
    obtain ⟨rfl, -⟩ := List.append_inj' hpieces rfl
    have hline := hreturned line (by simp)
    obtain ⟨above, rfl⟩ := suffix_of_pieces hbefore
    rw [List.getLast?_append, hline, Option.some_or]

theorem BreaksReturned.lineBreak {t : Text} (hreturned : BreaksReturned t) (hbreak : '\n' ∈ t) :
    LineBreak.ofText t = .crlf := by
  obtain ⟨front, last, hpieces⟩ := exists_pieces_concat '\n' t
  obtain ⟨first, rest, rfl⟩ := List.exists_cons_of_ne_nil ((front_ne_nil_iff hpieces).2 hbreak)
  have hfirst := (breaksReturned_iff hpieces).1 hreturned first (by simp)
  exact (crlf_iff hpieces).2 ⟨first, by simp, hfirst⟩

theorem lineBreak_of_not_mem {t : Text} (hbreak : '\n' ∉ t) : LineBreak.ofText t = .lf := by
  cases hkind : LineBreak.ofText t with
  | lf => rfl
  | crlf =>
      have hpieces : pieces '\n' t = [] ++ [t] := pieces_of_not_mem hbreak
      obtain ⟨piece, hpiece, -⟩ := (crlf_iff hpieces).1 hkind
      cases hpiece

theorem breaksReturned_crlf (t : Text) : t.crlf.BreaksReturned := by
  obtain ⟨front, last, hpieces⟩ := exists_pieces_concat '\n' t
  have hreturned := pieces_crlf t
  rw [hpieces, LinedText.withReturns_concat] at hreturned
  rw [breaksReturned_iff hreturned]
  simp

theorem returnsPaired_crlf {t : Text} (hreturn : '\r' ∉ t) : t.crlf.ReturnsPaired := by
  induction t with
  | nil => exact .of_not_mem hreturn
  | cons c t ih =>
      obtain ⟨hc, ht⟩ : '\r' ≠ c ∧ '\r' ∉ t := by simpa using hreturn
      intro before after htext
      rw [crlf, expandChar, List.flatMap_cons, ← expandChar, ← crlf] at htext
      by_cases hbreak : c = '\n'
      · -- the carriage return of this break stands first, all others stand in the rest
        rw [if_pos hbreak] at htext
        cases before with
        | nil =>
            rw [← (List.cons.inj htext).2]
            rfl
        | cons _ before =>
            cases before with
            | nil => cases htext
            | cons _ before =>
                obtain ⟨-, hrest⟩ := List.cons.inj (List.cons.inj htext).2
                exact ih ht before after hrest
      · rw [if_neg hbreak] at htext
        cases before with
        | nil => exact absurd (List.cons.inj htext).1.symm hc
        | cons _ before => exact ih ht before after (List.cons.inj htext).2

/-- A tidy text of one line does not end in a carriage return. -/
theorem Tidy.getLast? {t : Text} (htidy : t.Tidy) (hbreak : '\n' ∉ t) :
    t.getLast? ≠ some '\r' := by
  by_cases hne : t = []
  · simp [hne]
  · apply htidy
    rw [lines, pieces_of_not_mem hbreak, ← List.nil_append [t], linesOfPieces_concat]
    simp [hne]

end Text

/-! ## Texts that are written -/

namespace LinedText

variable {l : LinedText} (hbreak : ∀ line ∈ l.lines, '\n' ∉ line)
include hbreak

/-- The pieces of a written text, the last one named. -/
theorem exists_pieces_toText (hne : l.lines ≠ []) : ∃ front last, l.lines = front ++ [last] ∧
    Text.pieces '\n' l.toText = (match l.lineBreak with
      | .lf => front
      | .crlf => front.map (· ++ ['\r'])) ++ [last] := by
  obtain ⟨front, last, hlines⟩ : ∃ front last, l.lines = front ++ [last] := by
    obtain hnil | ⟨front, last, hlines⟩ := List.eq_nil_or_concat l.lines
    · exact absurd hnil hne
    · exact ⟨front, last, by rw [hlines, List.concat_eq_append]⟩
  refine ⟨front, last, hlines, ?_⟩
  rw [pieces_toText hne hbreak, hlines, withReturns_concat]
  cases l.lineBreak <;> rfl

theorem mem_toText_iff : '\n' ∈ l.toText ↔ 2 ≤ l.lines.length := by
  by_cases hne : l.lines = []
  · rw [toText, hne]
    simp
  · obtain ⟨front, last, hlines, hpieces⟩ := exists_pieces_toText hbreak hne
    have htwo : 2 ≤ l.lines.length ↔ front ≠ [] := by
      rw [hlines, List.length_append, List.length_singleton, ← List.length_pos_iff]
      omega
    rw [htwo, ← Text.front_ne_nil_iff hpieces]
    cases l.lineBreak <;> simp

theorem breaksReturned_toText (hkind : l.lineBreak = .crlf) : l.toText.BreaksReturned := by
  by_cases hne : l.lines = []
  · rw [toText, hne]
    exact .of_not_mem (by simp)
  · obtain ⟨front, last, -, hpieces⟩ := exists_pieces_toText hbreak hne
    rw [Text.breaksReturned_iff hpieces, hkind]
    simp

theorem lineBreak_toText (hkind : l.lineBreak = .lf)
    (hreturn : ∀ line ∈ l.lines, line.getLast? ≠ some '\r') : LineBreak.ofText l.toText = .lf := by
  by_cases hne : l.lines = []
  · rw [toText, hne]
    rfl
  · obtain ⟨front, last, hlines, hpieces⟩ := exists_pieces_toText hbreak hne
    cases hwritten : LineBreak.ofText l.toText with
    | lf => rfl
    | crlf =>
        obtain ⟨piece, hpiece, hend⟩ := (Text.crlf_iff hpieces).1 hwritten
        rw [hkind] at hpiece
        refine absurd hend (hreturn piece ?_)
        rw [hlines]
        exact List.mem_append_left _ hpiece

end LinedText

theorem mem_iff_two_le_splitLines {t : Text} :
    '\n' ∈ t ↔ 2 ≤ (LinedText.splitLines t).length := by
  obtain ⟨front, last, hpieces⟩ := Text.exists_pieces_concat '\n' t
  rw [← Text.front_ne_nil_iff hpieces, LinedText.splitLines, hpieces, List.length_map,
    List.length_append, List.length_singleton, ← List.length_pos_iff]
  omega

/-! ## Edits -/

namespace Relined

variable {p : Text → Bool} {t u : Text}

/-- An edit keeps `crlf` breaks, if there is one to go by. -/
theorem breaksReturned (hedit : Relined p t u) (hreturned : t.BreaksReturned)
    (hbreak : '\n' ∈ t) : u.BreaksReturned := by
  cases hedit with
  | same => exact hreturned
  | rewritten lines hlines _ _ =>
      exact LinedText.breaksReturned_toText hlines (hreturned.lineBreak hbreak)

theorem lineBreak_lf (hedit : Relined p t u) (htidy : t.Tidy) (hkind : LineBreak.ofText t = .lf) :
    LineBreak.ofText u = .lf := by
  cases hedit with
  | same => exact hkind
  | rewritten lines hlines hreturn _ =>
      exact LinedText.lineBreak_toText hlines hkind (hreturn htidy.splitLines)

end Relined

def anyLine (_ : Text) : Bool :=
  true

section Edits

variable {t name path : Text}

theorem breaksReturned_unlist (hreturned : t.BreaksReturned) (name : Text) :
    (unlist t name).BreaksReturned := by
  by_cases hbreak : '\n' ∈ t
  · have hedit : Relined anyLine t (unlist t name) := relined_unlist fun _ _ _ => rfl
    exact hedit.breaksReturned hreturned hbreak
  · apply Text.BreaksReturned.of_not_mem
    rw [unlist, LinedText.mem_toText_iff]
    · have hlength := List.length_filterMap_le (ExportList.removeFrom name)
        (LinedText.splitLines t)
      rw [mem_iff_two_le_splitLines] at hbreak
      exact fun htwo => hbreak (htwo.trans hlength)
    · intro line hline
      obtain ⟨old, hold, hnew⟩ := List.mem_filterMap.1 hline
      exact ExportList.not_mem_removeFrom (LinedText.not_mem_of_mem_splitLines hold) hnew

/-- Replacing a line does not change whether there is a line break. -/
theorem mem_toText_set_iff (index : Nat) {line : Text} (hline : '\n' ∉ line) :
    '\n' ∈ ((LinedText.ofText t).set index line).toText ↔ '\n' ∈ t := by
  rw [LinedText.mem_toText_iff, mem_iff_two_le_splitLines]
  · simp [LinedText.set, LinedText.ofText]
  · intro other hother
    obtain hold | rfl := List.mem_or_eq_of_mem_set hother
    · exact LinedText.not_mem_of_mem_splitLines hold
    · exact hline

/-- With a line that is inserted there is a line break. -/
theorem mem_toText_insertAt (index : Nat) {new : List Text} (hne : new ≠ [])
    (hnew : ∀ line ∈ new, '\n' ∉ line) :
    '\n' ∈ ((LinedText.ofText t).insertAt index new).toText := by
  rw [LinedText.mem_toText_iff]
  · have hold := List.length_pos_iff.2 (LinedText.lines_ofText_ne_nil t)
    have hadded := List.length_pos_iff.2 hne
    simp only [LinedText.insertAt, List.length_append, List.length_take, List.length_drop]
    omega
  · intro line hline
    simp only [LinedText.insertAt, List.mem_append] at hline
    obtain (habove | hmem) | hbelow := hline
    · exact LinedText.not_mem_of_mem_splitLines (List.mem_of_mem_take habove)
    · exact hnew line hmem
    · exact LinedText.not_mem_of_mem_splitLines (List.mem_of_mem_drop hbelow)

theorem mem_insertBelowPrologue (t statement : Text) : '\n' ∈ insertBelowPrologue t statement := by
  apply mem_toText_insertAt
  · simp [LinedText.splitLines, Text.pieces_ne_nil]
  · intro line hline
    obtain hstatement | hblank := List.mem_append.1 hline
    · exact LinedText.not_mem_of_mem_splitLines hstatement
    · split at hblank <;> simp_all

/-- An import is added to a line that there is, or a line is inserted. -/
theorem mem_addImport_iff (hname : IsWord name) :
    '\n' ∈ addImport t name path ↔ '\n' ∈ t ∨ NoImportOf path (LinedText.splitLines t) := by
  simp only [addImport]
  split
  · rename_i found hfind
    obtain ⟨hindex, hread, hpath⟩ := importOf?_spec hfind
    have hsome : ¬ NoImportOf path (LinedText.splitLines t) :=
      fun hnone => hnone found.line (List.mem_of_getElem? hindex) _ hread hpath
    obtain ⟨-, -, -, -, hmerged, -⟩ :=
      NamedImport.mergeInto_spec (not_mem_of_getElem? hindex) hread hname
    rw [mem_toText_set_iff _ hmerged]
    simp [hsome]
  · rename_i hfind
    exact iff_of_true (mem_insertBelowPrologue ..) (.inr (findImport?_eq_none_iff.1 hfind))

/-- No line is an export list that forwards names of the module at the path. -/
def NoForwardingOf (path : Text) (lines : List Text) : Prop :=
  ∀ line ∈ lines, ∀ l, ExportList.parse? line = some l → l.forwards path = false

theorem findForwarding?_eq_none_iff {index : Nat} {lines : List Text} :
    findForwarding? path index lines = none ↔ NoForwardingOf path lines := by
  induction lines generalizing index with
  | nil => simp [findForwarding?, NoForwardingOf]
  | cons line rest ih =>
      rw [findForwarding?, NoForwardingOf, List.forall_mem_cons, ← NoForwardingOf,
        ← @ih (index + 1)]
      cases hread : ExportList.parse? line with
      | none => simp
      | some l => cases hforwards : l.forwards path <;> simp [hforwards]

theorem not_noForwardingOf (hforwards : forwardsFrom t name path) :
    ¬ NoForwardingOf path (LinedText.splitLines t) := by
  intro hnone
  rw [forwardsFrom_iff, ← exportView.of_splitLines] at hforwards
  obtain ⟨entry, hentry, hpath, -⟩ := hforwards
  obtain ⟨line, hline, hread⟩ := List.mem_filterMap.1 hentry
  obtain ⟨l, hl, rfl⟩ := Option.map_eq_some_iff.1 hread
  have hforwards := hnone line hline l hl
  obtain ⟨origin, horigin, horiginPath⟩ := Option.map_eq_some_iff.1 hpath
  simp [ExportList.forwards, horigin, horiginPath] at hforwards

/-- A name is added to a list that there is, or a line is inserted. -/
theorem mem_addForwarding_iff (hname : IsWord name) (hpath : '\n' ∉ path) :
    '\n' ∈ addForwarding t name path ↔
      '\n' ∈ t ∨ NoForwardingOf path (LinedText.splitLines t) := by
  simp only [addForwarding]
  split
  · rename_i hforwards
    simp [not_noForwardingOf hforwards]
  · split
    · rename_i index l hfind
      obtain ⟨offset, line, rfl, hindex, hread, hforwards⟩ := findForwarding?_spec hfind
      have hsome : ¬ NoForwardingOf path (LinedText.splitLines t) := by
        intro hnone
        rw [hnone line (List.mem_of_getElem? hindex) l hread] at hforwards
        cases hforwards
      obtain ⟨-, hinserted, -⟩ := ExportList.insert_spec (not_mem_of_getElem? hindex) hread hname
      rw [mem_toText_set_iff _ hinserted]
      simp [hsome]
    · rename_i hfind
      refine iff_of_true ?_ (.inr (findForwarding?_eq_none_iff.1 hfind))
      apply mem_toText_insertAt _ (by simp)
      simpa using ExportList.not_mem_statement (hname.not_mem (by decide)) hpath

/-- A line that uses a name imports nothing. -/
theorem noImportOf_of_uses {symbol : Identifier} (huses : uses t symbol.text)
    (hbreak : '\n' ∉ t) (path : Text) : NoImportOf path (LinedText.splitLines t) := by
  rw [uses_iff, ← (usesView symbol).of_splitLines] at huses
  rw [LinedText.splitLines_of_not_mem hbreak] at huses ⊢
  intro line hline i hread _
  rw [List.mem_singleton] at hline
  subst hline
  have hlinking : Move.isLinking (Text.dropReturn t) := by simp [Move.isLinking, hread]
  have hhidden := Move.usesView_of_isLinking symbol _ hlinking
  simp [LineView.of, hhidden] at huses

theorem Exported.getLast? {names : List Text} {old new : Text} (hchange : Exported names old new) :
    new.getLast? = old.getLast? := by
  cases hchange with
  | same => rfl
  | marked h hread _ _ _ =>
      have hne : old ≠ [] := by
        rintro rfl
        rw [Head.parse?_of_blank rfl] at hread
        cases hread
      rw [List.getLast?_append_of_ne_nil _ hne]

/-- Export markers do not touch the line breaks. -/
theorem breaksReturned_markAllExported_iff (t : Text) (names : List Text) :
    (markAllExported t names).BreaksReturned ↔ t.BreaksReturned := by
  have hends : ((markAllExported t names).pieces '\n').map List.getLast? =
      (t.pieces '\n').map List.getLast? := by
    rw [← List.forall₂_eq_eq_eq, List.forall₂_map_left_iff, List.forall₂_map_right_iff]
    exact (forall₂_markAllExported t names).flip.imp fun _ _ hchange => hchange.getLast?
  obtain ⟨front, last, hold⟩ := Text.exists_pieces_concat '\n' t
  obtain ⟨newFront, newLast, hnew⟩ := Text.exists_pieces_concat '\n' (markAllExported t names)
  rw [hold, hnew, List.map_append, List.map_append] at hends
  obtain ⟨hfront, -⟩ := List.append_inj' hends rfl
  have hends : ∀ pieces : List Text, (∀ piece ∈ pieces, piece.getLast? = some '\r') ↔
      ∀ ending ∈ pieces.map List.getLast?, ending = some '\r' := by simp
  rw [Text.breaksReturned_iff hold, Text.breaksReturned_iff hnew, hends, hends, hfront]

end Edits

/-! ## Moves -/

namespace Move

variable {move : Move} {policies : MovePolicies} {outline : Outliner} {confirm : Text → Bool}

theorem breaksReturned_cutOut {source : Text} {range : LineSpan}
    (hrange : range.first ≤ range.last + 1) (hreturned : source.BreaksReturned)
    (hbreak : '\n' ∈ source) : (cutOut source range).BreaksReturned := by
  obtain ⟨lines, hcut, hmem, -⟩ := cutOut_spec source hrange
  rw [hcut]
  apply LinedText.breaksReturned_toText _ (hreturned.lineBreak hbreak)
  exact fun line hline => LinedText.not_mem_of_mem_splitLines (hmem line hline)

section Linked

variable {reexport : ForwardPolicy} {s : Selected} {symbol : Identifier} {clash : Bool}

/-- The lines around the selection, without the local exports of a forwarded symbol. -/
def unlistedRemainder (reexport : ForwardPolicy) (s : Selected) (symbol : Text) : Text :=
  if isForwarded reexport s symbol then unlist s.remainder symbol else s.remainder

theorem forwardedSource_eq : forwardedSource reexport s symbol.text =
    if isForwarded reexport s symbol.text then
      addForwarding (unlistedRemainder reexport s symbol.text) symbol.text s.paths.sourceToTarget
    else unlistedRemainder reexport s symbol.text := by
  rw [forwardedSource, unlistedRemainder]
  split <;> rfl

variable (hpath : '\n' ∉ s.paths.sourceToTarget)
include hpath

theorem mem_forwardedSource_iff : '\n' ∈ forwardedSource reexport s symbol.text ↔
    '\n' ∈ unlistedRemainder reexport s symbol.text ∨ isForwarded reexport s symbol.text ∧
      NoForwardingOf s.paths.sourceToTarget
        (LinedText.splitLines (unlistedRemainder reexport s symbol.text)) := by
  rw [forwardedSource_eq]
  split
  · rename_i hforwarded
    rw [mem_addForwarding_iff symbol.isWord hpath, hforwarded]
    simp
  · rename_i hforwarded
    simp [hforwarded]

/-- The forwarding statement and the import are both written by edits of lines. -/
theorem relined_forwardedSource : Relined anyLine (unlistedRemainder reexport s symbol.text)
    (forwardedSource reexport s symbol.text) := by
  rw [forwardedSource_eq]
  split
  · exact relined_addForwarding (fun _ _ _ => rfl) rfl symbol.isWord hpath
  · exact .same

variable (hs : SelectedFrom move outline s)
include hs

theorem relined_linked_source : Relined anyLine (forwardedSource reexport s symbol.text)
    (linked move reexport s symbol.text clash).source := by
  rw [linked_source hs]
  split
  · exact relined_addImport (fun _ _ _ _ => rfl) rfl rfl symbol.isWord hpath
  · exact .same

omit hpath in
/-- A source that uses the symbol and has one line only gets another line for the import. -/
theorem mem_linked_source_iff : '\n' ∈ (linked move reexport s symbol.text clash).source ↔
    '\n' ∈ forwardedSource reexport s symbol.text ∨
      (linked move reexport s symbol.text clash).sourceImported := by
  rw [linked_source hs]
  split
  · rename_i himported
    have huses : uses (forwardedSource reexport s symbol.text) symbol.text := by
      simp only [linked, link, Bool.and_eq_true] at himported
      exact himported.1
    rw [mem_addImport_iff symbol.isWord, himported]
    by_cases hbreak : '\n' ∈ forwardedSource reexport s symbol.text
    · simp [hbreak]
    · simp [noImportOf_of_uses huses hbreak]
  · rename_i himported
    simp [himported]

/-- A linked source has `lf` breaks exactly if the lines it was made of had none. -/
theorem breaksReturned_linked_iff
    (hreturned : (unlistedRemainder reexport s symbol.text).BreaksReturned)
    (htidy : (unlistedRemainder reexport s symbol.text).Tidy) :
    (linked move reexport s symbol.text clash).source.BreaksReturned ↔
      '\n' ∈ unlistedRemainder reexport s symbol.text ∨
        '\n' ∉ (linked move reexport s symbol.text clash).source := by
  have hforwarded : Relined anyLine (unlistedRemainder reexport s symbol.text)
      (forwardedSource reexport s symbol.text) := relined_forwardedSource hpath
  have hlinked : Relined anyLine (forwardedSource reexport s symbol.text)
      (linked move reexport s symbol.text clash).source := relined_linked_source hpath hs
  by_cases hbreak : '\n' ∈ unlistedRemainder reexport s symbol.text
  · refine iff_of_true ?_ (.inl hbreak)
    have hbreak' := (mem_forwardedSource_iff hpath).2 (.inl hbreak)
    exact hlinked.breaksReturned (hforwarded.breaksReturned hreturned hbreak) hbreak'
  · rw [or_iff_right hbreak]
    constructor
    · intro hall hmem
      have hkind : LineBreak.ofText (linked move reexport s symbol.text clash).source = .lf := by
        apply hlinked.lineBreak_lf (hforwarded.tidy htidy)
        exact hforwarded.lineBreak_lf htidy (Text.lineBreak_of_not_mem hbreak)
      cases hkind.symm.trans (hall.lineBreak hmem)
    · exact .of_not_mem

end Linked

/-- What stays of the source of a move has its line breaks and is tidy. -/
theorem breaksReturned_unlistedRemainder {s : Selected} (hs : SelectedFrom move outline s)
    (hbreak : '\n' ∈ move.source) (hpaired : move.source.ReturnsPaired)
    (hreturned : move.source.BreaksReturned) (reexport : ForwardPolicy) (symbol : Text) :
    (unlistedRemainder reexport s symbol).BreaksReturned ∧
      (unlistedRemainder reexport s symbol).Tidy := by
  have hrest := breaksReturned_cutOut hs.ordered hreturned hbreak
  have htidy := tidy_cutOut hpaired.tidy hs.ordered
  have hunlist : Relined anyLine s.remainder (unlist s.remainder symbol) :=
    relined_unlist fun _ _ _ => rfl
  rw [← hs.remainder] at hrest htidy
  rw [unlistedRemainder]
  split
  · exact ⟨breaksReturned_unlist hrest symbol, hunlist.tidy htidy⟩
  · exact ⟨hrest, htidy⟩

/-- A tidy text of one line forwards nothing exactly if it is no list of the module. -/
theorem noForwardingOf_iff {t path : Text} (htidy : t.Tidy) (hbreak : '\n' ∉ t) :
    NoForwardingOf path (LinedText.splitLines t) ↔
      ¬ ∃ l, ExportList.parse? t = some l ∧ l.forwards path := by
  rw [splitLines_statement hbreak (htidy.getLast? hbreak), NoForwardingOf]
  simp

/-- The source of a move with `crlf` breaks has `crlf` breaks only afterwards exactly if the lines
around the selection have a break, or no line is added to them: neither an import of the symbol nor
a list that forwards it. -/
theorem breaksReturned_source_iff {moved : Moved}
    (hmove : perform move policies outline confirm = .ok moved)
    (hbreak : '\n' ∈ move.source) (hpaired : move.source.ReturnsPaired)
    (hreturned : move.source.BreaksReturned) (htargetPath : '\n' ∉ move.targetPath) :
    moved.source.BreaksReturned ↔
      '\n' ∈ unlistedSource move moved.record ∨
        moved.record.sourceImported = false ∧
          (moved.record.forwarded → ∃ l,
            ExportList.parse? (unlistedSource move moved.record) = some l ∧
              l.forwards moved.record.paths.sourceToTarget) := by
  obtain ⟨s, hs, ⟨-, rfl⟩ | ⟨kind, symbol, clash, hdeclared, rfl⟩⟩ := perform_cases hmove
  · have hrest := breaksReturned_cutOut hs.ordered hreturned hbreak
    rw [← hs.remainder] at hrest
    exact iff_of_true hrest (.inr ⟨rfl, nofun⟩)
  · have hpath : '\n' ∉ s.paths.sourceToTarget := by
      rw [hs.paths]
      exact ModulePath.not_mem_relative htargetPath (by decide) (by decide)
    obtain ⟨hrest, htidy⟩ := breaksReturned_unlistedRemainder hs hbreak hpaired hreturned
      policies.reexport symbol.text
    have hunlisted : unlistedSource move
        (performLinked move policies.reexport s symbol.text clash).record =
          unlistedRemainder policies.reexport s symbol.text := unlistedSource_linked hs hdeclared
    rw [hunlisted, performLinked_eq, breaksReturned_markAllExported_iff,
      breaksReturned_linked_iff hpath hs hrest htidy, mem_linked_source_iff hs,
      mem_forwardedSource_iff hpath]
    by_cases hone : '\n' ∈ unlistedRemainder policies.reexport s symbol.text
    · simp [hone]
    · rw [noForwardingOf_iff htidy hone]
      have hpaths : s.record.paths = s.paths := rfl
      simp only [hone, hpaths, false_or, not_or, not_and, not_not, Bool.not_eq_true]
      exact and_comm

/-- A move out of a file with `crlf` breaks whose only other line uses the symbol. -/
def returnedMove : Move :=
  { sourcePath := "a.ts".toList
    targetPath := "b.ts".toList
    source := Text.crlf "type A = string;\nlet x: A;".toList
    target := []
    selection := .range 1 1 }

def returnedMoved : Moved :=
  { sourcePath := "a.ts".toList
    targetPath := "b.ts".toList
    source := "import \x7b A \x7d from './b';\n\nlet x: A;".toList
    target := "export type A = string;\n".toList
    record :=
      { stage := .linked
        symbol := some "A".toList
        kind := some .typeDecl
        movedLines := (1, 1)
        clash := false
        exported := true
        forwarded := false
        sourceImported := true
        carried := []
        paths := { sourceToTarget := "./b".toList, targetToSource := "./a".toList } } }

/-- The import brings `lf` breaks into that file. -/
theorem breaksReturned_source_iff_last :
    perform returnedMove { } (fun _ => []) (fun _ => false) = .ok returnedMoved ∧
      '\n' ∈ returnedMove.source ∧ returnedMove.source.ReturnsPaired ∧
      returnedMove.source.BreaksReturned ∧ ¬ returnedMoved.source.BreaksReturned := by
  have hperform : perform returnedMove { } (fun _ => []) (fun _ => false) = .ok returnedMoved := by
    decide +kernel
  have hbreak : '\n' ∈ returnedMove.source := by decide +kernel
  have hpaired : returnedMove.source.ReturnsPaired := Text.returnsPaired_crlf (by decide +kernel)
  have hreturned : returnedMove.source.BreaksReturned := Text.breaksReturned_crlf _
  refine ⟨hperform, hbreak, hpaired, hreturned, ?_⟩
  rw [breaksReturned_source_iff hperform hbreak hpaired hreturned (by decide)]
  decide +kernel

end Move

end Transplant
