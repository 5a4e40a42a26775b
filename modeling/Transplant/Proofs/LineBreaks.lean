import Transplant.Proofs.Edits
import Transplant.Proofs.Markers
import Transplant.Proofs.RoundTrip

/-!
# Line breaks of either kind

A text without carriage returns and the same text with `crlf` line breaks have the same lines.  The
edits of imports and export lists read a text into its lines and write the lines back with the line
break that was found, so on both texts they give the same lines.  The edits of export markers work
on the pieces between line feeds, where the carriage return of a line break stands behind everything
that is read or changed.  So every edit commutes with the change of the line breaks.
-/

namespace Transplant

namespace Text

/-- The text with `crlf` line breaks: a carriage return is put in front of every line feed. -/
def crlf (t : Text) : Text :=
  t.expandChar '\n' ['\r', '\n']

theorem crlf_eq_join (t : Text) : t.crlf = join ['\r', '\n'] (t.pieces '\n') :=
  expandChar_eq t .crlf

theorem pieces_crlf (t : Text) : t.crlf.pieces '\n' = LinedText.withReturns (t.pieces '\n') := by
  rw [crlf_eq_join]
  exact LinedText.pieces_toText (l := ⟨t.pieces '\n', .crlf⟩) (pieces_ne_nil '\n' t)
    fun _ => not_mem_of_mem_pieces

/-- Lines that are joined by either line break. -/
theorem crlf_join {lines : List Text} (hbreak : ∀ line ∈ lines, '\n' ∉ line) :
    (join ['\n'] lines).crlf = join ['\r', '\n'] lines := by
  by_cases hne : lines = []
  · rw [hne]
    rfl
  · rw [crlf_eq_join, pieces_join hne hbreak]

section Lines

variable {t : Text} (hreturn : '\r' ∉ t)
include hreturn

theorem splitLines_of_not_mem_return : LinedText.splitLines t = t.pieces '\n' := by
  rw [LinedText.splitLines, List.map_congr_left (g := id), List.map_id]
  intro piece hpiece
  apply dropReturn_of_ne
  intro hlast
  exact hreturn (mem_of_mem_pieces hpiece (List.mem_of_getLast? hlast))

theorem splitLines_crlf : LinedText.splitLines t.crlf = LinedText.splitLines t := by
  have hlines := splitLines_of_not_mem_return hreturn
  obtain ⟨front, last, hpieces⟩ := exists_pieces_concat '\n' t
  rw [LinedText.splitLines, hpieces, List.map_append] at hlines
  obtain ⟨-, hlast⟩ := List.append_inj' hlines rfl
  rw [LinedText.splitLines, pieces_crlf, hpieces, LinedText.withReturns_concat, List.map_append,
    hlast, splitLines_of_not_mem_return hreturn, hpieces]
  simp [Function.comp_def]

theorem lines_crlf : t.crlf.lines = t.lines := by
  have hlines := splitLines_of_not_mem_return hreturn
  obtain ⟨front, last, hpieces⟩ := exists_pieces_concat '\n' t
  rw [LinedText.splitLines, hpieces, List.map_append] at hlines
  obtain ⟨hfront, -⟩ := List.append_inj' hlines rfl
  rw [lines, lines, pieces_crlf, hpieces, LinedText.withReturns_concat, linesOfPieces_concat,
    linesOfPieces_concat, hfront]
  simp [Function.comp_def]

theorem lineBreak_of_not_mem_return : LineBreak.ofText t = .lf := by
  obtain ⟨front, last, hpieces⟩ := exists_pieces_concat '\n' t
  cases hkind : LineBreak.ofText t with
  | lf => rfl
  | crlf =>
      obtain ⟨piece, hpiece, hlast⟩ := (crlf_iff hpieces).1 hkind
      have hmem : piece ∈ pieces '\n' t := by
        rw [hpieces]
        exact List.mem_append_left _ hpiece
      exact absurd (mem_of_mem_pieces hmem (List.mem_of_getLast? hlast)) hreturn

end Lines

/-- A text has a separator exactly if it has a piece that is not its last one. -/
theorem front_ne_nil_iff {sep : Char} {t last : Text} {front : List Text}
    (hpieces : pieces sep t = front ++ [last]) : front ≠ [] ↔ sep ∈ t := by
  constructor
  · intro hne
    obtain ⟨first, rest, rfl⟩ := List.exists_cons_of_ne_nil hne
    have hinfix : first ++ [sep] <:+: t := by
      rw [← join_pieces sep t, hpieces]
      exact infix_of_mem_front (by simp)
    exact hinfix.subset (by simp)
  · rintro hmem rfl
    have ht := join_pieces sep t
    rw [hpieces, List.nil_append, join_singleton] at ht
    rw [← ht] at hmem
    exact not_mem_of_mem_pieces (t := t) (by rw [hpieces]; simp) hmem

theorem lineBreak_crlf {t : Text} (hbreak : '\n' ∈ t) : LineBreak.ofText t.crlf = .crlf := by
  obtain ⟨front, last, hpieces⟩ := exists_pieces_concat '\n' t
  obtain ⟨first, rest, rfl⟩ := List.exists_cons_of_ne_nil ((front_ne_nil_iff hpieces).2 hbreak)
  have hreturned := pieces_crlf t
  rw [hpieces, LinedText.withReturns_concat] at hreturned
  exact (crlf_iff hreturned).2 ⟨first ++ ['\r'], by simp, by simp⟩

end Text

/-! ## Edits of lines -/

section Edits

variable {t name path : Text} (hreturn : '\r' ∉ t)
include hreturn

/-- An edit of the lines of a text gives the same lines for either line break. -/
theorem toText_crlf (hbreak : '\n' ∈ t) (edit : List Text → List Text)
    (hedit : ∀ line ∈ edit (LinedText.splitLines t), '\n' ∉ line) :
    (LinedText.mk (edit (LinedText.splitLines t.crlf)) (.ofText t.crlf)).toText =
      (LinedText.mk (edit (LinedText.splitLines t)) (.ofText t)).toText.crlf := by
  rw [Text.splitLines_crlf hreturn, Text.lineBreak_crlf hbreak,
    Text.lineBreak_of_not_mem_return hreturn]
  exact (Text.crlf_join hedit).symm

theorem toText_set_crlf (hbreak : '\n' ∈ t) (index : Nat) {line : Text} (hline : '\n' ∉ line) :
    ((LinedText.ofText t.crlf).set index line).toText =
      ((LinedText.ofText t).set index line).toText.crlf := by
  apply toText_crlf hreturn hbreak (·.set index line)
  intro other hother
  obtain hold | rfl := List.mem_or_eq_of_mem_set hother
  · exact LinedText.not_mem_of_mem_splitLines hold
  · exact hline

theorem toText_eraseIdx_crlf (hbreak : '\n' ∈ t) (index : Nat) :
    ((LinedText.ofText t.crlf).eraseIdx index).toText =
      ((LinedText.ofText t).eraseIdx index).toText.crlf :=
  toText_crlf hreturn hbreak (·.eraseIdx index) fun _ hline =>
    LinedText.not_mem_of_mem_splitLines (List.mem_of_mem_eraseIdx hline)

theorem toText_insertAt_crlf (hbreak : '\n' ∈ t) (index : Nat) {new : List Text}
    (hnew : ∀ line ∈ new, '\n' ∉ line) :
    ((LinedText.ofText t.crlf).insertAt index new).toText =
      ((LinedText.ofText t).insertAt index new).toText.crlf := by
  apply toText_crlf hreturn hbreak fun lines => lines.take index ++ new ++ lines.drop index
  intro line hline
  simp only [List.mem_append] at hline
  obtain (habove | hmem) | hbelow := hline
  · exact LinedText.not_mem_of_mem_splitLines (List.mem_of_mem_take habove)
  · exact hnew line hmem
  · exact LinedText.not_mem_of_mem_splitLines (List.mem_of_mem_drop hbelow)

theorem insertBelowPrologue_crlf (hbreak : '\n' ∈ t) (statement : Text) :
    insertBelowPrologue t.crlf statement = (insertBelowPrologue t statement).crlf := by
  have hslot : (LinedText.ofText t.crlf).slot = (LinedText.ofText t).slot := by
    simp only [LinedText.slot, LinedText.ofText, Text.splitLines_crlf hreturn]
  rw [insertBelowPrologue, insertBelowPrologue, LinedText.insertStatement, hslot]
  apply toText_insertAt_crlf hreturn hbreak
  intro line hline
  obtain hstatement | hblank := List.mem_append.1 hline
  · exact LinedText.not_mem_of_mem_splitLines hstatement
  · split at hblank <;> simp_all

theorem importOf?_crlf :
    (LinedText.ofText t.crlf).importOf? path = (LinedText.ofText t).importOf? path := by
  simp only [LinedText.importOf?, LinedText.ofText, Text.splitLines_crlf hreturn]

theorem addImport_crlf (hbreak : '\n' ∈ t) (hname : IsWord name) :
    addImport t.crlf name path = (addImport t name path).crlf := by
  simp only [addImport, importOf?_crlf hreturn]
  split
  · rename_i found hfind
    obtain ⟨hindex, hread, -⟩ := importOf?_spec hfind
    obtain ⟨-, -, -, -, hmerged, -⟩ :=
      NamedImport.mergeInto_spec (not_mem_of_getElem? hindex) hread hname
    exact toText_set_crlf hreturn hbreak _ hmerged
  · exact insertBelowPrologue_crlf hreturn hbreak _

theorem removeImport_crlf (hbreak : '\n' ∈ t) :
    removeImport t.crlf path name = (removeImport t path name).crlf := by
  simp only [removeImport, importOf?_crlf hreturn]
  split
  · rfl
  · rename_i found hfind
    obtain ⟨hindex, hread, -⟩ := importOf?_spec hfind
    split
    · exact toText_eraseIdx_crlf hreturn hbreak _
    · rename_i line hline
      obtain ⟨-, -, -, -, hrest, -⟩ :=
        (NamedImport.removeFrom_spec (not_mem_of_getElem? hindex) hread name).2 line hline
      exact toText_set_crlf hreturn hbreak _ hrest

theorem unlist_crlf (hbreak : '\n' ∈ t) : unlist t.crlf name = (unlist t name).crlf := by
  apply toText_crlf hreturn hbreak (·.filterMap (ExportList.removeFrom name))
  intro line hline
  obtain ⟨old, hold, hnew⟩ := List.mem_filterMap.1 hline
  exact ExportList.not_mem_removeFrom (LinedText.not_mem_of_mem_splitLines hold) hnew

theorem addForwarding_crlf (hbreak : '\n' ∈ t) (hname : IsWord name) (hpath : '\n' ∉ path) :
    addForwarding t.crlf name path = (addForwarding t name path).crlf := by
  have hforwards : forwardsFrom t.crlf name path = forwardsFrom t name path := by
    rw [forwardsFrom, forwardsFrom, Text.lines_crlf hreturn]
  have hlines : (LinedText.ofText t.crlf).lines = (LinedText.ofText t).lines :=
    Text.splitLines_crlf hreturn
  simp only [addForwarding, hforwards, LinedText.size, hlines]
  split
  · rfl
  · split
    · rename_i index l hfind
      obtain ⟨offset, line, rfl, hindex, hread, -⟩ := findForwarding?_spec hfind
      exact toText_set_crlf hreturn hbreak _
        (ExportList.insert_spec (not_mem_of_getElem? hindex) hread hname).2.1
    · apply toText_insertAt_crlf hreturn hbreak
      exact List.forall_mem_singleton.2
        (ExportList.not_mem_statement (hname.not_mem (by decide)) hpath)

end Edits

/-! ## Edits of export markers -/

namespace LinedText

/-- What is put in front of a line does not meet the carriage return behind it. -/
theorem withReturns_modify (front : Text) (lines : List Text) (index : Nat) :
    (withReturns lines).modify index (front ++ ·) =
      withReturns (lines.modify index (front ++ ·)) := by
  induction lines generalizing index with
  | nil => simp [withReturns]
  | cons line rest ih =>
      cases rest with
      | nil => cases index <;> simp [withReturns]
      | cons second rest =>
          cases index with
          | zero => simp [withReturns]
          | succ index =>
              obtain ⟨first, more, hmore⟩ : ∃ first more,
                  (second :: rest).modify index (front ++ ·) = first :: more := by
                cases index <;> simp
              rw [withReturns_cons_cons, List.modify_succ_cons, ih, List.modify_succ_cons, hmore,
                withReturns_cons_cons]

end LinedText

theorem Head.length_marker_le {line marker : Text} {h : Head} (hread : Head.parse? line = some h)
    (hmarker : h.marker = some marker) : marker.length ≤ line.length := by
  rw [Head.parse?_eq] at hread
  obtain ⟨declared, -, rfl⟩ := Option.map_eq_some_iff.1 hread
  have hmarker : Head.marker? line = some marker := hmarker
  rw [Head.marker?] at hmarker
  split at hmarker
  · cases hmarker
    have hlength := (List.dropWhile_suffix (l := line) Head.isIndent).length_le
    rw [List.length_take]
    exact (Nat.min_le_right ..).trans hlength
  · cases hmarker

/-- The marker is taken off in front, whatever stands behind the lines. -/
theorem unmarkFirst?_withReturns (lines : List Text) :
    unmarkFirst? (LinedText.withReturns lines) =
      (unmarkFirst? lines).map LinedText.withReturns := by
  induction lines with
  | nil => rfl
  | cons line rest ih =>
      cases rest with
      | nil =>
          rw [LinedText.withReturns, unmarkFirst?_cons]
          cases headView.read line with
          | none => rfl
          | some h =>
              dsimp only
              split_ifs
              · rfl
              · cases h.marker <;> rfl
              · rfl
      | cons second rest =>
          have hlater : (unmarkFirst? (LinedText.withReturns (second :: rest))).map
              ((line ++ ['\r']) :: ·) =
                ((unmarkFirst? (second :: rest)).map (line :: ·)).map LinedText.withReturns := by
            rw [ih]
            cases hrest : unmarkFirst? (second :: rest) with
            | none => rfl
            | some news =>
                cases forall₂_of_unmarkFirst? hrest
                rfl
          rw [LinedText.withReturns_cons_cons, unmarkFirst?_cons, unmarkFirst?_cons,
            headView.read_return]
          cases hread : headView.read line with
          | none => exact hlater
          | some h =>
              dsimp only
              split_ifs
              · rfl
              · cases hmarker : h.marker with
                | none => rfl
                | some marker =>
                    rw [Option.map_some, Option.map_some, Option.map_some,
                      List.drop_append_of_le_length (Head.length_marker_le hread hmarker),
                      LinedText.withReturns_cons_cons]
              · exact hlater

theorem unmarkExported_crlf (t : Text) :
    unmarkExported t.crlf = ((unmarkExported t).1.crlf, (unmarkExported t).2) := by
  rw [unmarkExported, unmarkExported, Text.pieces_crlf, unmarkFirst?_withReturns]
  cases hunmark : unmarkFirst? (t.pieces '\n') with
  | none => rfl
  | some lines =>
      have hbreak : ∀ line ∈ lines, '\n' ∉ line := by
        rw [← pieces_join_remarked (forall₂_of_unmarkFirst? hunmark)]
        exact fun _ => Text.not_mem_of_mem_pieces
      simp only [Option.map_some, ← LinedText.join_crlf, Text.crlf_join hbreak]

/-- Putting a marker in front of a line brings in the characters of the marker only. -/
theorem not_mem_modify_marker {c : Char} (hmarker : c ∉ exportMarker) {lines : List Text}
    (hlines : ∀ line ∈ lines, c ∉ line) (index : Nat) :
    ∀ line ∈ lines.modify index (exportMarker ++ ·), c ∉ line := by
  intro line hline
  obtain ⟨found, hfound⟩ := List.mem_iff_getElem?.1 hline
  rw [List.getElem?_modify] at hfound
  obtain ⟨old, hold, rfl⟩ := Option.map_eq_some_iff.1 hfound
  have hclean := hlines old (List.mem_of_getElem? hold)
  split
  · rw [List.mem_append]
    exact not_or.2 ⟨hmarker, hclean⟩
  · exact hclean

theorem markExported_crlf {t : Text} (hreturn : '\r' ∉ t) (name : Text) :
    markExported t.crlf name = (markExported t name).crlf := by
  have hfind : declarationOf? t.crlf name = declarationOf? t name := by
    rw [declarationOf?, declarationOf?, declarations, declarations, Text.lines_crlf hreturn]
  rw [markExported, markExported, hfind]
  split
  · split
    · rfl
    · rw [Text.pieces_crlf, LinedText.withReturns_modify, ← LinedText.join_crlf, Text.crlf_join]
      exact not_mem_modify_marker (by decide) (fun _ => Text.not_mem_of_mem_pieces) _
  · rfl

theorem not_mem_markExported {t : Text} (hreturn : '\r' ∉ t) (name : Text) :
    '\r' ∉ markExported t name := by
  have hpieces : ∀ piece ∈ t.pieces '\n', '\r' ∉ piece :=
    fun _ hpiece hmem => hreturn (Text.mem_of_mem_pieces hpiece hmem)
  rw [markExported]
  split
  · split
    · exact hreturn
    · intro hmem
      obtain hsep | ⟨line, hline, hmem⟩ := Text.mem_join hmem
      · exact absurd hsep (by decide)
      · exact not_mem_modify_marker (by decide) hpieces _ line hline hmem
  · exact hreturn

theorem markAllExported_crlf {t : Text} (hreturn : '\r' ∉ t) (names : List Text) :
    markAllExported t.crlf names = (markAllExported t names).crlf := by
  induction names generalizing t with
  | nil => rfl
  | cons name names ih =>
      rw [markAllExported, markAllExported, List.foldl_cons, List.foldl_cons,
        markExported_crlf hreturn]
      exact ih (not_mem_markExported hreturn name)

/-! ## All edits -/

/-- Every edit of a text gives the same with either line break: editing the text with `crlf` breaks
is editing the text and then changing its breaks. -/
theorem edits_crlf {t : Text} (hreturn : '\r' ∉ t) (hbreak : '\n' ∈ t) (name : Identifier)
    (names : List Text) {path : Text} (hpath : '\n' ∉ path) (statement : Text) :
    insertBelowPrologue t.crlf statement = (insertBelowPrologue t statement).crlf ∧
      addImport t.crlf name.text path = (addImport t name.text path).crlf ∧
      removeImport t.crlf path name.text = (removeImport t path name.text).crlf ∧
      unlist t.crlf name.text = (unlist t name.text).crlf ∧
      addForwarding t.crlf name.text path = (addForwarding t name.text path).crlf ∧
      markExported t.crlf name.text = (markExported t name.text).crlf ∧
      markAllExported t.crlf names = (markAllExported t names).crlf ∧
      (unmarkExported t.crlf).1 = (unmarkExported t).1.crlf ∧
      (unmarkExported t.crlf).2 = (unmarkExported t).2 := by
  refine ⟨insertBelowPrologue_crlf hreturn hbreak statement,
    addImport_crlf hreturn hbreak name.isWord, removeImport_crlf hreturn hbreak,
    unlist_crlf hreturn hbreak, addForwarding_crlf hreturn hbreak name.isWord hpath,
    markExported_crlf hreturn name.text, markAllExported_crlf hreturn names, ?_, ?_⟩
  · rw [unmarkExported_crlf]
  · rw [unmarkExported_crlf]

/-- A file that exports a constant by its marker and lists another one. -/
def exportingFile : Text :=
  "export const a = 1;\nconst b = 2;\nexport \x7b b \x7d;\n".toList

theorem edits_crlf_exporting :
    '\r' ∉ exportingFile ∧ '\n' ∈ exportingFile ∧
      addForwarding exportingFile.crlf ['c'] "./m".toList =
        ("export const a = 1;\r\nconst b = 2;\r\nexport \x7b b \x7d;\r\n" ++
          "export \x7b c \x7d from './m';\r\n").toList ∧
      unmarkExported exportingFile.crlf =
        ("const a = 1;\r\nconst b = 2;\r\nexport \x7b b \x7d;\r\n".toList, true) := by
  have hreturn : '\r' ∉ exportingFile := by decide
  have hbreak : '\n' ∈ exportingFile := by decide
  have hpath : '\n' ∉ "./m".toList := by decide
  obtain ⟨-, -, -, -, hforwarding, -, -, htext, hflag⟩ :=
    edits_crlf hreturn hbreak ⟨['c'], by decide⟩ [] hpath []
  refine ⟨hreturn, hbreak, hforwarding.trans (by decide +kernel), Prod.ext ?_ ?_⟩
  · exact htext.trans (by decide +kernel)
  · exact hflag.trans (by decide +kernel)

end Transplant
