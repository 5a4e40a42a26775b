import Transplant.Proofs.FirstDeclaration
import Transplant.Proofs.Pointing
import Transplant.Proofs.Siblings

/-!
# The declaration of the selected code

The outline names a declaration, and what is moved is named by a second reading of the selected
lines, which knows nothing of the outline.  The lines above the declaration may come from the
declaration before it, but they look like comments, and no such line is taken for a declaration.  So
both readings name the same one.
-/

namespace Transplant

namespace Outline

open OutlineItem

variable {content : Text} {item : OutlineItem}

def declarationHead? (content : Text) (item : OutlineItem) : Option Head :=
  Head.parse? (lineAt (content.pieces '\n') (headLine (content.pieces '\n') item))

/-- A range, split at one of its lines. -/
theorem within_eq {lines : List Text} {range : LineSpan} {line : Nat} (hfirst : range.first ≤ line)
    (hlast : line ≤ range.last) (hline : line < lines.length) :
    range.within lines = (lines.take line).drop range.first ++
      lineAt lines line :: (lines.take (range.last + 1)).drop (line + 1) := by
  have hsplit : lines.take (range.last + 1) = lines.take line ++
      lineAt lines line :: (lines.take (range.last + 1)).drop (line + 1) := by
    have hinside : line < (lines.take (range.last + 1)).length := by
      rw [List.length_take]
      omega
    have habove : (lines.take (range.last + 1)).take line = lines.take line := by
      rw [List.take_take, Nat.min_eq_left (by omega)]
    have hhere : (lines.take (range.last + 1))[line] = lineAt lines line := by
      rw [List.getElem_take, lineAt_eq hline]
    rw [← habove, ← hhere, ← List.drop_eq_getElem_cons hinside, List.take_append_drop]
  have hlength : range.first ≤ (lines.take line).length := by
    rw [List.length_take]
    omega
  rw [LineSpan.within]
  nth_rewrite 1 [hsplit]
  exact List.drop_append_of_le_length hlength

/-- The first declaration on the lines of an item is its own. -/
theorem topHead?_within (hitem : item ∈ heuristic content) :
    ∃ h, declarationHead? content item = some h ∧ h.name = item.name ∧ h.kind = item.kind ∧
      topHead? (item.range.within (content.pieces '\n')) = some h := by
  obtain ⟨line, -, hline, hread, hrange, -⟩ := mem_collect hitem
  obtain ⟨h, hparse, htop, hname, hkind⟩ := exists_head_of_matchLine? hread
  have hfirst : item.range.first = docStart (content.pieces '\n') 0
      (Prologue.firstCode (content.pieces '\n')) line := congrArg LineSpan.first hrange
  have hlast : line ≤ item.range.last := by
    rw [hrange]
    exact le_lastLine _ _ _ _
  obtain ⟨hle, hdocs⟩ := docStart_spec (content.pieces '\n') 0
    (Prologue.firstCode (content.pieces '\n')) line
  rw [← hfirst] at hle hdocs
  refine ⟨h, by rwa [declarationHead?, headLine_eq hline hread hfirst], hname, hkind, ?_⟩
  -- Lines above the declaration look like comments, also where they end the item before.
  have habove : ∀ above ∈ ((content.pieces '\n').take line).drop item.range.first,
      headView.read above = none := by
    intro above habove
    obtain ⟨i, hi, rfl⟩ := List.mem_iff_getElem.1 habove
    rw [List.length_drop, List.length_take] at hi
    have hdoc := hdocs (item.range.first + i) (by omega) (by omega)
    rw [lineAt_eq (by omega)] at hdoc
    rw [List.getElem_drop, List.getElem_take]
    exact parse?_of_isDocLine hdoc
  have hhere : headView.read (lineAt (content.pieces '\n') line) = some h := hparse
  have hnone : topHead? (((content.pieces '\n').take line).drop item.range.first) = none :=
    topHead?_eq_none_iff.2 fun above hmem h hread => by simp [habove above hmem] at hread
  rw [within_eq hle hlast hline, topHead?_append hnone, topHead?_cons, hhere]
  exact if_pos htop

/-- An item is resolved to a text whose first declaration is that of the item. -/
theorem excerptOf_of_mem (hitem : item ∈ heuristic content) :
    ∃ excerpt h, Selection.excerptOf (LinedText.splitLines content) item.range = .ok excerpt ∧
      excerpt.range = item.range ∧ declarationHead? content item = some h ∧
      h.name = item.name ∧ h.kind = item.kind ∧ topHead? (excerpt.text.pieces '\n') = some h := by
  obtain ⟨h, hhead, hname, hkind, hwithin⟩ := topHead?_within hitem
  have hlines : item.range.within (LinedText.splitLines content) =
      (item.range.within (content.pieces '\n')).map Text.dropReturn := by
    rw [LineSpan.within, LinedText.splitLines, ← List.map_take, ← List.map_drop, LineSpan.within]
  have hne : item.range.within (LinedText.splitLines content) ≠ [] := by
    intro hnil
    rw [List.map_eq_nil_iff.1 (hlines.symm.trans hnil)] at hwithin
    cases hwithin
  have hfirst : topHead? ((Text.join ['\n'] (item.range.within
      (LinedText.splitLines content))).pieces '\n') = some h := by
    rw [Move.pieces_within hne, hlines, topHead?, headView.of_map_dropReturn]
    exact hwithin
  have hinside : item.range.last < (LinedText.splitLines content).length ∧
      item.range.first ≤ item.range.last + 1 := by
    have hordered := (wellFormed_heuristic content).ordered item (inside_of_mem hitem)
    have hbounded := (wellFormed_heuristic content).bounded item (inside_of_mem hitem)
    rw [LinedText.splitLines, List.length_map]
    omega
  refine ⟨⟨item.range, _⟩, h, ?_, rfl, hhead, hname, hkind, hfirst⟩
  rw [Selection.excerptOf, if_pos hinside]
  exact if_neg (mt List.isEmpty_iff.1 (trim_ne_nil_of_topHead? hfirst))

/-- A cursor or a name that is resolved to an item at the top level selects code that is named by
that item, and is exported exactly if the line of its declaration says so. -/
theorem declared_resolve {selection : Selection}
    (hitem : selection.item? (heuristic content) = some item) (htop : item ∈ heuristic content)
    (hname : isIdentifier item.name)
    (hsound : ∀ h, declarationHead? content item = some h → h.isSound) :
    ∃ excerpt h, selection.resolve content heuristic = .ok excerpt ∧
      excerpt.range = item.range ∧ declarationHead? content item = some h ∧
      (MovedCode.ofText excerpt.text).declared = some (item.kind, ⟨item.name, hname⟩) ∧
      (MovedCode.ofText excerpt.text).wasExported = (h.isExported && !h.isDefault) := by
  obtain ⟨excerpt, h, hexcerpt, hrange, hhead, hsame, hkind, hfirst⟩ := excerptOf_of_mem htop
  refine ⟨excerpt, h, ?_, hrange, hhead, ?_, ?_⟩
  · rw [Selection.resolve_of_item? hitem, hexcerpt]
  · have hdeclared := declared_ofText hfirst (hsound h hhead) (by rwa [hsame])
    simpa only [hsame, hkind] using hdeclared
  · rw [wasExported_ofText, hfirst, Option.any_some]

/-- The brace of the first function and the comment move along with the second one. -/
theorem declared_resolve_shared :
    ∃ excerpt, (Selection.symbol "g".toList).resolve sharedLine heuristic = .ok excerpt ∧
      excerpt.range = ⟨1, 3⟩ ∧
      (MovedCode.ofText excerpt.text).declared = some (.functionDecl, ⟨"g".toList, by decide⟩) ∧
      (MovedCode.ofText excerpt.text).wasExported = true := by
  obtain ⟨f, g, houtline, hf, -, hname, hkind, hrange⟩ := heuristic_sharedLine
  have hitem : (Selection.symbol "g".toList).item? (heuristic sharedLine) = some g := by
    have hfound : named? g.name ([f] ++ g :: []) = some g :=
      named?_append_cons (by simp [hf, hname])
    rwa [hname, List.singleton_append, ← houtline] at hfound
  have hhead : declarationHead? sharedLine g =
      some { indent := [], marker := some exportMarker, isDefault := false, kind := .functionDecl,
             name := "g".toList } := by
    rw [declarationHead?, headLine, hrange]
    decide +kernel
  obtain ⟨excerpt, h, hresolve, hlines, hread, hdeclared, hexported⟩ := declared_resolve hitem
    (by simp [houtline]) (by rw [hname]; decide) (by simp [hhead, Head.isSound, Head.isExported])
  obtain rfl := Option.some.inj (hhead.symm.trans hread)
  refine ⟨excerpt, hresolve, hlines.trans hrange, ?_, hexported⟩
  rw [hdeclared]
  simp only [hkind, hname]

end Outline

end Transplant
