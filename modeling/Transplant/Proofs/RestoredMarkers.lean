import Transplant.Proofs.FirstDeclaration

/-!
# Markers that are taken off and put back

Taking the marker off the first declaration and putting it back undo each other.  Both edits come to
the same line: one by looking for the first declaration line in the first column, the other by the
name of that declaration, and nothing above the line declares the name.  What is lost is the
spelling of the blanks behind `export`; a marker that is put back has one space.
-/

namespace Transplant

/-! ## The marker and the rest of its line -/

/-- The word `export` with all the blanks that stand between it and the rest of the line. -/
def IsMarker (marker rest : Text) : Prop :=
  ∃ blanks : Text, blanks ≠ [] ∧ (∀ c ∈ blanks, Text.isBlank c) ∧
    marker = "export".toList ++ blanks ∧ rest.trimStart = rest

/-- What stands in front of the rest of a line is its marker. -/
theorem Head.marker?_of_append {line front : Text} (hindent : unindented line = line)
    (hline : line = front ++ unmarked line) (hfront : front ≠ []) : marker? line = some front := by
  have hlength := congrArg List.length hline
  have hpositive := List.length_pos_iff.2 hfront
  rw [List.length_append] at hlength
  have htake : line.take front.length = front := by
    conv_lhs => rw [hline, List.take_left]
  have hdiff : line.length - (unmarked line).length = front.length := by omega
  rw [marker?, hindent, if_pos (by omega), hdiff, htake]

/-- A declaration line with a marker is the marker and the rest. -/
theorem Head.exists_marker {line marker : Text} {h : Head} (hread : parse? line = some h)
    (htop : h.isTopLevel) (hmarker : h.marker = some marker) :
    ∃ rest, line = marker ++ rest ∧ IsMarker marker rest := by
  obtain ⟨c, tail, hstart, hc⟩ := (ledBy_of_parse? hread).1.exists_cons (by decide)
  have hrest : (unmarked line).trimStart = unmarked line := by
    rw [hstart, Text.trimStart_cons (isBlank_of_isIdentStart hc)]
  rw [parse?_eq] at hread
  obtain ⟨declared, -, rfl⟩ := Option.map_eq_some_iff.1 hread
  have hindent : unindented line = line :=
    unindented_of_takeWhile (by simpa [isTopLevel] using htop)
  have hmarked : marker? line = some marker := hmarker
  obtain hskip | ⟨blank, behind, hblank, hline, hskip⟩ := skip_eq_or "export" (unindented line)
  · -- Without the word there is no marker.
    rw [marker?, unmarked, hskip, if_neg (Nat.lt_irrefl _)] at hmarked
    cases hmarked
  · let blanks := blank :: behind.takeWhile Text.isBlank
    have hsplit : line = ("export".toList ++ blanks) ++ unmarked line := by
      have hbehind : behind.takeWhile Text.isBlank ++ unmarked line = behind := by
        rw [unmarked, hskip]
        exact List.takeWhile_append_dropWhile
      rw [List.append_assoc, List.cons_append, hbehind, ← hline, hindent]
    have hblanks : ∀ d ∈ blanks, Text.isBlank d :=
      List.forall_mem_cons.2 ⟨hblank, fun d hd => List.mem_takeWhile_imp hd⟩
    rw [marker?_of_append hindent hsplit (by simp), Option.some.injEq] at hmarked
    exact ⟨unmarked line, hmarked ▸ hsplit, blanks, by simp [blanks], hblanks, hmarked.symm, hrest⟩

/-! ## Taking the marker off and putting it back -/

theorem exists_of_unmarkExported {t s : Text} (hunmark : unmarkExported t = (s, true)) :
    ∃ h marker, topHead? t.lines = some h ∧ h.isDefault = false ∧ h.marker = some marker := by
  have hsome : (unmarkFirst? (t.pieces '\n')).isSome := by
    rw [unmarkExported] at hunmark
    split at hunmark
    · rename_i lines hlines
      rw [hlines]
      rfl
    · cases hunmark
  rw [isSome_unmarkFirst?, ← topHead?_lines, Option.any_eq_true] at hsome
  obtain ⟨h, hfirst, hexported⟩ := hsome
  rw [Bool.and_eq_true, Head.isExported, Option.isSome_iff_exists] at hexported
  obtain ⟨⟨marker, hmarker⟩, hdefault⟩ := hexported
  exact ⟨h, marker, hfirst, by simpa using hdefault, hmarker⟩

/-- A marker that was taken off the first declaration of a text is put back by the name of that
declaration: the text is as before, but for the blanks of the marker.  And a marker that is put on a
first declaration without one is taken off again.  A line with a bare `default` counts as a
declaration here, as it does when a marker is taken off. -/
theorem unmarkExported_markExported_inverse (t : Text) :
    (∀ s, unmarkExported t = (s, true) →
      ∃ h above marker rest below, topHead? t.lines = some h ∧
        FirstLine t h above (marker ++ rest) below ∧ IsMarker marker rest ∧
        s = Text.join ['\n'] (above ++ rest :: below) ∧
        markExported s h.name = Text.join ['\n'] (above ++ (exportMarker ++ rest) :: below) ∧
        (marker = exportMarker → markExported s h.name = t)) ∧
    ∀ h, topHead? t.lines = some h → h.isDefault = false → h.isExported = false →
      unmarkExported (markExported t h.name) = (t, true) := by
  constructor
  · intro s hunmark
    obtain ⟨h, marker, hfirst, hdefault, hmarker⟩ := exists_of_unmarkExported hunmark
    obtain ⟨above, line, below, hline⟩ := exists_firstLine (topHead?_lines t ▸ hfirst)
    obtain ⟨rest, rfl, hrest⟩ := Head.exists_marker hline.read hline.topLevel hmarker
    have hbody : h.bodyOf (marker ++ rest) = rest := by
      rw [Head.bodyOf, hmarker, Option.getD_some, List.drop_left]
    have hs : s = Text.join ['\n'] (above ++ rest :: below) := by
      rw [hline.unmarkExported_eq hdefault hmarker, hbody] at hunmark
      exact (congrArg Prod.fst hunmark).symm
    have hbare := hline.without_marker hdefault
    rw [hbody, ← hs] at hbare
    have hmarked : markExported s h.name =
        Text.join ['\n'] (above ++ (exportMarker ++ rest) :: below) := by
      rw [← (hbare.with_marker hdefault rfl).pieces, Text.join_pieces]
    refine ⟨h, above, marker, rest, below, hfirst, hline, hrest, hs, hmarked, ?_⟩
    rintro rfl
    rw [hmarked, ← hline.pieces, Text.join_pieces]
  · intro h hfirst hdefault hexported
    obtain ⟨above, line, below, hline⟩ := exists_firstLine (topHead?_lines t ▸ hfirst)
    have hmarked := hline.with_marker hdefault (by simpa [Head.isExported] using hexported)
    rw [hmarked.unmarkExported_eq hdefault rfl, Head.bodyOf, Option.getD_some, List.drop_left,
      ← hline.pieces, Text.join_pieces]

/-- A marker with a tab comes back with a space, and is then taken off again. -/
theorem unmarkExported_markExported_tab :
    (∃ h above marker rest below,
      topHead? (Text.lines "/* A */\nexport\tconst a = 1;\n".toList) = some h ∧
        FirstLine "/* A */\nexport\tconst a = 1;\n".toList h above (marker ++ rest) below ∧
        IsMarker marker rest ∧
        "/* A */\nconst a = 1;\n".toList = Text.join ['\n'] (above ++ rest :: below) ∧
        markExported "/* A */\nconst a = 1;\n".toList h.name =
          Text.join ['\n'] (above ++ (exportMarker ++ rest) :: below) ∧
        (marker = exportMarker → markExported "/* A */\nconst a = 1;\n".toList h.name =
          "/* A */\nexport\tconst a = 1;\n".toList)) ∧
      unmarkExported (markExported "/* A */\nconst a = 1;\n".toList "a".toList) =
        ("/* A */\nconst a = 1;\n".toList, true) :=
  ⟨(unmarkExported_markExported_inverse _).1 _ (by decide),
    (unmarkExported_markExported_inverse _).2
      { indent := [], marker := none, isDefault := false, kind := .variableDecl, name := ['a'] }
      (by decide) rfl rfl⟩

end Transplant
