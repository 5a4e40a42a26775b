import Transplant.Proofs.LeftBehind
import Transplant.Proofs.PublicNames

/-!
# The first declaration of a text

The text that moves is split by its first declaration line in the first column.  Three readers look
for that line: the one that takes its marker off, the one that reads its kind and name, and the one
that finds a declaration again to put the marker back.  The first and the second agree on the line,
but the second passes over names that cannot be linked.  The third goes by the name alone, so it
finds the line exactly if the name is that of the line.
-/

namespace Transplant

/-- The head of the first declaration line in the first column. -/
def topHead? (lines : List Text) : Option Head :=
  (headView.of lines).find? (·.isTopLevel)

theorem topHead?_cons (line : Text) (rest : List Text) :
    topHead? (line :: rest) =
      match headView.read line with
      | some h => if h.isTopLevel then some h else topHead? rest
      | none => topHead? rest := by
  rw [topHead?, headView.of_cons, List.find?_append, ← topHead?]
  cases headView.read line with
  | none => rfl
  | some h => cases htop : h.isTopLevel <;> simp [htop]

theorem topHead?_eq_none_iff {lines : List Text} :
    topHead? lines = none ↔ ∀ line ∈ lines, ∀ h ∈ headView.read line, h.isTopLevel = false := by
  have hheads : topHead? lines = none ↔ ∀ h ∈ headView.of lines, h.isTopLevel = false := by
    simp [topHead?]
  rw [hheads]
  constructor
  · intro hall line hline h hread
    exact hall h (List.mem_filterMap.2 ⟨line, hline, hread⟩)
  · intro hall h hmem
    obtain ⟨line, hline, hread⟩ := List.mem_filterMap.1 hmem
    exact hall line hline h hread

/-- Lines that declare nothing in the first column are passed over. -/
theorem topHead?_append {above : List Text} (habove : topHead? above = none) (below : List Text) :
    topHead? (above ++ below) = topHead? below := by
  rw [topHead?] at habove
  rw [topHead?, headView.of_append, List.find?_append, habove, Option.none_or, topHead?]

theorem topHead?_lines (t : Text) : topHead? t.lines = topHead? (t.pieces '\n') := by
  rw [topHead?, headView.of_lines, topHead?]

/-- A text of blanks declares nothing. -/
theorem trim_ne_nil_of_topHead? {t : Text} {h : Head} (hfirst : topHead? (t.pieces '\n') = some h) :
    t.trim ≠ [] := by
  intro hblank
  rw [Text.trim_eq_nil_iff] at hblank
  obtain ⟨line, hline, hread⟩ := List.mem_filterMap.1 (List.mem_of_find?_eq_some hfirst)
  have hnone : headView.read line = none := by
    apply headView.read_blank
    rw [Text.trim_eq_nil_iff]
    exact fun c hc => hblank c (Text.mem_of_mem_pieces hline hc)
  rw [hnone] at hread
  cases hread

/-! ## The line of the first declaration -/

/-- The lines of a text around its first declaration line in the first column. -/
structure FirstLine (t : Text) (h : Head) (above : List Text) (line : Text) (below : List Text) :
    Prop where
  pieces : t.pieces '\n' = above ++ line :: below
  nothing_above : topHead? above = none
  read : Head.parse? line = some h
  topLevel : h.isTopLevel

theorem exists_firstLine {t : Text} {h : Head} (hfirst : topHead? (t.pieces '\n') = some h) :
    ∃ above line below, FirstLine t h above line below := by
  obtain ⟨htop, heads, rest, hheads, hnone⟩ := List.find?_eq_some_iff_append.1 hfirst
  obtain ⟨upper, lower, hpieces, rfl, hlower⟩ := List.filterMap_eq_append_iff.1 hheads
  obtain ⟨silent, line, below, rfl, hsilent, hread, -⟩ := List.filterMap_eq_cons_iff.1 hlower
  refine ⟨upper ++ silent, line, below, by rw [hpieces, List.append_assoc], ?_, hread, htop⟩
  have hempty : headView.of silent = [] := List.filterMap_eq_nil_iff.2 hsilent
  rw [topHead?, headView.of_append, hempty, List.append_nil, List.find?_eq_none]
  exact fun g hg => by simpa using hnone g hg

theorem FirstLine.topHead? {t line : Text} {h : Head} {above below : List Text}
    (hfirst : FirstLine t h above line below) : topHead? (t.pieces '\n') = some h := by
  have hread : headView.read line = some h := hfirst.read
  rw [hfirst.pieces, topHead?_append hfirst.nothing_above, topHead?_cons, hread]
  exact if_pos hfirst.topLevel

/-! ## Taking the marker off -/

/-- Lines that declare nothing in the first column keep what they hold. -/
theorem unmarkFirst?_append {above : List Text} (habove : topHead? above = none)
    (below : List Text) :
    unmarkFirst? (above ++ below) = (unmarkFirst? below).map (above ++ ·) := by
  rw [topHead?_eq_none_iff] at habove
  induction above with
  | nil => simp
  | cons line above ih =>
      rw [List.forall_mem_cons] at habove
      have hlater : unmarkFirst? (line :: (above ++ below)) =
          (unmarkFirst? (above ++ below)).map (line :: ·) := by
        rw [unmarkFirst?_cons]
        cases hread : headView.read line with
        | none => rfl
        | some h => simp [habove.1 h hread]
      rw [List.cons_append, hlater, ih habove.2, Option.map_map]
      rfl

namespace FirstLine

variable {t line marker : Text} {h : Head} {above below : List Text}

/-- The marker is taken off the line of the first declaration. -/
theorem unmarkExported_eq (hfirst : FirstLine t h above line below) (hdefault : h.isDefault = false)
    (hmarker : h.marker = some marker) :
    unmarkExported t = (Text.join ['\n'] (above ++ h.bodyOf line :: below), true) := by
  have hread : headView.read line = some h := hfirst.read
  have hline : unmarkFirst? (line :: below) = some (h.bodyOf line :: below) := by
    simp [unmarkFirst?_cons, hread, hfirst.topLevel, hdefault, hmarker, Head.bodyOf]
  rw [unmarkExported, hfirst.pieces, unmarkFirst?_append hfirst.nothing_above, hline]
  rfl

/-- Without its marker the line is still that of the first declaration. -/
theorem without_marker (hfirst : FirstLine t h above line below) (hdefault : h.isDefault = false) :
    FirstLine (Text.join ['\n'] (above ++ h.bodyOf line :: below)) { h with marker := none } above
      (h.bodyOf line) below where
  pieces := by
    have hclean : ∀ other ∈ above ++ line :: below, '\n' ∉ other := by
      rw [← hfirst.pieces]
      exact fun _ => Text.not_mem_of_mem_pieces
    rw [List.forall_mem_append, List.forall_mem_cons] at hclean
    apply Text.pieces_join (by simp)
    exact List.forall_mem_append.2 ⟨hclean.1, List.forall_mem_cons.2
      ⟨fun hmem => hclean.2.1 (List.mem_of_mem_drop hmem), hclean.2.2⟩⟩
  nothing_above := hfirst.nothing_above
  read := Head.parse?_bodyOf hfirst.read (by simp [Head.isListed, hfirst.topLevel, hdefault])
  topLevel := hfirst.topLevel

end FirstLine

/-- A marker is taken off exactly if the first declaration has one and is no default export. -/
theorem isSome_unmarkFirst? (lines : List Text) :
    (unmarkFirst? lines).isSome = (topHead? lines).any fun h => h.isExported && !h.isDefault := by
  induction lines with
  | nil => rfl
  | cons line rest ih =>
      rw [unmarkFirst?_cons, topHead?_cons]
      cases headView.read line with
      | none => simpa using ih
      | some h =>
          cases htop : h.isTopLevel with
          | false => simpa [htop] using ih
          | true => cases hdefault : h.isDefault <;> simp [htop, hdefault, Head.isExported]

theorem wasExported_ofText (t : Text) :
    (MovedCode.ofText t).wasExported =
      (topHead? (t.pieces '\n')).any fun h => h.isExported && !h.isDefault := by
  rw [← isSome_unmarkFirst?, MovedCode.ofText, unmarkExported]
  cases unmarkFirst? (t.pieces '\n') with
  | none => rfl
  | some lines => rfl

/-- The first declaration of a text that loses its marker. -/
theorem topHead?_ofText {t : Text} {h : Head} (hfirst : topHead? (t.pieces '\n') = some h)
    (hexported : h.isExported) (hdefault : h.isDefault = false) :
    topHead? ((MovedCode.ofText t).text.pieces '\n') = some { h with marker := none } := by
  obtain ⟨above, line, below, hline⟩ := exists_firstLine hfirst
  obtain ⟨marker, hmarker⟩ := Option.isSome_iff_exists.1 hexported
  have htext : (MovedCode.ofText t).text =
      Text.join ['\n'] (above ++ h.bodyOf line :: below) := by
    rw [MovedCode.ofText, hline.unmarkExported_eq hdefault hmarker]
  rw [htext]
  exact (hline.without_marker hdefault).topHead?

/-! ## Reading the name -/

theorem firstDeclaredIn?_of_topHead? {lines : List Text} {h : Head}
    (hfirst : topHead? lines = some h) (hsound : h.isSound) (hname : isIdentifier h.name) :
    firstDeclaredIn? lines = some (h.kind, ⟨h.name, hname⟩) := by
  induction lines with
  | nil => cases hfirst
  | cons line rest ih =>
      rw [firstDeclaredIn?_cons]
      rw [topHead?_cons] at hfirst
      cases hread : headView.read line with
      | none => exact ih (by simpa [hread] using hfirst)
      | some g =>
          cases htop : g.isTopLevel with
          | false => simpa [htop] using ih (by simpa [hread, htop] using hfirst)
          | true =>
              obtain rfl : g = h := by simpa [hread, htop] using hfirst
              simp [hsound, htop, Identifier.ofText?, hname]

/-- Moved code is named by its first declaration, if the name can be linked. -/
theorem declared_ofText {t : Text} {h : Head} (hfirst : topHead? (t.pieces '\n') = some h)
    (hsound : h.isSound) (hname : isIdentifier h.name) :
    (MovedCode.ofText t).declared = some (h.kind, ⟨h.name, hname⟩) := by
  have hsame : (MovedCode.ofText t).declared = firstDeclaredIn? t.lines :=
    firstDeclaredIn?_remarked (forall₂_lines (forall₂_unmarkExported t))
  rw [hsame]
  exact firstDeclaredIn?_of_topHead? (by rw [topHead?_lines, hfirst]) hsound hname

/-! ## Putting the marker back -/

/-- Of lines that gain markers, the first declaration gains one only for its name. -/
theorem topHead?_exported {names olds news : List Text}
    (hlines : List.Forall₂ (Exported names) olds news) {h : Head}
    (hfirst : topHead? olds = some h) :
    topHead? news = some h ∨
      h.name ∈ names ∧ topHead? news = some { h with marker := some exportMarker } := by
  induction hlines with
  | nil => cases hfirst
  | @cons old new olds news hchange _ ih =>
      rw [topHead?_cons] at hfirst ⊢
      cases hchange with
      | same =>
          cases hold : headView.read old with
          | none => exact ih (by simpa [hold] using hfirst)
          | some g =>
              cases htop : g.isTopLevel with
              | false => simpa [htop] using ih (by simpa [hold, htop] using hfirst)
              | true => exact .inl (by simpa [hold, htop] using hfirst)
      | marked g hread hlisted hname hmarker =>
          have htop : g.isTopLevel := Head.isTopLevel_of_isListed hlisted
          have htop' : Head.isTopLevel { g with marker := some exportMarker } := htop
          have hold : headView.read old = some g := hread
          have hnew : headView.read (exportMarker ++ old) =
              some { g with marker := some exportMarker } :=
            Exported.parse?_marked hread hlisted hmarker
          obtain rfl : g = h := by simpa [hold, htop] using hfirst
          exact .inr ⟨hname, by simp [hnew, htop']⟩

theorem topHead?_markExported_of_ne {t name : Text} {h : Head}
    (hfirst : topHead? (t.pieces '\n') = some h) (hne : h.name ≠ name) :
    topHead? ((markExported t name).pieces '\n') = some h := by
  obtain hsame | ⟨hname, -⟩ := topHead?_exported (forall₂_markExported t name) hfirst
  · exact hsame
  · exact absurd (List.mem_singleton.1 hname) hne

/-- Lines that declare nothing in the first column have no listed declarations. -/
theorem declarationsFrom_of_topHead? {lines : List Text} (hnone : topHead? lines = none)
    (index : Nat) : declarationsFrom index lines = [] := by
  rw [topHead?_eq_none_iff] at hnone
  induction lines generalizing index with
  | nil => rfl
  | cons line rest ih =>
      rw [List.forall_mem_cons] at hnone
      have hline : listedView.read line = none := by
        rw [listedView_read]
        cases hread : headView.read line with
        | none => rfl
        | some h =>
            rw [Option.bind_some, if_neg (by simp [Head.isListed, hnone.1 h hread])]
      rw [declarationsFrom_cons, hline, ih hnone.2]
      rfl

namespace FirstLine

variable {t line : Text} {h : Head} {above below : List Text}

/-- The first declaration is the first one of its name, so the name brings the marker to its
line. -/
theorem gainsMarker (hfirst : FirstLine t h above line below) (hdefault : h.isDefault = false)
    (hmarker : h.marker = none) : GainsMarker t h.name above line below h := by
  have hlisted : h.isListed := by simp [Head.isListed, hfirst.topLevel, hdefault]
  refine ⟨?_, hfirst.pieces, hfirst.read, hlisted, rfl, hmarker⟩
  rw [declarationOf?, declarations_of_pieces hfirst.pieces hfirst.read hlisted,
    declarationsFrom_of_topHead? hfirst.nothing_above, List.nil_append]
  exact List.find?_cons_of_pos (by simp [Head.toDeclaration])

/-- With a marker the line is still that of the first declaration. -/
theorem with_marker (hfirst : FirstLine t h above line below) (hdefault : h.isDefault = false)
    (hmarker : h.marker = none) :
    FirstLine (markExported t h.name) { h with marker := some exportMarker } above
      (exportMarker ++ line) below where
  pieces := (hfirst.gainsMarker hdefault hmarker).pieces_markExported
  nothing_above := hfirst.nothing_above
  read := (hfirst.gainsMarker hdefault hmarker).parse?_marked
  topLevel := hfirst.topLevel

end FirstLine

/-- A marker for the name of the first declaration is put on its line. -/
theorem topHead?_markExported {t : Text} {h : Head} (hfirst : topHead? (t.pieces '\n') = some h)
    (hdefault : h.isDefault = false) (hmarker : h.marker = none) :
    topHead? ((markExported t h.name).pieces '\n') =
      some { h with marker := some exportMarker } := by
  obtain ⟨above, line, below, hline⟩ := exists_firstLine hfirst
  exact (hline.with_marker hdefault hmarker).topHead?

end Transplant
