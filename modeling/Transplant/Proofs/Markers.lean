import Transplant.Proofs.Heads

/-!
# Changes of export markers

The edits of export markers work on the pieces of a text: they change the marker of some declaration
lines and leave every other line, and every line break, as it is.  `Remarked` and `Exported` say
what such an edit may do to one line; an edit of a text relates the lines before and after one by
one.
-/

namespace Transplant

/-- The rest of a declaration line after its export marker. -/
def Head.bodyOf (h : Head) (line : Text) : Text :=
  line.drop (h.marker.getD []).length

/-- A line before and after its export marker was removed, added or written anew.  Only a
declaration line in the first column that is no default export may change. -/
inductive Remarked (old : Text) : Text → Prop
  | same : Remarked old old
  | without (h : Head) (hread : Head.parse? old = some h) (hlisted : h.isListed) :
      Remarked old (h.bodyOf old)
  | marked (h : Head) (hread : Head.parse? old = some h) (hlisted : h.isListed) :
      Remarked old (exportMarker ++ h.bodyOf old)

/-- A line before and after the declaration of one of the names gained an export marker. -/
inductive Exported (names : List Text) (old : Text) : Text → Prop
  | same : Exported names old old
  | marked (h : Head) (hread : Head.parse? old = some h) (hlisted : h.isListed)
      (hname : h.name ∈ names) (hmarker : h.marker = none) :
      Exported names old (exportMarker ++ old)

namespace Head

variable {line : Text} {h : Head}

theorem isTopLevel_of_isListed (hlisted : h.isListed) : h.isTopLevel := by
  simp only [isListed, Bool.and_eq_true] at hlisted
  exact hlisted.1

theorem bodyOf_of_marker (hmarker : h.marker = none) : h.bodyOf line = line := by
  rw [bodyOf, hmarker]
  rfl

/-- The head of a line whose marker was taken off. -/
theorem parse?_bodyOf (hread : parse? line = some h) (hlisted : h.isListed) :
    parse? (h.bodyOf line) = some { h with marker := none } := by
  have htop := isTopLevel_of_isListed hlisted
  have hindent : h.indent = [] := by simpa [isTopLevel] using htop
  rw [bodyOf, ← unmarked_eq_drop hread htop, parse?_unmarked hread, hindent]

/-- The head of a line whose marker was put on. -/
theorem parse?_marker_bodyOf (hread : parse? line = some h) (hlisted : h.isListed) :
    parse? (exportMarker ++ h.bodyOf line) = some { h with marker := some exportMarker } := by
  have htop := isTopLevel_of_isListed hlisted
  have hindent : h.indent = [] := by simpa [isTopLevel] using htop
  rw [bodyOf, ← unmarked_eq_drop hread htop, parse?_marked hread, hindent]

end Head

namespace Remarked

variable {old new : Text}

/-- The head of a line changes in its marker at most. -/
theorem parse? (hchange : Remarked old new) :
    new = old ∨ ∃ (h : Head) (marker : Option Text), Head.parse? old = some h ∧ h.isListed ∧
      Head.parse? new = some { h with marker } := by
  cases hchange with
  | same => exact .inl rfl
  | without h hread hlisted =>
      exact .inr ⟨h, none, hread, hlisted, Head.parse?_bodyOf hread hlisted⟩
  | marked h hread hlisted =>
      exact .inr ⟨h, some exportMarker, hread, hlisted, Head.parse?_marker_bodyOf hread hlisted⟩

theorem not_mem {c : Char} (hchange : Remarked old new) (hold : c ∉ old)
    (hmarker : c ∉ exportMarker) : c ∉ new := by
  have hbody : ∀ h : Head, c ∉ h.bodyOf old := fun h hc => hold (List.mem_of_mem_drop hc)
  cases hchange with
  | same => exact hold
  | without h hread hlisted => exact hbody h
  | marked h hread hlisted =>
      rw [List.mem_append]
      exact not_or.2 ⟨hmarker, hbody h⟩

theorem getLast? (hchange : Remarked old new) (hold : old.getLast? ≠ some '\r') :
    new.getLast? ≠ some '\r' := by
  have hbody : ∀ h : Head, (h.bodyOf old).getLast? ≠ some '\r' := by
    intro h
    have hsplit : old.take (h.marker.getD []).length ++ h.bodyOf old = old :=
      List.take_append_drop ..
    rw [← hsplit] at hold
    exact Text.getLast?_ne_of_append hold
  cases hchange with
  | same => exact hold
  | without h hread hlisted => exact hbody h
  | marked h hread hlisted => exact Text.getLast?_append_ne (by decide) (hbody h)

/-- A view that shows nothing of declaration lines does not see a change of markers. -/
theorem read_eq {β : Type*} {v : LineView β} (hchange : Remarked old new)
    (hv : ∀ line h, Head.parse? line = some h → v.read line = none) :
    v.read new = v.read old := by
  obtain rfl | ⟨h, marker, hold, -, hnew⟩ := hchange.parse?
  · rfl
  · rw [hv old h hold, hv new _ hnew]

end Remarked

/-- Kind and name of the listed declarations of a text. -/
def signatureView : LineView (Kind × Text) :=
  listedView.bind fun h => some (h.kind, h.name)

theorem signatureView_of (lines : List Text) :
    signatureView.of lines = (listedView.of lines).map fun h => (h.kind, h.name) := by
  rw [LineView.of, LineView.of, List.map_filterMap]
  apply congrArg (List.filterMap · lines)
  funext line
  exact Option.map_eq_bind.symm

theorem declaresTop_iff_signature {t name : Text} :
    declaresTop t name ↔ ∃ signature ∈ signatureView.of t.lines, signature.2 = name := by
  rw [declaresTop_iff, signatureView_of]
  simp

theorem Remarked.read_signature {old new : Text} (hchange : Remarked old new) :
    signatureView.read new = signatureView.read old := by
  have hread : ∀ line, signatureView.read line = ((Head.parse? line).bind fun h =>
      if h.isListed then some h else none).bind fun h => some (h.kind, h.name) := fun _ => rfl
  obtain rfl | ⟨h, marker, hold, hlisted, hnew⟩ := hchange.parse?
  · rfl
  · have hlisted' : Head.isListed { h with marker } := hlisted
    rw [hread, hread, hold, hnew, Option.bind_some, Option.bind_some, if_pos hlisted,
      if_pos hlisted']
    rfl

namespace Exported

variable {names : List Text} {old mid new : Text}

theorem remarked (hchange : Exported names old new) : Remarked old new := by
  cases hchange with
  | same => exact .same
  | marked h hread hlisted hname hmarker =>
      have hmarked := Remarked.marked h hread hlisted
      rwa [Head.bodyOf_of_marker hmarker] at hmarked

theorem mono {more : List Text} (hchange : Exported names old new)
    (hsub : ∀ name ∈ names, name ∈ more) : Exported more old new := by
  cases hchange with
  | same => exact .same
  | marked h hread hlisted hname hmarker =>
      exact .marked h hread hlisted (hsub _ hname) hmarker

/-- The head of a line that gained a marker. -/
theorem parse?_marked {h : Head} (hread : Head.parse? old = some h) (hlisted : h.isListed)
    (hmarker : h.marker = none) :
    Head.parse? (exportMarker ++ old) = some { h with marker := some exportMarker } := by
  have hmarked := Head.parse?_marker_bodyOf hread hlisted
  rwa [Head.bodyOf_of_marker hmarker] at hmarked

/-- A line gains its marker once. -/
theorem trans (hfirst : Exported names old mid) (hsecond : Exported names mid new) :
    Exported names old new := by
  cases hfirst with
  | same => exact hsecond
  | marked h hread hlisted hname hmarker =>
      cases hsecond with
      | same => exact .marked h hread hlisted hname hmarker
      | marked h' hread' hlisted' hname' hmarker' =>
          rw [parse?_marked hread hlisted hmarker] at hread'
          cases hread'
          cases hmarker'

end Exported

/-- A marker that is put on after another was taken off replaces it. -/
theorem Remarked.trans_exported {names : List Text} {old mid new : Text}
    (hfirst : Remarked old mid) (hsecond : Exported names mid new) : Remarked old new := by
  cases hsecond with
  | same => exact hfirst
  | marked h hread hlisted hname hmarker =>
      cases hfirst with
      | same => exact (Exported.marked h hread hlisted hname hmarker).remarked
      | without h' hread' hlisted' => exact .marked h' hread' hlisted'
      | marked h' hread' hlisted' =>
          rw [Head.parse?_marker_bodyOf hread' hlisted'] at hread
          cases hread
          cases hmarker

/-! ## Edits of texts -/

/-- Two line-by-line changes make one. -/
theorem forall₂_trans {first second whole : Text → Text → Prop}
    (htrans : ∀ old mid new, first old mid → second mid new → whole old new)
    {olds mids news : List Text} (hfirst : List.Forall₂ first olds mids)
    (hsecond : List.Forall₂ second mids news) : List.Forall₂ whole olds news := by
  induction hfirst generalizing news with
  | nil =>
      cases hsecond
      exact .nil
  | cons hhead htail ih =>
      cases hsecond with
      | cons hhead' htail' => exact .cons (htrans _ _ _ hhead hhead') (ih htail')

theorem unmarkFirst?_cons (line : Text) (rest : List Text) :
    unmarkFirst? (line :: rest) =
      match headView.read line with
      | some h =>
        if h.isTopLevel then
          if h.isDefault then none
          else h.marker.map fun marker => line.drop marker.length :: rest
        else (unmarkFirst? rest).map (line :: ·)
      | none => (unmarkFirst? rest).map (line :: ·) := by
  rfl

theorem forall₂_remarked_refl (lines : List Text) : List.Forall₂ Remarked lines lines :=
  List.forall₂_same.2 fun _ _ => .same

theorem forall₂_of_unmarkFirst? {lines news : List Text}
    (hunmark : unmarkFirst? lines = some news) : List.Forall₂ Remarked lines news := by
  induction lines generalizing news with
  | nil => cases hunmark
  | cons line rest ih =>
      have hlater : (unmarkFirst? rest).map (line :: ·) = some news →
          List.Forall₂ Remarked (line :: rest) news := by
        intro hsome
        obtain ⟨tail, htail, rfl⟩ := Option.map_eq_some_iff.1 hsome
        exact .cons .same (ih htail)
      rw [unmarkFirst?_cons] at hunmark
      cases hread : headView.read line with
      | none =>
          rw [hread] at hunmark
          exact hlater hunmark
      | some h =>
          simp only [hread] at hunmark
          split at hunmark
          · rename_i htop
            split at hunmark
            · cases hunmark
            · rename_i hdefault
              have hlisted : h.isListed := by simp [Head.isListed, htop, hdefault]
              obtain ⟨marker, hmarker, rfl⟩ := Option.map_eq_some_iff.1 hunmark
              have hwithout := Remarked.without h hread hlisted
              rw [Head.bodyOf, hmarker] at hwithout
              exact .cons hwithout (forall₂_remarked_refl rest)
          · exact hlater hunmark

/-- A text joined from changed lines has these lines. -/
theorem pieces_join_remarked {t : Text} {news : List Text}
    (hlines : List.Forall₂ Remarked (t.pieces '\n') news) :
    (Text.join ['\n'] news).pieces '\n' = news := by
  apply Text.pieces_join
  · rintro rfl
    exact Text.pieces_ne_nil '\n' t (List.forall₂_nil_right_iff.1 hlines)
  · have hclean : ∀ piece ∈ t.pieces '\n', '\n' ∉ piece := fun _ => Text.not_mem_of_mem_pieces
    generalize t.pieces '\n' = olds at hlines hclean
    induction hlines with
    | nil => simp
    | cons hchange _ ih =>
        rw [List.forall_mem_cons] at hclean ⊢
        exact ⟨hchange.not_mem hclean.1 (by decide), ih hclean.2⟩

/-- Taking a marker off changes single lines. -/
theorem forall₂_unmarkExported (t : Text) :
    List.Forall₂ Remarked (t.pieces '\n') ((unmarkExported t).1.pieces '\n') := by
  rw [unmarkExported]
  split
  · rename_i lines hunmark
    have hlines := forall₂_of_unmarkFirst? hunmark
    rwa [pieces_join_remarked hlines]
  · exact forall₂_remarked_refl _

/-- The line of a declaration that is put to use by its name. -/
theorem exists_line_of_declarationOf? {t name : Text} {d : Declaration}
    (hfind : declarationOf? t name = some d) :
    ∃ (above : List Text) (line : Text) (below : List Text) (h : Head),
      t.pieces '\n' = above ++ line :: below ∧ Head.parse? line = some h ∧ h.isListed ∧
        h.name = name ∧ d = h.toDeclaration above.length := by
  have hname : d.name = name := by simpa using List.find?_some hfind
  obtain ⟨line, h, hline, hread, hlisted, hd⟩ :=
    exists_line_of_declaration (List.mem_of_find?_eq_some hfind)
  obtain ⟨piece, hpiece, hreturn⟩ := Text.exists_piece_of_lines hline
  obtain ⟨above, below, hpieces, hlength⟩ := exists_append_of_getElem? hpiece
  refine ⟨above, piece, below, h, hpieces, ?_, hlisted, ?_, ?_⟩
  · obtain rfl | rfl := hreturn
    · exact hread
    · rw [Head.parse?_append_return, hread]
  · rw [← hname, hd]
    rfl
  · rw [hlength]
    exact hd

/-- The lines of a text in which the declaration of a name gains a marker: the first declaration of
the name stands on `line` and has none. -/
structure GainsMarker (t name : Text) (above : List Text) (line : Text) (below : List Text)
    (h : Head) : Prop where
  found : declarationOf? t name = some (h.toDeclaration above.length)
  pieces : t.pieces '\n' = above ++ line :: below
  read : Head.parse? line = some h
  listed : h.isListed
  name : h.name = name
  unmarked : h.marker = none

namespace GainsMarker

variable {t name line : Text} {above below : List Text} {h : Head}

/-- The head of the line that gained a marker. -/
theorem parse?_marked (hgain : GainsMarker t name above line below h) :
    Head.parse? (exportMarker ++ line) = some { h with marker := some exportMarker } :=
  Exported.parse?_marked hgain.read hgain.listed hgain.unmarked

/-- The other lines stay as they are. -/
theorem pieces_markExported (hgain : GainsMarker t name above line below h) :
    (markExported t name).pieces '\n' = above ++ (exportMarker ++ line) :: below := by
  have hunmarked : h.isExported = false := by simp [Head.isExported, hgain.unmarked]
  have hmodify : (t.pieces '\n').modify above.length (exportMarker ++ ·) =
      above ++ (exportMarker ++ line) :: below := by
    rw [hgain.pieces, List.modify_eq_take_drop, List.take_left, List.drop_left,
      List.modifyHead_cons]
  have hclean : ∀ other ∈ above ++ line :: below, '\n' ∉ other := by
    rw [← hgain.pieces]
    exact fun _ => Text.not_mem_of_mem_pieces
  simp only [markExported, hgain.found, Head.toDeclaration, hunmarked, hmodify,
    Bool.false_eq_true, if_false]
  apply Text.pieces_join (by simp)
  intro other hother
  simp only [List.mem_append, List.mem_cons] at hother
  obtain habove | rfl | hbelow := hother
  · exact hclean other (by simp [habove])
  · rw [List.mem_append]
    exact not_or.2 ⟨by decide, hclean line (by simp)⟩
  · exact hclean other (by simp [hbelow])

end GainsMarker

/-- Marking a name leaves the text as it is, where the name is not declared or its first declaration
has a marker, or puts a marker on the line of that declaration. -/
theorem markExported_cases (t name : Text) :
    (markExported t name = t ∧ ∀ d ∈ declarationOf? t name, d.exported) ∨
      ∃ above line below h, GainsMarker t name above line below h := by
  cases hfind : declarationOf? t name with
  | none => exact .inl ⟨by rw [markExported, hfind], by simp⟩
  | some d =>
      cases hexported : d.exported with
      | true => exact .inl ⟨by simp [markExported, hfind, hexported], by simp [hexported]⟩
      | false =>
          obtain ⟨above, line, below, h, hpieces, hread, hlisted, hname, rfl⟩ :=
            exists_line_of_declarationOf? hfind
          have hmarker : h.marker = none := by
            simpa [Head.toDeclaration, Head.isExported] using hexported
          exact .inr ⟨above, line, below, h, hfind, hpieces, hread, hlisted, hname, hmarker⟩

/-- Putting a marker on changes single lines. -/
theorem forall₂_markExported (t name : Text) :
    List.Forall₂ (Exported [name]) (t.pieces '\n') ((markExported t name).pieces '\n') := by
  have hrefl : ∀ lines : List Text, List.Forall₂ (Exported [name]) lines lines :=
    fun lines => List.forall₂_same.2 fun _ _ => .same
  obtain ⟨hsame, -⟩ | ⟨above, line, below, h, hgain⟩ := markExported_cases t name
  · rw [hsame]
    exact hrefl _
  · rw [hgain.pieces_markExported, hgain.pieces]
    apply List.rel_append (hrefl above)
    exact .cons (.marked h hgain.read hgain.listed (by simp [hgain.name]) hgain.unmarked)
      (hrefl below)

/-- Exporting the declarations of several names changes single lines, each once. -/
theorem forall₂_markAllExported (t : Text) (names : List Text) :
    List.Forall₂ (Exported names) (t.pieces '\n') ((markAllExported t names).pieces '\n') := by
  induction names generalizing t with
  | nil => exact List.forall₂_same.2 fun _ _ => .same
  | cons name names ih =>
      rw [markAllExported, List.foldl_cons, ← markAllExported]
      have htrans : ∀ old mid new, Exported [name] old mid → Exported names mid new →
          Exported (name :: names) old new := by
        intro old mid new hfirst hrest
        exact (hfirst.mono (by simp)).trans (hrest.mono (by simp +contextual))
      exact forall₂_trans htrans (forall₂_markExported t name) (ih (markExported t name))

/-- Once its declaration is marked, a name is declared with a marker. -/
theorem exists_exported_of_markExported {t name : Text} (hdeclared : declaresTop t name) :
    ∃ h ∈ listedView.of (markExported t name).lines, h.name = name ∧ h.isExported := by
  rw [listedView.of_lines]
  obtain ⟨hsame, hexported⟩ | ⟨above, line, below, h, hgain⟩ := markExported_cases t name
  · obtain ⟨d, hfind⟩ := Option.isSome_iff_exists.1 hdeclared
    obtain ⟨above, line, below, h, hpieces, hread, hlisted, hname, rfl⟩ :=
      exists_line_of_declarationOf? hfind
    rw [hsame, hpieces]
    exact ⟨h, List.mem_filterMap.2 ⟨line, by simp, listedView_of_head hread hlisted⟩, hname,
      hexported _ hfind⟩
  · rw [hgain.pieces_markExported]
    exact ⟨_, List.mem_filterMap.2 ⟨_, by simp, listedView_of_head hgain.parse?_marked
      hgain.listed⟩, hgain.name, rfl⟩

end Transplant
