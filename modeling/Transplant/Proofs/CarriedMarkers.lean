import Transplant.Proofs.DeclarationLines

/-!
# Markers of several names

Exporting the declarations of several names edits the text once for each name, and each edit looks
at a text that the edits before have changed.  What comes out does not show this.  A line gains a
marker exactly if it holds the first declaration of one of the names and this declaration has none;
every other line stays as it is.  So the order of the names does not matter, nor does it matter how
often a name is listed.
-/

namespace Transplant

/-- Whether the line at an index holds the first declaration of a name, without a marker. -/
def lacksMarker (t name : Text) (index : Nat) : Bool :=
  (declarationOf? t name).any fun d => d.line = index && !d.exported

/-- The line at an index after a marker was put on where one is lacking. -/
def remarkedLine (lacking : Bool) (line : Text) : Text :=
  if lacking then exportMarker ++ line else line

theorem map_remarkedLine_false (line : Option Text) : line.map (remarkedLine false) = line := by
  cases line <;> rfl

variable {t name other : Text} {index : Nat}

theorem lacksMarker_iff : lacksMarker t name index ↔
    ∃ d, declarationOf? t name = some d ∧ d.line = index ∧ d.exported = false := by
  simp [lacksMarker, Option.any_eq_true]

/-- A line holds the first declaration of one name only. -/
theorem eq_of_lacksMarker (hname : lacksMarker t name index) (hother : lacksMarker t other index) :
    name = other := by
  obtain ⟨d, hfind, hline, -⟩ := lacksMarker_iff.1 hname
  obtain ⟨e, hfind', hline', -⟩ := lacksMarker_iff.1 hother
  have hsame : d = e := declaration_ext (List.mem_of_find?_eq_some hfind)
    (List.mem_of_find?_eq_some hfind') (hline.trans hline'.symm)
  have hdname : d.name = name := by simpa using List.find?_some hfind
  have hename : e.name = other := by simpa using List.find?_some hfind'
  rw [← hdname, ← hename, hsame]

/-- Marking a name leaves a marker lacking for the other names only. -/
theorem lacksMarker_markExported (t name other : Text) (index : Nat) :
    lacksMarker (markExported t name) other index =
      (lacksMarker t other index && decide (other ≠ name)) := by
  rw [lacksMarker, declarationOf?_markExported, lacksMarker]
  cases declarationOf? t other with
  | none => rfl
  | some d => by_cases hname : other = name <;> simp [hname]

/-- Marking a name puts a marker on the line that lacks one, and on no other line. -/
theorem getElem?_markExported (t name : Text) (index : Nat) :
    ((markExported t name).pieces '\n')[index]? =
      ((t.pieces '\n')[index]?).map (remarkedLine (lacksMarker t name index)) := by
  obtain ⟨hsame, hexported⟩ | ⟨above, line, below, h, hgain⟩ := markExported_cases t name
  · have hnone : lacksMarker t name index = false := by
      by_contra hlacks
      obtain ⟨d, hfind, -, hunmarked⟩ := lacksMarker_iff.1 (by simpa using hlacks)
      rw [hexported d hfind] at hunmarked
      cases hunmarked
    rw [hsame, hnone]
    exact (map_remarkedLine_false _).symm
  · have hlacks : lacksMarker t name index = decide (above.length = index) := by
      simp [lacksMarker, hgain.found, Head.toDeclaration, Head.isExported, hgain.unmarked]
    rw [hgain.pieces_markExported, hgain.pieces, hlacks]
    obtain hlt | rfl | hgt := Nat.lt_trichotomy index above.length
    · rw [List.getElem?_append_left hlt, List.getElem?_append_left hlt, decide_eq_false (by omega)]
      exact (map_remarkedLine_false _).symm
    · simp [remarkedLine]
    · obtain ⟨rest, rfl⟩ : ∃ rest, index = above.length + (rest + 1) :=
        ⟨index - above.length - 1, by omega⟩
      rw [List.getElem?_append_right (by omega), List.getElem?_append_right (by omega),
        decide_eq_false (by omega), Nat.add_sub_cancel_left]
      exact (map_remarkedLine_false _).symm

/-- Marking several names puts a marker on the lines that lack one for some of the names, and on no
other line. -/
theorem getElem?_markAllExported (t : Text) (names : List Text) (index : Nat) :
    ((markAllExported t names).pieces '\n')[index]? =
      ((t.pieces '\n')[index]?).map (remarkedLine (names.any (lacksMarker t · index))) := by
  induction names generalizing t with
  | nil => exact (map_remarkedLine_false _).symm
  | cons name names ih =>
      rw [markAllExported, List.foldl_cons, ← markAllExported, ih, getElem?_markExported,
        Option.map_map]
      apply congrArg (Option.map · (t.pieces '\n')[index]?)
      funext line
      rw [List.any_cons, Function.comp_apply]
      by_cases hlacks : lacksMarker t name index
      · -- The line has its marker now, and declares none of the other names first.
        have hdone : names.any (lacksMarker (markExported t name) · index) = false := by
          rw [List.any_eq_false]
          intro other _ hother
          rw [lacksMarker_markExported, Bool.and_eq_true, decide_eq_true_eq] at hother
          exact hother.2 (eq_of_lacksMarker hother.1 hlacks)
        rw [hdone, hlacks]
        rfl
      · have hothers : ∀ other, lacksMarker (markExported t name) other index =
            lacksMarker t other index := by
          intro other
          rw [lacksMarker_markExported]
          by_cases hsame : other = name
          · subst hsame
            simp [hlacks]
          · simp [hsame]
        simp [hlacks, hothers, remarkedLine]

/-- Exporting the declarations of several names depends on the set of the names only.  For each name
that is declared, its first declaration keeps its line, kind and name and is exported; where it had
no marker, its line gains one.  Every line that is not the first declaration of one of the names, or
whose declaration had its marker, is unchanged. -/
theorem markAllExported_sameNames (source : Text) (names others : List Text)
    (hsame : ∀ name, name ∈ names ↔ name ∈ others) :
    markAllExported source names = markAllExported source others ∧
    (∀ name ∈ names, ∀ d, declarationOf? source name = some d →
      declarationOf? (markAllExported source names) name = some { d with exported := true } ∧
      (d.exported = false → ((markAllExported source names).pieces '\n')[d.line]? =
        ((source.pieces '\n')[d.line]?).map (exportMarker ++ ·))) ∧
    ∀ index, (∀ name ∈ names, ∀ d, declarationOf? source name = some d → d.line = index →
        d.exported) →
      ((markAllExported source names).pieces '\n')[index]? = (source.pieces '\n')[index]? := by
  refine ⟨?_, ?_, ?_⟩
  · have hlines : (markAllExported source names).pieces '\n' =
        (markAllExported source others).pieces '\n' := by
      apply List.ext_getElem?
      intro index
      have hlacking : names.any (lacksMarker source · index) =
          others.any (lacksMarker source · index) := by
        rw [Bool.eq_iff_iff, List.any_eq_true, List.any_eq_true]
        simp only [hsame]
      rw [getElem?_markAllExported, getElem?_markAllExported, hlacking]
    have hjoined := congrArg (Text.join ['\n']) hlines
    rwa [Text.join_pieces, Text.join_pieces] at hjoined
  · intro name hname d hfind
    constructor
    · rw [declarationOf?_markAllExported, hfind, Option.map_some, if_pos hname]
    · intro hunmarked
      have hlacks : names.any (lacksMarker source · d.line) = true :=
        List.any_eq_true.2 ⟨name, hname, lacksMarker_iff.2 ⟨d, hfind, rfl, hunmarked⟩⟩
      rw [getElem?_markAllExported, hlacks]
      rfl
  · intro index hindex
    have hnone : names.any (lacksMarker source · index) = false := by
      rw [List.any_eq_false]
      intro name hname hlacks
      obtain ⟨d, hfind, hline, hunmarked⟩ := lacksMarker_iff.1 hlacks
      rw [hindex name hname d hfind hline] at hunmarked
      cases hunmarked
    rw [getElem?_markAllExported, hnone]
    exact map_remarkedLine_false _

def threeNames : Text :=
  "let a;\nlet b;\nlet b;\nexport let c;\n".toList

/-- The names in another order, one of them twice, with a name that is not declared.  The second
declaration of `b` stays as it is. -/
theorem markAllExported_sameNames_repeated :
    markAllExported threeNames [['a'], ['b'], ['c'], ['x']] =
        markAllExported threeNames [['x'], ['b'], ['c'], ['a'], ['b']] ∧
      declarationOf? (markAllExported threeNames [['a'], ['b'], ['c'], ['x']]) ['b'] =
        some { kind := .variableDecl, name := ['b'], exported := true, line := 1 } ∧
      ((markAllExported threeNames [['a'], ['b'], ['c'], ['x']]).pieces '\n')[2]? =
        (threeNames.pieces '\n')[2]? := by
  obtain ⟨hsame, hfirst, hothers⟩ := markAllExported_sameNames threeNames
    [['a'], ['b'], ['c'], ['x']] [['x'], ['b'], ['c'], ['a'], ['b']] (by intro name; simp; tauto)
  have hfind : declarationOf? threeNames ['b'] =
      some { kind := .variableDecl, name := ['b'], exported := false, line := 1 } := by
    decide
  exact ⟨hsame, (hfirst ['b'] (by decide) _ hfind).1, hothers 2 (by decide)⟩

end Transplant
