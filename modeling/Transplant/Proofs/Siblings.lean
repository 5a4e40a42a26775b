import Transplant.Proofs.OutlineTree

/-!
# Neighbours in an outline

A declaration takes along the comments and decorators above it.  What looks like one is taken out of
the declaration before it as well: the search upwards stops at the start of the window that is
collected, and not at the end of the item before.  So two neighbours share lines exactly where every
line from the last line of the first one down to the declaration of the second looks like a comment
or a decorator, such as the last lines of a template literal or a closing brace behind a comment.
-/

namespace Transplant.Outline

open OutlineItem

variable {lines : List Text} {codeStart floor index stop : Nat} {parent : Option Kind}

/-- The line of the declaration of an item: the first one below its comments and decorators. -/
def headLine (lines : List Text) (item : OutlineItem) : Nat :=
  item.range.first + (lines.drop item.range.first).findIdx fun line => !isDocLine line

theorem headLine_eq {item : OutlineItem} {line : Nat} {found : Text × Kind}
    (hline : line < lines.length) (hread : matchLine? parent (lineAt lines line) = some found)
    (hfirst : item.range.first = docStart lines floor codeStart line) :
    headLine lines item = line := by
  obtain ⟨hle, hdocs⟩ := docStart_spec lines floor codeStart line
  rw [← hfirst] at hle hdocs
  apply add_findIdx_drop hle hline
  · rw [not_isDocLine_of_matchLine? hread]
    rfl
  · intro i hi hbelow
    rw [hdocs i hi hbelow]
    rfl

/-- An item starts where the comments above its declaration do. -/
theorem first_eq_docStart {item : OutlineItem} (hstop : stop ≤ lines.length)
    (hitem : item ∈ collect lines codeStart parent floor index stop) :
    index ≤ headLine lines item ∧
      item.range.first = docStart lines floor codeStart (headLine lines item) := by
  obtain ⟨line, hindex, hline, hread, hrange, -⟩ := mem_collect hitem
  have hfirst : item.range.first = docStart lines floor codeStart line :=
    congrArg LineSpan.first hrange
  rw [headLine_eq (hline.trans_le hstop) hread hfirst]
  exact ⟨hindex, hfirst⟩

/-- A declaration starts below the last line of every item before it. -/
theorem pairwise_headLine (hstop : stop ≤ lines.length) :
    (collect lines codeStart parent floor index stop).Pairwise
      fun before after => before.range.last < headLine lines after := by
  fun_induction collect lines codeStart parent floor index stop with
  | case1 parent floor index stop hlt hnone ih => exact ih hstop
  | case2 parent floor index stop hlt name kind hread last children _ ih =>
      refine List.pairwise_cons.2 ⟨fun item hitem => ?_, ih hstop⟩
      exact Nat.lt_of_succ_le (first_eq_docStart hstop hitem).1
  | case3 => exact List.Pairwise.nil

/-- Neighbours of an outline, at any depth, share no line exactly if the comments above the second
declaration do not go up to the last line of the item before it. -/
theorem last_lt_first_iff {content : Text} {front rest : List OutlineItem}
    {before after : OutlineItem}
    (hlevel : Level (heuristic content) (front ++ before :: after :: rest)) :
    before.range.last < after.range.first ↔
      ¬ CommentsReach (content.pieces '\n') (Prologue.firstCode (content.pieces '\n'))
        before.range.last (headLine (content.pieces '\n') after) := by
  have hwindowed := windowed_of_level hlevel
  generalize content.pieces '\n' = lines at hwindowed ⊢
  generalize Prologue.firstCode lines = codeStart at hwindowed ⊢
  obtain ⟨parent, floor, stop, hstop, hwindow, hcollect⟩ := hwindowed
  have hbefore : before ∈ collect lines codeStart parent floor floor stop := by
    rw [← hcollect]
    simp
  have hafter : after ∈ collect lines codeStart parent floor floor stop := by
    rw [← hcollect]
    simp
  have hline : before.range.last < headLine lines after := by
    have hpairwise : (front ++ before :: after :: rest).Pairwise
        fun before after => before.range.last < headLine lines after := by
      rw [hcollect]
      exact pairwise_headLine hstop
    have hbehind := (List.pairwise_append.1 hpairwise).2.1
    exact (List.pairwise_cons.1 hbehind).1 after List.mem_cons_self
  have hfloor : floor ≤ before.range.last := by
    obtain ⟨line, -, hfloor, hfirst, hlast, -⟩ := mem_collect_range (Nat.le_refl floor) hbefore
    omega
  rw [← docStart_le_iff hwindow hfloor hline, ← (first_eq_docStart hstop hafter).2, Nat.not_le]

/-- A function whose closing brace stands behind a comment, and a function below it. -/
def braceBehindComment : Text :=
  "function f() \x7b\n/* end */ \x7d\nfunction g() \x7b\x7d\n".toList

/-- The second function takes the closing brace of the first along. -/
theorem last_lt_first_iff_brace :
    ∃ f g, heuristic braceBehindComment = [f, g] ∧ f.range = ⟨0, 1⟩ ∧ g.range = ⟨1, 2⟩ ∧
      CommentsReach (braceBehindComment.pieces '\n')
        (Prologue.firstCode (braceBehindComment.pieces '\n')) 1 2 := by
  have hranges : (heuristic braceBehindComment).map (·.range) = [⟨0, 1⟩, ⟨1, 2⟩] := by
    decide +kernel
  obtain ⟨f, others, hitems, hf, hothers⟩ := List.map_eq_cons_iff.1 hranges
  obtain ⟨g, none, rfl, hg, hnone⟩ := List.map_eq_cons_iff.1 hothers
  obtain rfl := List.map_eq_nil_iff.1 hnone
  have hlevel : Level (heuristic braceBehindComment) ([] ++ f :: g :: []) := by
    rw [hitems]
    exact .top
  have hhead : headLine (braceBehindComment.pieces '\n') g = 2 := by
    rw [headLine, hg]
    decide
  have hshared : ¬ f.range.last < g.range.first := by
    rw [hf, hg]
    decide
  refine ⟨f, g, hitems, hf, hg, ?_⟩
  have hreach := not_not.1 (mt (last_lt_first_iff hlevel).2 hshared)
  rwa [hf, hhead] at hreach

end Transplant.Outline
