import Transplant.Move
import Transplant.Proofs.OutlineTree

/-!
# Pointing at a declaration

A declaration can be pointed at by its name, by a cursor on one of its lines or by the numbers of
its first and its last line.  All three give the same lines, and with them the same move.
-/

namespace Transplant

namespace OutlineItem

variable {items front rest : List OutlineItem} {item : OutlineItem} {size line : Nat}

theorem enclosing?_of_contains (hline : item.range.contains line) :
    enclosing? line item = some item := by
  obtain ⟨name, kind, range, children⟩ := item
  rw [enclosing?]
  exact if_pos hline

/-- An item that does not contain a line is passed over in the search for the line. -/
theorem WellFormed.enclosing?_eq_none (hitems : WellFormed size items) (hitem : item ∈ items)
    (hline : item.range.contains line = false) : enclosing? line item = none := by
  rw [Option.eq_none_iff_forall_ne_some]
  intro found hfound
  have hcontains := (inside_of_enclosing? item hfound).2
  rw [hitems.eq_of_enclosing? (inside_of_mem hitem) hfound, hline] at hcontains
  cases hcontains

theorem WellFormed.enclosingIn?_append_cons (hitems : WellFormed size items)
    (hfront : front ⊆ items) (hbefore : ∀ other ∈ front, other.range.contains line = false)
    (hline : item.range.contains line) :
    enclosingIn? line (front ++ item :: rest) = some item := by
  induction front with
  | nil => rw [List.nil_append, enclosingIn?, enclosing?_of_contains hline, Option.some_or]
  | cons first front ih =>
      rw [List.cons_subset] at hfront
      rw [List.forall_mem_cons] at hbefore
      rw [List.cons_append, enclosingIn?, hitems.enclosing?_eq_none hfront.1 hbefore.1,
        Option.none_or]
      exact ih hfront.2 hbefore.2

theorem named?_append_cons (hbefore : ∀ other ∈ front, other.name ≠ item.name) :
    named? item.name (front ++ item :: rest) = some item := by
  have hnone : front.find? (·.name = item.name) = none := by
    rw [List.find?_eq_none]
    simpa using hbefore
  rw [named?, List.find?_append, hnone, Option.none_or, List.find?_cons_of_pos (by simp),
    Option.some_or]

end OutlineItem

/-! ## Three ways of pointing -/

namespace Outline

/-- Two functions that share a line: the closing brace of the first one stands behind a comment.
Above the second one stands a declaration that is commented out. -/
def sharedLine : Text :=
  ("function f() \x7b\n/* end */ \x7d\n// export const old = 1;\n" ++
    "export function g() \x7b\x7d\n").toList

theorem heuristic_sharedLine :
    ∃ f g, heuristic sharedLine = [f, g] ∧ f.name = "f".toList ∧ f.range = ⟨0, 1⟩ ∧
      g.name = "g".toList ∧ g.kind = .functionDecl ∧ g.range = ⟨1, 3⟩ := by
  have hitems : (heuristic sharedLine).map (fun item => (item.name, item.kind, item.range)) =
      [("f".toList, .functionDecl, ⟨0, 1⟩), ("g".toList, .functionDecl, ⟨1, 3⟩)] := by
    decide +kernel
  obtain ⟨f, others, hfirst, hf, hothers⟩ := List.map_eq_cons_iff.1 hitems
  obtain ⟨g, none, rfl, hg, hnone⟩ := List.map_eq_cons_iff.1 hothers
  obtain rfl := List.map_eq_nil_iff.1 hnone
  simp only [Prod.mk.injEq] at hf hg
  exact ⟨f, g, hfirst, hf.1, hf.2.2, hg⟩

end Outline

namespace Selection

open OutlineItem Outline

def item? (items : List OutlineItem) : Selection → Option OutlineItem
  | range _ _ => none
  | cursor line => enclosingIn? (line - 1) items
  | symbol name => named? name items

variable {selection : Selection} {source : Text} {outline : Outliner} {item : OutlineItem}

/-- Pointing at an item selects its lines. -/
theorem resolve_of_item? (hitem : selection.item? (outline source) = some item) :
    selection.resolve source outline = excerptOf (LinedText.splitLines source) item.range := by
  cases selection with
  | range first last => cases hitem
  | cursor line =>
      have hfound : enclosingIn? (line - 1) (outline source) = some item := hitem
      simp [resolve, lineSpan, hfound, LinedText.ofText, bind, Except.bind]
  | symbol name =>
      have hfound : OutlineItem.named? name (outline source) = some item := hitem
      simp [resolve, lineSpan, hfound, LinedText.ofText, bind, Except.bind]

/-- The numbers of the first and the last line of an item select its lines. -/
theorem resolve_range_of_mem (houtline : WellFormed (source.pieces '\n').length (outline source))
    (hitem : item ∈ outline source) :
    (Selection.range (item.range.first + 1) (item.range.last + 1)).resolve source outline =
      excerptOf (LinedText.splitLines source) item.range := by
  have hordered := houtline.ordered item (inside_of_mem hitem)
  have hbounded := houtline.bounded item (inside_of_mem hitem)
  have hvalid : ¬ (item.range.first + 1 = 0 ∨ item.range.last + 1 < item.range.first + 1 ∨
      (LinedText.ofText source).size < item.range.last + 1) := by
    rw [LinedText.size, LinedText.ofText, LinedText.splitLines, List.length_map]
    omega
  rw [resolve]
  simp only [lineSpan, if_neg hvalid, bind, Except.bind]
  rfl

end Selection

namespace Move

open OutlineItem Outline

variable {move : Move} {policies : MovePolicies} {outline : Outliner} {confirm : Text → Bool}

/-- A move sees of its selection only the lines that it resolves to. -/
theorem perform_congr {one other : Selection}
    (hsame : one.resolve move.source outline = other.resolve move.source outline) :
    perform { move with selection := one } policies outline confirm =
      perform { move with selection := other } policies outline confirm := by
  have hselect : select { move with selection := one } outline =
      select { move with selection := other } outline := by
    simp only [select, hsame]
  simp only [perform, hselect]
  rfl

/-- The first declaration of its name is moved in the same way by its name, by its line numbers and
by a cursor on any of its lines that no declaration before it takes. -/
theorem perform_pointed {front rest : List OutlineItem} {item : OutlineItem}
    (houtline : heuristic move.source = front ++ item :: rest)
    (hname : ∀ other ∈ front, other.name ≠ item.name) (policies : MovePolicies)
    (confirm : Text → Bool) :
    perform { move with selection := .symbol item.name } policies heuristic confirm =
        perform { move with selection := .range (item.range.first + 1) (item.range.last + 1) }
          policies heuristic confirm ∧
      ∀ index, item.range.contains index →
        (∀ other ∈ front, other.range.contains index = false) →
        perform { move with selection := .cursor (index + 1) } policies heuristic confirm =
          perform { move with selection := .range (item.range.first + 1) (item.range.last + 1) }
            policies heuristic confirm := by
  have htree := wellFormed_heuristic move.source
  have hitem : item ∈ heuristic move.source := by
    rw [houtline]
    simp
  have hrange := Selection.resolve_range_of_mem htree hitem
  constructor
  · apply perform_congr
    rw [hrange]
    apply Selection.resolve_of_item?
    rw [houtline]
    exact named?_append_cons hname
  · intro index hindex hbefore
    apply perform_congr
    rw [hrange]
    apply Selection.resolve_of_item?
    have hfront : front ⊆ heuristic move.source := by
      rw [houtline]
      exact List.subset_append_left _ _
    rw [houtline]
    exact htree.enclosingIn?_append_cons hfront hbefore hindex

/-- A move out of a text of two functions. -/
def pointedMove (selection : Selection) : Move :=
  { sourcePath := "a.ts".toList
    targetPath := "b.ts".toList
    source := sharedLine
    target := []
    selection }

/-- The second function moves in the same way by its name, by a cursor on its last line and by its
line numbers. -/
theorem perform_pointed_shared :
    (perform (pointedMove (.symbol "g".toList)) { } heuristic fun _ => false) =
        (perform (pointedMove (.range 2 4)) { } heuristic fun _ => false) ∧
      (perform (pointedMove (.cursor 4)) { } heuristic fun _ => false) =
        (perform (pointedMove (.range 2 4)) { } heuristic fun _ => false) ∧
      (perform (pointedMove (.range 2 4)) { } heuristic fun _ => false).toOption.map (·.target) =
        some "/* end */ \x7d\n// export const old = 1;\nexport function g() \x7b\x7d\n".toList := by
  obtain ⟨f, g, houtline, hf, hlines, hname, -, hrange⟩ := heuristic_sharedLine
  have hfront : heuristic (pointedMove (.range 2 4)).source = [f] ++ g :: [] := houtline
  have hpointed := perform_pointed hfront (by simp [hf, hname]) { } fun _ => false
  rw [hrange, hname] at hpointed
  refine ⟨hpointed.1, hpointed.2 3 (by decide) ?_, by decide +kernel⟩
  rw [List.forall_mem_singleton, hlines]
  decide

end Move

end Transplant
