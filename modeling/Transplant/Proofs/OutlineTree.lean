import Transplant.Proofs.OutlineBraces
import Transplant.Selection

/-!
# The tree of an outline

Every item of the heuristic outline, at any depth, covers lines of the text, and its children lie
strictly between its first and its last line.  The children of a declaration are collected from a
window of lines, from the line below the declaration up to its last line, so the facts about an
item are read off the window that it was collected from.  A cursor inside of an inner item is
therefore inside of the outer one as well, and is resolved to an item at the top.
-/

namespace Transplant

namespace OutlineItem

/-! ## Items at any depth -/

/-- The lists of siblings of an outline: its own items, and the children of each item of such a
list. -/
inductive Level (items : List OutlineItem) : List OutlineItem → Prop
  | top : Level items items
  | inner {siblings : List OutlineItem} {item : OutlineItem} (hlevel : Level items siblings)
      (hitem : item ∈ siblings) : Level items item.children

def Inside (items : List OutlineItem) (item : OutlineItem) : Prop :=
  ∃ siblings, Level items siblings ∧ item ∈ siblings

variable {items more : List OutlineItem} {item found : OutlineItem}

theorem inside_of_mem (hitem : item ∈ items) : Inside items item :=
  ⟨items, .top, hitem⟩

theorem Inside.mono (hsubset : items ⊆ more) (hfound : Inside items found) :
    Inside more found := by
  obtain ⟨siblings, hlevel, hmem⟩ := hfound
  induction hlevel generalizing found with
  | top => exact inside_of_mem (hsubset hmem)
  | inner _ hparent ih =>
      obtain ⟨level, hlevel, hparent⟩ := ih hparent
      exact ⟨_, .inner hlevel hparent, hmem⟩

/-- The levels below an item are levels of the outline. -/
theorem Level.of_children {siblings : List OutlineItem} (hitem : Inside items item)
    (hlevel : Level item.children siblings) : Level items siblings := by
  induction hlevel with
  | top =>
      obtain ⟨level, houter, hitem⟩ := hitem
      exact .inner houter hitem
  | inner _ hparent ih => exact .inner ih hparent

theorem Inside.of_children (hitem : Inside items item) (hfound : Inside item.children found) :
    Inside items found := by
  obtain ⟨siblings, hlevel, hmem⟩ := hfound
  exact ⟨siblings, hlevel.of_children hitem, hmem⟩

theorem inside_singleton (item : OutlineItem) : Inside [item] item :=
  inside_of_mem (List.mem_singleton_self item)

mutual

/-- What a search below an item finds is an item of the outline around the line. -/
theorem inside_of_enclosing? {line : Nat} : (item : OutlineItem) → {found : OutlineItem} →
    enclosing? line item = some found → Inside [item] found ∧ found.range.contains line
  | mk name kind range children, found, hfound => by
      rw [enclosing?] at hfound
      split at hfound
      · rename_i hcontains
        cases hfound
        exact ⟨inside_singleton _, hcontains⟩
      · obtain ⟨hinside, hcontains⟩ := inside_of_enclosingIn? children hfound
        exact ⟨.of_children (inside_singleton _) hinside, hcontains⟩

theorem inside_of_enclosingIn? {line : Nat} : (items : List OutlineItem) →
    {found : OutlineItem} → enclosingIn? line items = some found →
      Inside items found ∧ found.range.contains line
  | [], found, hfound => by cases hfound
  | item :: rest, found, hfound => by
      rw [enclosingIn?] at hfound
      obtain hfirst | ⟨-, hlater⟩ := Option.or_eq_some_iff.1 hfound
      · obtain ⟨hinside, hcontains⟩ := inside_of_enclosing? item hfirst
        exact ⟨hinside.mono (by simp), hcontains⟩
      · obtain ⟨hinside, hcontains⟩ := inside_of_enclosingIn? rest hlater
        exact ⟨hinside.mono (by simp), hcontains⟩

end

mutual

theorem inside_of_below? {name : Text} : (item : OutlineItem) → {found : OutlineItem} →
    below? name item = some found → Inside [item] found
  | mk _ kind range children, found, hfound => by
      rw [below?] at hfound
      apply Inside.of_children (inside_singleton _)
      obtain hchild | ⟨-, hlater⟩ := Option.or_eq_some_iff.1 hfound
      · exact inside_of_mem (List.mem_of_find?_eq_some hchild)
      · exact inside_of_belowAny? children hlater

theorem inside_of_belowAny? {name : Text} : (items : List OutlineItem) →
    {found : OutlineItem} → belowAny? name items = some found → Inside items found
  | [], found, hfound => by cases hfound
  | item :: rest, found, hfound => by
      rw [belowAny?] at hfound
      obtain hfirst | ⟨-, hlater⟩ := Option.or_eq_some_iff.1 hfound
      · exact (inside_of_below? item hfirst).mono (by simp)
      · exact (inside_of_belowAny? rest hlater).mono (by simp)

end

theorem inside_of_named? {name : Text} (hfound : named? name items = some found) :
    Inside items found := by
  obtain hchild | ⟨-, hlater⟩ := Option.or_eq_some_iff.1 hfound
  · exact inside_of_mem (List.mem_of_find?_eq_some hchild)
  · exact inside_of_belowAny? items hlater

/-! ## Well-formed outlines -/

/-- An outline of a text with `size` lines whose items are ranges of lines, each strictly around its
children, and whose siblings end one after another. -/
structure WellFormed (size : Nat) (items : List OutlineItem) : Prop where
  ordered : ∀ item, Inside items item → item.range.first ≤ item.range.last
  bounded : ∀ item, Inside items item → item.range.last < size
  nested : ∀ item, Inside items item → ∀ child ∈ item.children,
    item.range.first < child.range.first ∧ child.range.last < item.range.last
  increasing : ∀ siblings, Level items siblings →
    siblings.Pairwise fun before after => before.range.last < after.range.last

namespace WellFormed

variable {size line : Nat}

/-- What lies below an item lies in its range. -/
theorem range_of_inside (hitems : WellFormed size items) (hitem : Inside items item)
    (hfound : Inside item.children found) :
    item.range.first < found.range.first ∧ found.range.last < item.range.last := by
  obtain ⟨siblings, hlevel, hmem⟩ := hfound
  induction hlevel generalizing found with
  | top => exact hitems.nested item hitem found hmem
  | @inner siblings parent hlevel hparent ih =>
      have houter := ih hparent
      have hinner := hitems.nested parent (hitem.of_children ⟨siblings, hlevel, hparent⟩) found hmem
      omega

/-- An item around a line is found before anything below it. -/
theorem eq_of_enclosing? (hitems : WellFormed size items) (hitem : Inside items item)
    (hfound : enclosing? line item = some found) : found = item := by
  obtain ⟨name, kind, range, children⟩ := item
  rw [enclosing?] at hfound
  split at hfound
  · cases hfound
    rfl
  · rename_i houtside
    obtain ⟨hinside, hcontains⟩ := inside_of_enclosingIn? children hfound
    have hnested : range.first < found.range.first ∧ found.range.last < range.last :=
      hitems.range_of_inside hitem hinside
    have hrange : range.contains line := by
      simp only [LineSpan.contains, Bool.and_eq_true, decide_eq_true_eq] at hcontains ⊢
      omega
    exact absurd hrange houtside

/-- A search for the item around a line ends at the top. -/
theorem mem_of_enclosingIn? {rest : List OutlineItem} (hitems : WellFormed size items)
    (hrest : rest ⊆ items) (hfound : enclosingIn? line rest = some found) : found ∈ rest := by
  induction rest with
  | nil => cases hfound
  | cons item rest ih =>
      rw [List.cons_subset] at hrest
      rw [enclosingIn?] at hfound
      obtain hfirst | ⟨-, hlater⟩ := Option.or_eq_some_iff.1 hfound
      · rw [hitems.eq_of_enclosing? (inside_of_mem hrest.1) hfirst]
        exact List.mem_cons_self
      · exact List.mem_cons_of_mem item (ih hrest.2 hlater)

end WellFormed

end OutlineItem

/-! ## Selections by an outline -/

namespace Selection

open OutlineItem

variable {source : Text} {outline : Outliner} {first last size : Nat}

/-- Lines that the text has can be cut out. -/
theorem excerptOf_ne_invalidRange {lines : List Text} {range : LineSpan}
    (hbounded : range.last < lines.length) (hordered : range.first ≤ range.last) :
    excerptOf lines range ≠ .error (.invalidRange first last size) := by
  simp only [excerptOf, if_pos (And.intro hbounded (Nat.le_succ_of_le hordered))]
  split
  · simp
  · simp

/-- A cursor or a name stands for some item of the outline, or for nothing. -/
theorem lineSpan_cases {selection : Selection}
    (hselection : ∀ first last, selection ≠ .range first last) (source : Text) (lines : Nat)
    (outline : Outliner) :
    (∃ item, Inside (outline source) item ∧
        selection.lineSpan source lines outline = .ok item.range) ∨
      (∃ line, selection.lineSpan source lines outline = .error (.noEnclosingSymbol line)) ∨
      ∃ name, selection.lineSpan source lines outline = .error (.symbolNotFound name) := by
  cases selection with
  | range first last => exact absurd rfl (hselection first last)
  | cursor line =>
      cases hfound : enclosingIn? (line - 1) (outline source) with
      | some item =>
          exact .inl ⟨item, (inside_of_enclosingIn? _ hfound).1, by simp [lineSpan, hfound]⟩
      | none => exact .inr (.inl ⟨line, by simp [lineSpan, hfound]⟩)
  | symbol name =>
      cases hfound : named? name (outline source) with
      | some item => exact .inl ⟨item, inside_of_named? hfound, by simp [lineSpan, hfound]⟩
      | none => exact .inr (.inr ⟨name, by simp [lineSpan, hfound]⟩)

/-- A well-formed outline names lines that the source has. -/
theorem resolve_ne_invalidRange {selection : Selection}
    (hselection : ∀ first last, selection ≠ .range first last)
    (houtline : WellFormed (source.pieces '\n').length (outline source)) :
    selection.resolve source outline ≠ .error (.invalidRange first last size) := by
  obtain ⟨item, hitem, hspan⟩ | ⟨line, hspan⟩ | ⟨name, hspan⟩ :=
    lineSpan_cases hselection source (LinedText.ofText source).size outline
  · simp only [resolve, hspan, bind, Except.bind]
    apply excerptOf_ne_invalidRange
    · simpa [LinedText.ofText, LinedText.splitLines] using houtline.bounded item hitem
    · exact houtline.ordered item hitem
  · simp [resolve, hspan, bind, Except.bind]
  · simp [resolve, hspan, bind, Except.bind]

end Selection

namespace Outline

open OutlineItem

/-! ## The windows of the heuristic outline -/

variable {lines : List Text} {codeStart floor index stop : Nat} {parent : Option Kind}

/-- The line of a declaration is neither above the first nor below the last line of its item. -/
theorem mem_collect_range {item : OutlineItem} (hfloor : floor ≤ index)
    (hitem : item ∈ collect lines codeStart parent floor index stop) :
    ∃ line, index ≤ line ∧ floor ≤ item.range.first ∧ item.range.first ≤ line ∧
      line ≤ item.range.last ∧ item.range.last < stop := by
  obtain ⟨line, hindex, hstop, -, hrange, -⟩ := mem_collect hitem
  rw [hrange]
  exact ⟨line, hindex, floor_le_docStart lines codeStart (hfloor.trans hindex),
    (docStart_spec lines floor codeStart line).1, le_lastLine lines _ line stop,
    lastLine_lt lines _ hstop⟩

theorem pairwise_collect (hfloor : floor ≤ index) :
    (collect lines codeStart parent floor index stop).Pairwise
      fun before after => before.range.last < after.range.last := by
  fun_induction collect lines codeStart parent floor index stop with
  | case1 parent floor index stop hstop hnone ih => exact ih (Nat.le_succ_of_le hfloor)
  | case2 parent floor index stop hstop name kind hread last children _ ih =>
      have hlast : index ≤ last := le_lastLine lines (hasBody parent kind) index stop
      have hnext : floor ≤ last + 1 := by omega
      refine List.pairwise_cons.2 ⟨fun item hitem => ?_, ih hnext⟩
      -- Collection goes on below the last line of the item.
      obtain ⟨line, hline, -, -, hend, -⟩ := mem_collect_range hnext hitem
      show last < item.range.last
      omega
  | case3 => exact List.Pairwise.nil

/-- A list of siblings that is collected from a window of the lines.  Above the window stands the
line of a declaration, or nothing. -/
def Windowed (lines : List Text) (codeStart : Nat) (siblings : List OutlineItem) : Prop :=
  ∃ parent floor stop, stop ≤ lines.length ∧
    (floor = 0 ∨ isDocLine (lineAt lines (floor - 1)) = false) ∧
    siblings = collect lines codeStart parent floor floor stop

/-- The children of a windowed item are windowed. -/
theorem Windowed.children {siblings : List OutlineItem} {item : OutlineItem}
    (hsiblings : Windowed lines codeStart siblings) (hitem : item ∈ siblings) :
    Windowed lines codeStart item.children := by
  obtain ⟨parent, floor, stop, hstop, -, rfl⟩ := hsiblings
  obtain ⟨line, -, hline, hread, hrange, hchildren⟩ := mem_collect hitem
  have hlast : item.range.last ≤ lines.length := by
    have hend := lastLine_lt lines (hasBody parent item.kind) hline
    rw [hrange]
    show lastLine lines (hasBody parent item.kind) line stop ≤ lines.length
    omega
  rw [hchildren]
  split
  · exact ⟨_, line + 1, _, hlast, .inr (not_isDocLine_of_matchLine? hread), rfl⟩
  · refine ⟨none, 0, 0, Nat.zero_le _, .inl rfl, ?_⟩
    rw [collect, if_neg (Nat.lt_irrefl 0)]

/-- Every level of the heuristic outline is collected from a window. -/
theorem windowed_of_level {content : Text} {siblings : List OutlineItem}
    (hlevel : Level (heuristic content) siblings) :
    Windowed (content.pieces '\n') (Prologue.firstCode (content.pieces '\n')) siblings := by
  induction hlevel with
  | top => exact ⟨none, 0, (content.pieces '\n').length, Nat.le_refl _, .inl rfl, rfl⟩
  | inner _ hitem ih => exact ih.children hitem

/-- The children of an item lie strictly inside of it. -/
theorem Windowed.nested {siblings : List OutlineItem} {item child : OutlineItem}
    (hsiblings : Windowed lines codeStart siblings) (hitem : item ∈ siblings)
    (hchild : child ∈ item.children) :
    item.range.first < child.range.first ∧ child.range.last < item.range.last := by
  obtain ⟨parent, floor, stop, -, -, rfl⟩ := hsiblings
  obtain ⟨line, -, -, -, hrange, hchildren⟩ := mem_collect hitem
  have hfirst : item.range.first ≤ line := by
    rw [hrange]
    exact (docStart_spec lines floor codeStart line).1
  rw [hchildren] at hchild
  split at hchild
  · obtain ⟨inner, -, hfloor, -, -, hlast⟩ := mem_collect_range (Nat.le_refl _) hchild
    omega
  · cases hchild

/-- The heuristic outline of any text is well-formed. -/
theorem wellFormed_heuristic (content : Text) :
    WellFormed (content.pieces '\n').length (heuristic content) where
  ordered := by
    rintro item ⟨siblings, hlevel, hitem⟩
    obtain ⟨parent, floor, stop, -, -, rfl⟩ := windowed_of_level hlevel
    obtain ⟨line, -, -, hfirst, hlast, -⟩ := mem_collect_range (Nat.le_refl floor) hitem
    exact hfirst.trans hlast
  bounded := by
    rintro item ⟨siblings, hlevel, hitem⟩
    obtain ⟨parent, floor, stop, hstop, -, rfl⟩ := windowed_of_level hlevel
    obtain ⟨line, -, -, -, -, hlast⟩ := mem_collect_range (Nat.le_refl floor) hitem
    exact hlast.trans_le hstop
  nested := by
    rintro item ⟨siblings, hlevel, hitem⟩ child hchild
    exact (windowed_of_level hlevel).nested hitem hchild
  increasing := by
    intro siblings hlevel
    obtain ⟨parent, floor, stop, -, -, rfl⟩ := windowed_of_level hlevel
    exact pairwise_collect (Nat.le_refl floor)

/-- The heuristic outline is a tree of line ranges for every text, whatever its strings, comments
and brackets.  A cursor is resolved to an item at the top, and neither a cursor nor a name to lines
that the text does not have. -/
theorem tree_heuristic (content : Text) :
    WellFormed (content.pieces '\n').length (heuristic content) ∧
      (∀ line item, enclosingIn? line (heuristic content) = some item →
        item ∈ heuristic content) ∧
      (∀ line first last size, (Selection.cursor line).resolve content heuristic ≠
        .error (.invalidRange first last size)) ∧
      ∀ name first last size, (Selection.symbol name).resolve content heuristic ≠
        .error (.invalidRange first last size) := by
  have htree := wellFormed_heuristic content
  refine ⟨htree, fun line item hfound => ?_, fun line first last size => ?_,
    fun name first last size => ?_⟩
  · exact htree.mem_of_enclosingIn? (List.Subset.refl _) hfound
  · exact Selection.resolve_ne_invalidRange (by simp) htree
  · exact Selection.resolve_ne_invalidRange (by simp) htree

end Outline

end Transplant
