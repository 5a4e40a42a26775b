import Mathlib.Data.List.Induction
import Mathlib.Data.List.TakeWhile
import Transplant.Proofs.Lines

/-!
# Line views

Everything that is read off a text (its declarations, its imports, the uses of a name) is read line
by line, by a reader that finds nothing in a blank line and does not look at a carriage return at
the end.  Such a reader is a `LineView`.  What a view shows of a text does not depend on the line
breaks, so it is enough to know what an edit does to the lines.

`Relined p t u` says that an edit of `t` to `u` touches only lines of one sort `p`.  A view that
shows nothing of these lines shows the same before and after.
-/

namespace Transplant

namespace Text

theorem trimStart_eq_nil_iff {t : Text} : t.trimStart = [] ↔ ∀ c ∈ t, isBlank c := by
  rw [trimStart, List.dropWhile_eq_nil_iff]

theorem trimEnd_eq_nil_iff {t : Text} : t.trimEnd = [] ↔ ∀ c ∈ t, isBlank c := by
  rw [trimEnd, dropEndWhile, List.reverse_eq_nil_iff, List.dropWhile_eq_nil_iff]
  simp

/-- Trimming leaves nothing exactly of a text of blanks. -/
theorem trim_eq_nil_iff {t : Text} : t.trim = [] ↔ ∀ c ∈ t, isBlank c := by
  rw [trim, trimEnd_eq_nil_iff]
  constructor
  · intro hblank
    apply trimStart_eq_nil_iff.1
    by_contra hne
    have hhead := List.head_dropWhile_not isBlank (l := t) (by simpa [trimStart] using hne)
    have hmem := hblank _ (List.head_mem (l := t.trimStart) hne)
    exact absurd hmem (by simpa [trimStart] using hhead)
  · intro hblank c hc
    exact hblank c ((List.dropWhile_suffix isBlank).subset hc)

/-- Drops all carriage returns at the end. -/
def dropReturns (line : Text) : Text :=
  line.dropEndWhile (· = '\r')

@[simp]
theorem dropReturns_append_return (line : Text) :
    dropReturns (line ++ ['\r']) = dropReturns line := by
  simp [dropReturns, dropEndWhile]

theorem dropReturns_of_ne {line : Text} (hlast : line.getLast? ≠ some '\r') :
    dropReturns line = line := by
  rcases List.eq_nil_or_concat line with rfl | ⟨front, c, rfl⟩
  · rfl
  · have hc : c ≠ '\r' := by simpa using hlast
    simp [dropReturns, dropEndWhile, hc]

/-- A fact about lines that adding a carriage return does not change holds of a line if it holds
of the line without its carriage returns. -/
theorem dropReturns_induction {motive : Text → Prop} {line : Text}
    (hreturn : ∀ line, motive line → motive (line ++ ['\r'])) (hline : motive (dropReturns line)) :
    motive line := by
  induction line using List.reverseRecOn with
  | nil => exact hline
  | append_singleton front c ih =>
      by_cases hc : c = '\r'
      · subst hc
        rw [dropReturns_append_return] at hline
        exact hreturn front (ih hline)
      · rwa [dropReturns_of_ne (by simpa using hc)] at hline

/-- What does not depend on a carriage return at the end does not depend on several. -/
theorem apply_dropReturns {α : Type*} {f : Text → α} (hf : ∀ line, f (line ++ ['\r']) = f line)
    (line : Text) : f line.dropReturns = f line := by
  apply dropReturns_induction (motive := fun other => f line.dropReturns = f other)
  · intro other hother
    rw [hf, hother]
  · rfl

theorem mem_of_mem_dropReturns {line : Text} {c : Char} (hc : c ∈ dropReturns line) : c ∈ line := by
  rw [dropReturns, dropEndWhile, List.mem_reverse] at hc
  exact List.mem_reverse.1 ((List.dropWhile_suffix _).subset hc)

/-- No line of the text ends in a carriage return. -/
def Tidy (t : Text) : Prop :=
  ∀ line ∈ t.lines, line.getLast? ≠ some '\r'

end Text

/-- A reader of single lines that finds nothing in blank lines and does not see a carriage return
at the end. -/
structure LineView (β : Type*) where
  read : Text → Option β
  read_blank : ∀ line : Text, line.trim = [] → read line = none
  read_return : ∀ line : Text, read (line ++ ['\r']) = read line

namespace LineView

variable {β γ : Type*} (v : LineView β)

def of (lines : List Text) : List β :=
  lines.filterMap v.read

def bind (g : β → Option γ) : LineView γ where
  read line := (v.read line).bind g
  read_blank line hblank := by rw [v.read_blank line hblank, Option.bind_none]
  read_return line := by rw [v.read_return]

def kept (keep : Text → Bool) (hblank : ∀ line : Text, line.trim = [] → keep line = false) :
    LineView Text where
  read line := if keep line.dropReturns then some line.dropReturns else none
  read_blank line hline := by
    have hkeep : keep line.dropReturns = false := by
      apply hblank
      rw [Text.trim_eq_nil_iff] at hline ⊢
      exact fun c hc => hline c (Text.mem_of_mem_dropReturns hc)
    simp [hkeep]
  read_return line := by rw [Text.dropReturns_append_return]

@[simp]
theorem read_nil : v.read [] = none :=
  v.read_blank [] rfl

@[simp]
theorem read_dropReturn (line : Text) : v.read line.dropReturn = v.read line := by
  rcases Text.eq_dropReturn_or line with heq | heq
  · rw [← heq]
  · conv_rhs => rw [heq, v.read_return]

theorem read_dropReturns (line : Text) : v.read line.dropReturns = v.read line :=
  Text.apply_dropReturns v.read_return line

@[simp]
theorem of_append (above below : List Text) : v.of (above ++ below) = v.of above ++ v.of below :=
  List.filterMap_append ..

theorem of_cons (line : Text) (rest : List Text) :
    v.of (line :: rest) = (v.read line).toList ++ v.of rest := by
  rw [of, of, List.filterMap_cons]
  cases v.read line <;> rfl

theorem of_map_dropReturn (lines : List Text) : v.of (lines.map Text.dropReturn) = v.of lines := by
  simp [of, List.filterMap_map]

/-- A view shows the same of the lines and of the pieces of a text. -/
theorem of_lines (t : Text) : v.of t.lines = v.of (t.pieces '\n') := by
  obtain ⟨front, last, hpieces⟩ := Text.exists_pieces_concat '\n' t
  rw [Text.lines, hpieces, Text.linesOfPieces_concat, of_append, of_append, of_map_dropReturn]
  by_cases hlast : last = []
  · simp [hlast, of]
  · simp [hlast]

theorem of_splitLines (t : Text) : v.of (LinedText.splitLines t) = v.of t.lines := by
  rw [LinedText.splitLines, of_map_dropReturn, of_lines]

/-- Writing lines does not change what a view shows of them. -/
theorem of_toText {l : LinedText} (hbreak : ∀ line ∈ l.lines, '\n' ∉ line) :
    v.of l.toText.lines = v.of l.lines := by
  by_cases hne : l.lines = []
  · rw [LinedText.toText, hne]
    rfl
  · rw [of_lines, LinedText.pieces_toText hne hbreak]
    split
    · rfl
    · obtain ⟨front, last, hlines⟩ : ∃ front last, l.lines = front ++ [last] := by
        rcases List.eq_nil_or_concat l.lines with hnil | ⟨front, last, hlines⟩
        · exact absurd hnil hne
        · exact ⟨front, last, by rw [hlines, List.concat_eq_append]⟩
      rw [hlines, LinedText.withReturns_concat, of_append, of_append]
      simp [of, List.filterMap_map, v.read_return]

/-- Lines of a sort that the view does not show can be left out. -/
theorem of_filter {p : Text → Bool} (hp : ∀ line, p line → v.read line = none)
    (lines : List Text) : v.of (lines.filter (!p ·)) = v.of lines := by
  rw [of, of, List.filterMap_filter]
  congr 1
  funext line
  by_cases hline : p line
  · simp [hline, hp line hline]
  · simp [hline]

/-- Lines that change one by one, in a way the view does not see. -/
theorem of_lines_eq_of_forall₂ {changed : Text → Text → Prop} {t u : Text}
    (hpieces : List.Forall₂ changed (t.pieces '\n') (u.pieces '\n'))
    (hread : ∀ old new, changed old new → v.read new = v.read old) :
    v.of u.lines = v.of t.lines := by
  rw [of_lines, of_lines]
  generalize t.pieces '\n' = olds at hpieces
  generalize u.pieces '\n' = news at hpieces
  induction hpieces with
  | nil => rfl
  | cons hchanged _ ih =>
      simp only [of, List.filterMap_cons, hread _ _ hchanged] at ih ⊢
      rw [ih]

/-- In a tidy text the kept lines are the lines that satisfy the condition. -/
theorem kept_of_tidy {keep : Text → Bool}
    {hblank : ∀ line : Text, line.trim = [] → keep line = false} {lines : List Text}
    (htidy : ∀ line ∈ lines, line.getLast? ≠ some '\r') :
    (kept keep hblank).of lines = lines.filter keep := by
  induction lines with
  | nil => rfl
  | cons line lines ih =>
      have hline := Text.dropReturns_of_ne (htidy line (List.mem_cons_self ..))
      have hlines := ih fun other hother => htidy other (List.mem_cons_of_mem _ hother)
      rw [of] at hlines ⊢
      by_cases hkeep : keep line
      · have hread : (kept keep hblank).read line = some line := by simp [kept, hline, hkeep]
        rw [List.filterMap_cons_some hread, hlines, List.filter_cons_of_pos hkeep]
      · have hread : (kept keep hblank).read line = none := by simp [kept, hline, hkeep]
        rw [List.filterMap_cons_none hread, hlines, List.filter_cons_of_neg hkeep]

end LineView

/-! ## Edits of lines of one sort -/

/-- An edit that touches only lines of the sort `p`: it leaves the text as it is, or writes its
lines anew with some lines of that sort taken out, put in or replaced. -/
inductive Relined (p : Text → Bool) (t : Text) : Text → Prop
  | same : Relined p t t
  | rewritten (lines : List Text) (hbreak : ∀ line ∈ lines, '\n' ∉ line)
      (hreturn : (∀ line ∈ LinedText.splitLines t, line.getLast? ≠ some '\r') →
        ∀ line ∈ lines, line.getLast? ≠ some '\r')
      (hothers : lines.filter (!p ·) = (LinedText.splitLines t).filter (!p ·)) :
      Relined p t (LinedText.mk lines (.ofText t)).toText

namespace Text

theorem Tidy.splitLines {t : Text} (htidy : Tidy t) :
    ∀ line ∈ LinedText.splitLines t, line.getLast? ≠ some '\r' := by
  intro line hline
  obtain ⟨front, last, hpieces⟩ := exists_pieces_concat '\n' t
  rw [Tidy, lines, hpieces, linesOfPieces_concat] at htidy
  rw [LinedText.splitLines, hpieces, List.map_append, List.mem_append] at hline
  rcases hline with hfront | hlast
  · exact htidy line (List.mem_append_left _ hfront)
  · rw [List.map_singleton, List.mem_singleton] at hlast
    subst hlast
    by_cases hnil : last = []
    · simp [hnil]
    · have hclean := htidy last (by simp [hnil])
      rwa [dropReturn_of_ne hclean]

/-- A text written from lines without carriage returns at their ends is tidy. -/
theorem tidy_toText {l : LinedText} (hbreak : ∀ line ∈ l.lines, '\n' ∉ line)
    (hreturn : ∀ line ∈ l.lines, line.getLast? ≠ some '\r') : Tidy l.toText := by
  by_cases hne : l.lines = []
  · rw [LinedText.toText, hne]
    intro line hline
    cases hline
  · obtain ⟨front, last, hlines⟩ : ∃ front last, l.lines = front ++ [last] := by
      rcases List.eq_nil_or_concat l.lines with hnil | ⟨front, last, hlines⟩
      · exact absurd hnil hne
      · exact ⟨front, last, by rw [hlines, List.concat_eq_append]⟩
    -- Whatever the line break is, reading gives the lines back.
    have hfront : (front.map (· ++ ['\r'])).map dropReturn = front := by
      simp [Function.comp_def]
    have hclean : front.map dropReturn = front := by
      rw [List.map_congr_left (g := id), List.map_id]
      exact fun line hline => dropReturn_of_ne (hreturn line (by simp [hlines, hline]))
    have hread : l.toText.lines = front ++ (if last = [] then [] else [last]) := by
      rw [lines, LinedText.pieces_toText hne hbreak]
      split
      · rw [hlines, linesOfPieces_concat, hclean]
      · rw [hlines, LinedText.withReturns_concat, linesOfPieces_concat, hfront]
    intro line hline
    apply hreturn
    rw [hread] at hline
    rw [hlines]
    split at hline <;> simp_all

end Text

/-- The lines above and below the line at an index. -/
theorem exists_append_of_getElem? {α : Type*} {l : List α} {index : Nat} {a : α}
    (hindex : l[index]? = some a) :
    ∃ above below, l = above ++ a :: below ∧ above.length = index := by
  obtain ⟨hlt, rfl⟩ := List.getElem?_eq_some_iff.1 hindex
  refine ⟨l.take index, l.drop (index + 1), ?_, ?_⟩
  · rw [List.getElem_cons_drop, List.take_append_drop]
  · rw [List.length_take]
    omega

namespace Relined

variable {p : Text → Bool} {t u : Text}

/-- A view that shows nothing of the edited lines shows the same before and after. -/
theorem of_lines {β : Type*} (hedit : Relined p t u) (v : LineView β)
    (hp : ∀ line, p line → v.read line = none) : v.of u.lines = v.of t.lines := by
  cases hedit with
  | same => rfl
  | rewritten lines hbreak hreturn hothers =>
      rw [v.of_toText hbreak, ← v.of_filter hp, hothers, v.of_filter hp, v.of_splitLines]

theorem tidy (hedit : Relined p t u) (htidy : t.Tidy) : u.Tidy := by
  cases hedit with
  | same => exact htidy
  | rewritten lines hbreak hreturn hothers =>
      exact Text.tidy_toText hbreak (hreturn htidy.splitLines)

/-- Replacing lines of the sort, wherever they stand. -/
theorem splice {above below : List Text} (old new : List Text)
    (hlines : LinedText.splitLines t = above ++ old ++ below)
    (hold : ∀ line ∈ old, p line) (hnew : ∀ line ∈ new, p line)
    (hbreak : ∀ line ∈ new, '\n' ∉ line)
    (hreturn : (∀ line ∈ old, line.getLast? ≠ some '\r') →
      ∀ line ∈ new, line.getLast? ≠ some '\r') :
    Relined p t (LinedText.mk (above ++ new ++ below) (.ofText t)).toText := by
  have hmem : ∀ line, line ∈ above ∨ line ∈ below → line ∈ LinedText.splitLines t := by
    intro line hline
    rw [hlines]
    rcases hline with h | h <;> simp [h]
  apply rewritten
  · intro line hline
    simp only [List.mem_append] at hline
    rcases hline with (h | h) | h
    · exact LinedText.not_mem_of_mem_splitLines (hmem line (.inl h))
    · exact hbreak line h
    · exact LinedText.not_mem_of_mem_splitLines (hmem line (.inr h))
  · intro hclean line hline
    simp only [List.mem_append] at hline
    rcases hline with (h | h) | h
    · exact hclean line (hmem line (.inl h))
    · refine hreturn (fun other hother => hclean other ?_) line h
      simp [hlines, hother]
    · exact hclean line (hmem line (.inr h))
  · have hnone : ∀ ls : List Text, (∀ line ∈ ls, p line) → ls.filter (!p ·) = [] := by
      intro ls hls
      simpa using hls
    rw [hlines]
    simp only [List.filter_append, hnone old hold, hnone new hnew]

theorem set {index : Nat} {old : Text} (new : Text)
    (hindex : (LinedText.splitLines t)[index]? = some old) (hold : p old) (hnew : p new)
    (hbreak : '\n' ∉ new) (hreturn : old.getLast? ≠ some '\r' → new.getLast? ≠ some '\r') :
    Relined p t ((LinedText.ofText t).set index new).toText := by
  obtain ⟨above, below, hlines, hlength⟩ := exists_append_of_getElem? hindex
  have hset : (LinedText.splitLines t).set index new = above ++ [new] ++ below := by
    rw [hlines, List.set_append_right _ _ (by omega), hlength]
    simp
  rw [LinedText.set, LinedText.ofText, hset]
  apply splice [old] [new] (by simpa using hlines)
  · simpa using hold
  · simpa using hnew
  · simpa using hbreak
  · simpa using hreturn

theorem insertAt (index : Nat) (new : List Text) (hnew : ∀ line ∈ new, p line)
    (hbreak : ∀ line ∈ new, '\n' ∉ line) (hreturn : ∀ line ∈ new, line.getLast? ≠ some '\r') :
    Relined p t ((LinedText.ofText t).insertAt index new).toText := by
  rw [LinedText.insertAt, LinedText.ofText]
  refine splice [] new ?_ ?_ hnew hbreak fun _ => hreturn
  · simp
  · simp

/-- Removing or replacing every line that an editor does not keep. -/
theorem filterMap {edit : Text → Option Text}
    (hedit : ∀ line ∈ LinedText.splitLines t, edit line = some line ∨
      p line ∧ ∀ new, edit line = some new → p new ∧ '\n' ∉ new ∧
        (line.getLast? ≠ some '\r' → new.getLast? ≠ some '\r')) :
    Relined p t (LinedText.mk ((LinedText.splitLines t).filterMap edit) (.ofText t)).toText := by
  have hbreaks : ∀ line ∈ LinedText.splitLines t, '\n' ∉ line :=
    fun _ => LinedText.not_mem_of_mem_splitLines
  apply rewritten
  · intro new hnew
    obtain ⟨line, hline, hsome⟩ := List.mem_filterMap.1 hnew
    obtain hkeep | ⟨-, hchange⟩ := hedit line hline
    · cases hkeep.symm.trans hsome
      exact hbreaks _ hline
    · exact (hchange new hsome).2.1
  · intro hclean new hnew
    obtain ⟨line, hline, hsome⟩ := List.mem_filterMap.1 hnew
    obtain hkeep | ⟨-, hchange⟩ := hedit line hline
    · cases hkeep.symm.trans hsome
      exact hclean _ hline
    · exact (hchange new hsome).2.2 (hclean line hline)
  · generalize LinedText.splitLines t = lines at hedit
    induction lines with
    | nil => rfl
    | cons line rest ih =>
        rw [List.forall_mem_cons] at hedit
        have hrest := ih hedit.2
        obtain hkeep | ⟨hline, hchange⟩ := hedit.1
        · rw [List.filterMap_cons_some hkeep, List.filter_cons, List.filter_cons, hrest]
        · rw [List.filter_cons_of_neg (by simpa using hline), ← hrest]
          cases hsome : edit line with
          | none => rw [List.filterMap_cons_none hsome]
          | some new =>
              have hnew := (hchange new hsome).1
              rw [List.filterMap_cons_some hsome, List.filter_cons_of_neg (by simpa using hnew)]

end Relined

end Transplant
