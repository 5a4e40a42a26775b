import Transplant.Move
import Transplant.Proofs.LineView

/-!
# Cutting and pasting blocks of lines

What a view shows after lines were cut out of a text or a block was pasted below it.  A cut removes
the lines of its range and perhaps a blank line; a paste appends, whatever the line breaks of the
two texts are.
-/

namespace Transplant

namespace Text

/-! ## Texts joined at a line break -/

/-- Where two texts meet, the last piece of the first and the first piece of the second become
one. -/
theorem pieces_append {sep : Char} {s t last first : Text} {front rest : List Text}
    (hs : pieces sep s = front ++ [last]) (ht : pieces sep t = first :: rest) :
    pieces sep (s ++ t) = front ++ (last ++ first) :: rest := by
  induction s generalizing front last with
  | nil =>
      obtain ⟨rfl, rfl⟩ : front = [] ∧ last = [] := by
        cases front with
        | nil => simpa [pieces, eq_comm] using hs
        | cons piece front => simp [pieces] at hs
      simpa using ht
  | cons c s ih =>
      obtain ⟨front', last', hpieces⟩ := exists_pieces_concat sep s
      have hrest := ih hpieces
      by_cases hsep : c = sep
      · subst hsep
        rw [pieces_cons_sep, hpieces, ← List.cons_append] at hs
        obtain ⟨rfl, hlast⟩ := List.append_inj' hs rfl
        cases hlast
        rw [List.cons_append, pieces_cons_sep, hrest, List.cons_append]
      · cases front' with
        | nil =>
            rw [pieces_cons_of_ne hsep hpieces, ← List.nil_append [c :: last']] at hs
            obtain ⟨rfl, hlast⟩ := List.append_inj' hs rfl
            cases hlast
            exact pieces_cons_of_ne hsep hrest
        | cons piece front' =>
            have hcons : (c :: piece) :: front' ++ [last'] = front ++ [last] := by
              rw [← hs, pieces_cons_of_ne hsep hpieces]
              rfl
            obtain ⟨rfl, hlast⟩ := List.append_inj' hcons rfl
            cases hlast
            exact pieces_cons_of_ne hsep hrest

/-- Lines above and below a line feed. -/
theorem lines_append_lf (s t : Text) :
    lines (s ++ '\n' :: t) = LinedText.splitLines s ++ lines t := by
  obtain ⟨front, last, ht⟩ := exists_pieces_concat '\n' t
  rw [lines, lines, pieces_append_sep, ht, ← List.append_assoc, linesOfPieces_concat,
    linesOfPieces_concat, List.map_append, LinedText.splitLines, List.append_assoc]

theorem splitLines_append_return (s : Text) :
    ∃ front last, pieces '\n' s = front ++ [last] ∧
      LinedText.splitLines (s ++ ['\r']) = front.map dropReturn ++ [last] := by
  obtain ⟨front, last, hs⟩ := exists_pieces_concat '\n' s
  have hreturn : pieces '\n' ['\r'] = [['\r']] := rfl
  refine ⟨front, last, hs, ?_⟩
  rw [LinedText.splitLines, pieces_append hs hreturn, List.map_append, List.map_singleton,
    dropReturn_append_return]

/-- Joining two tidy texts at a line break gives a tidy text. -/
theorem Tidy.append_break {s t : Text} (hs : Tidy s) (ht : Tidy t) (lineBreak : LineBreak) :
    Tidy (s ++ lineBreak.text ++ t) := by
  cases lineBreak with
  | lf =>
      rw [Tidy, LineBreak.text, List.append_assoc, List.singleton_append, lines_append_lf]
      intro line hline
      obtain hline | hline := List.mem_append.1 hline
      · exact hs.splitLines line hline
      · exact ht line hline
  | crlf =>
      have hsplit : s ++ LineBreak.crlf.text ++ t = (s ++ ['\r']) ++ '\n' :: t := by
        simp [LineBreak.text]
      obtain ⟨front, last, hpieces, hlines⟩ := splitLines_append_return s
      rw [Tidy, hsplit, lines_append_lf, hlines]
      rw [Tidy, lines, hpieces, linesOfPieces_concat] at hs
      intro line hline
      simp only [List.mem_append, List.mem_singleton] at hline
      obtain (hfront | rfl) | hline := hline
      · exact hs line (List.mem_append_left _ hfront)
      · by_cases hnil : line = []
        · simp [hnil]
        · exact hs line (by simp [hnil])
      · exact ht line hline

theorem tidy_nil : Tidy [] := by
  intro line hline
  cases hline

theorem suffix_of_pieces {sep : Char} {t last : Text} {front : List Text}
    (hpieces : pieces sep t = front ++ [last]) : last <:+ t := by
  rw [← join_pieces sep t, hpieces]
  clear hpieces
  induction front with
  | nil => simp
  | cons piece front ih =>
      obtain ⟨second, rest, hrest⟩ := List.exists_cons_of_ne_nil (l := front ++ [last]) (by simp)
      rw [List.cons_append, hrest, join_cons_cons, ← hrest]
      exact ih.trans (List.suffix_append _ _)

theorem linesOfPieces_append (front : List Text) {rest : List Text} (hrest : rest ≠ []) :
    linesOfPieces (front ++ rest) = front.map dropReturn ++ linesOfPieces rest := by
  obtain ⟨middle, last, rfl⟩ : ∃ middle last, rest = middle ++ [last] := by
    obtain hnil | ⟨middle, last, hlast⟩ := List.eq_nil_or_concat rest
    · exact absurd hnil hrest
    · exact ⟨middle, last, by rw [hlast, List.concat_eq_append]⟩
  rw [← List.append_assoc, linesOfPieces_concat, linesOfPieces_concat, List.map_append,
    List.append_assoc]

/-- A tidy text stays tidy when its end is cut off behind a character that is no carriage return. -/
theorem Tidy.of_append {s t : Text} (htidy : Tidy (s ++ t)) (hlast : s.getLast? ≠ some '\r') :
    Tidy s := by
  obtain ⟨front, last, hs⟩ := exists_pieces_concat '\n' s
  obtain ⟨first, rest, ht⟩ := List.exists_cons_of_ne_nil (pieces_ne_nil '\n' t)
  rw [Tidy, lines, pieces_append hs ht, linesOfPieces_append _ (by simp)] at htidy
  rw [Tidy, lines, hs, linesOfPieces_concat]
  intro line hline
  obtain hfront | hline := List.mem_append.1 hline
  · exact htidy line (List.mem_append_left _ hfront)
  · split at hline
    · cases hline
    · rw [List.mem_singleton] at hline
      obtain ⟨before, hbefore⟩ := suffix_of_pieces hs
      intro hreturn
      apply hlast
      rw [← hbefore, List.getLast?_append, ← hline, hreturn, Option.some_or]

end Text

namespace LineView

variable {β : Type*} (v : LineView β)

@[simp]
theorem of_nil : v.of [] = [] := rfl

theorem of_append_return (t : Text) : v.of (t ++ ['\r']).lines = v.of t.lines := by
  obtain ⟨front, last, hpieces, hlines⟩ := Text.splitLines_append_return t
  rw [← of_splitLines, hlines, of_append, of_map_dropReturn, ← of_append, ← hpieces, ← of_lines]

/-- A view shows both texts that are joined at a line break. -/
theorem of_append_break (lineBreak : LineBreak) (s t : Text) :
    v.of (s ++ lineBreak.text ++ t).lines = v.of s.lines ++ v.of t.lines := by
  cases lineBreak with
  | lf =>
      rw [LineBreak.text, List.append_assoc, List.singleton_append, Text.lines_append_lf, of_append,
        of_splitLines]
  | crlf =>
      have hsplit : s ++ LineBreak.crlf.text ++ t = (s ++ ['\r']) ++ '\n' :: t := by
        simp [LineBreak.text]
      rw [hsplit, Text.lines_append_lf, of_append, of_splitLines, of_append_return]

/-- A view shows nothing of a text of blanks. -/
theorem of_blank {t : Text} (hblank : t.trim = []) : v.of t.lines = [] := by
  rw [of_lines, of, List.filterMap_eq_nil_iff]
  intro piece hpiece
  apply v.read_blank
  rw [Text.trim_eq_nil_iff] at hblank ⊢
  exact fun c hc => hblank c (Text.mem_of_mem_pieces hpiece hc)

/-- Line breaks at the end of a text do not show. -/
theorem of_dropEndWhile (t : Text) :
    v.of (t.dropEndWhile Move.isBreakChar).lines = v.of t.lines := by
  induction t using List.reverseRecOn with
  | nil => rfl
  | append_singleton front c ih =>
      by_cases hc : Move.isBreakChar c
      · have hdrop : Text.dropEndWhile Move.isBreakChar (front ++ [c]) =
            Text.dropEndWhile Move.isBreakChar front := by
          simp [Text.dropEndWhile, hc]
        rw [hdrop, ih]
        simp only [Move.isBreakChar, Bool.or_eq_true, beq_iff_eq] at hc
        obtain rfl | rfl := hc
        · exact (v.of_append_return front).symm
        · have hbreak := v.of_append_break .lf front []
          rw [LineBreak.text, List.append_nil] at hbreak
          rw [hbreak]
          exact (List.append_nil _).symm
      · have hkeep : Text.dropEndWhile Move.isBreakChar (front ++ [c]) = front ++ [c] := by
          simp [Text.dropEndWhile, hc]
        rw [hkeep]

end LineView

/-! ## Pasting -/

/-- Writing a text with other line breaks is joining its pieces with them. -/
theorem Text.expandChar_eq (t : Text) (lineBreak : LineBreak) :
    t.expandChar '\n' lineBreak.text = (LinedText.mk (t.pieces '\n') lineBreak).toText := by
  rw [LinedText.toText]
  induction t with
  | nil => rfl
  | cons c t ih =>
      obtain ⟨piece, rest, hpieces⟩ := List.exists_cons_of_ne_nil (pieces_ne_nil '\n' t)
      rw [expandChar, List.flatMap_cons, ← expandChar, ih, hpieces]
      by_cases hc : c = '\n'
      · subst hc
        rw [pieces_cons_sep, hpieces, if_pos rfl, join_cons_cons, List.nil_append]
      · rw [pieces_cons_of_ne hc hpieces, if_neg hc]
        cases rest with
        | nil => simp
        | cons second rest => simp

namespace Move

/-- What is pasted below a text: the marker and the block, each closed by a line break. -/
def pasted (lineBreak : LineBreak) (block : Text) (marker : Option Text) : Text :=
  (match marker with
    | some marker => marker ++ lineBreak.text
    | none => []) ++
  ((LinedText.mk (block.pieces '\n') lineBreak).toText ++ lineBreak.text)

theorem pasteBelow_eq (target block : Text) (marker : Option Text) :
    pasteBelow target block marker =
      if target.trim = [] then pasted (.ofText target) block marker
      else target.dropEndWhile isBreakChar ++ (LineBreak.ofText target).text ++
        ([] ++ (LineBreak.ofText target).text ++ pasted (.ofText target) block marker) := by
  simp only [pasteBelow, pasted, Text.expandChar_eq, List.isEmpty_iff]
  cases marker <;> split <;> simp

section View

variable {β : Type*} (v : LineView β)

theorem of_pasted (lineBreak : LineBreak) (block : Text) {marker : Option Text}
    (hmarker : ∀ line ∈ marker, '\n' ∉ line) :
    v.of (pasted lineBreak block marker).lines = v.of marker.toList ++ v.of block.lines := by
  have hblock : v.of ((LinedText.mk (block.pieces '\n') lineBreak).toText ++
      lineBreak.text).lines = v.of block.lines := by
    have hbreak := v.of_append_break lineBreak
      (LinedText.mk (block.pieces '\n') lineBreak).toText []
    rw [List.append_nil] at hbreak
    rw [hbreak, v.of_toText fun _ => Text.not_mem_of_mem_pieces, v.of_lines block]
    exact List.append_nil _
  cases marker with
  | none => simpa [pasted] using hblock
  | some marker =>
      have hone : v.of marker.lines = v.of [marker] := by
        rw [v.of_lines, Text.pieces_of_not_mem (hmarker marker rfl)]
      rw [pasted, v.of_append_break, hblock, hone]
      rfl

/-- A view shows the old text, the marker and the block, in this order. -/
theorem of_pasteBelow (target block : Text) {marker : Option Text}
    (hmarker : ∀ line ∈ marker, '\n' ∉ line) :
    v.of (pasteBelow target block marker).lines =
      v.of target.lines ++ (v.of marker.toList ++ v.of block.lines) := by
  rw [pasteBelow_eq]
  split
  · rename_i hblank
    rw [of_pasted v _ _ hmarker, v.of_blank hblank, List.nil_append]
  · rw [v.of_append_break, v.of_append_break, v.of_dropEndWhile, of_pasted v _ _ hmarker]
    rfl

end View

/-- Line breaks at the end of a tidy text can be dropped. -/
theorem tidy_dropEndWhile {t : Text} (htidy : t.Tidy) : (t.dropEndWhile isBreakChar).Tidy := by
  have hsplit : t = t.dropEndWhile isBreakChar ++ (t.reverse.takeWhile isBreakChar).reverse := by
    rw [Text.dropEndWhile, ← List.reverse_append, List.takeWhile_append_dropWhile,
      List.reverse_reverse]
  rw [hsplit] at htidy
  apply htidy.of_append
  rw [Text.dropEndWhile, List.getLast?_reverse]
  intro hhead
  have hbreak := List.head?_dropWhile_not isBreakChar t.reverse
  rw [hhead] at hbreak
  exact absurd hbreak (by decide)

theorem tidy_pasted (lineBreak : LineBreak) {block : Text} {marker : Option Text}
    (hblock : ∀ line ∈ block.pieces '\n', line.getLast? ≠ some '\r')
    (hmarker : ∀ line ∈ marker, line.Tidy) : (pasted lineBreak block marker).Tidy := by
  have hlines : (LinedText.mk (block.pieces '\n') lineBreak).toText.Tidy :=
    Text.tidy_toText (fun _ => Text.not_mem_of_mem_pieces) hblock
  have hclosed := hlines.append_break Text.tidy_nil lineBreak
  rw [List.append_nil] at hclosed
  cases marker with
  | none => simpa [pasted] using hclosed
  | some marker => exact (hmarker marker rfl).append_break hclosed lineBreak

theorem tidy_pasteBelow {target block : Text} {marker : Option Text} (htarget : target.Tidy)
    (hblock : ∀ line ∈ block.pieces '\n', line.getLast? ≠ some '\r')
    (hmarker : ∀ line ∈ marker, line.Tidy) : (pasteBelow target block marker).Tidy := by
  have hpasted := tidy_pasted (.ofText target) hblock hmarker
  rw [pasteBelow_eq]
  split
  · exact hpasted
  · exact (tidy_dropEndWhile htarget).append_break (Text.tidy_nil.append_break hpasted _) _

end Move

/-! ## Cutting -/

def LineSpan.within (range : LineSpan) (lines : List Text) : List Text :=
  (lines.take (range.last + 1)).drop range.first

def LineSpan.outside (range : LineSpan) (lines : List Text) : List Text :=
  lines.take range.first ++ lines.drop (range.last + 1)

theorem LineView.of_eraseIdx {β : Type*} (v : LineView β) {lines : List Text} {index : Nat}
    {line : Text} (hindex : lines[index]? = some line) (hread : v.read line = none) :
    v.of (lines.eraseIdx index) = v.of lines := by
  obtain ⟨above, below, rfl, rfl⟩ := exists_append_of_getElem? hindex
  rw [List.eraseIdx_append_of_length_le (Nat.le_refl _), Nat.sub_self, List.eraseIdx_cons_zero,
    v.of_append, v.of_append, v.of_cons, hread]
  rfl

namespace Move

/-- A cut leaves the lines around its range, but for a blank line. -/
theorem cutOut_spec (source : Text) {range : LineSpan} (hrange : range.first ≤ range.last + 1) :
    ∃ lines, cutOut source range = (LinedText.mk lines (.ofText source)).toText ∧
      (∀ line ∈ lines, line ∈ LinedText.splitLines source) ∧
      ∀ {β : Type} (v : LineView β),
        v.of lines = v.of (range.outside (LinedText.splitLines source)) := by
  have herase : (LinedText.ofText source).eraseRange range.first range.last =
      LinedText.mk (range.outside (LinedText.splitLines source)) (.ofText source) := by
    rw [LinedText.eraseRange]
    split
    · rfl
    · have hempty : range.first = range.last + 1 := by omega
      rw [LineSpan.outside, hempty, List.take_append_drop]
      rfl
  have hmem : ∀ line ∈ range.outside (LinedText.splitLines source),
      line ∈ LinedText.splitLines source := by
    intro line hline
    obtain h | h := List.mem_append.1 hline
    · exact List.mem_of_mem_take h
    · exact List.mem_of_mem_drop h
  simp only [cutOut, herase]
  split
  · rename_i hfold
    simp only [Bool.and_eq_true] at hfold
    have hblank := hfold.1.2
    rw [blankAt] at hblank
    split at hblank
    · rename_i line hline
      refine ⟨_, rfl, fun other hother => hmem other (List.mem_of_mem_eraseIdx hother), ?_⟩
      intro β v
      exact v.of_eraseIdx hline (v.read_blank line (by simpa using hblank))
    · cases hblank
  · exact ⟨_, rfl, hmem, fun _ => rfl⟩

theorem of_cutOut {β : Type} (v : LineView β) (source : Text) {range : LineSpan}
    (hrange : range.first ≤ range.last + 1) :
    v.of (cutOut source range).lines = v.of (range.outside (LinedText.splitLines source)) := by
  obtain ⟨lines, hcut, hmem, hview⟩ := cutOut_spec source hrange
  rw [hcut, v.of_toText, hview v]
  exact fun line hline => LinedText.not_mem_of_mem_splitLines (hmem line hline)

theorem tidy_cutOut {source : Text} (htidy : source.Tidy) {range : LineSpan}
    (hrange : range.first ≤ range.last + 1) : (cutOut source range).Tidy := by
  obtain ⟨lines, hcut, hmem, -⟩ := cutOut_spec source hrange
  rw [hcut]
  apply Text.tidy_toText
  · exact fun line hline => LinedText.not_mem_of_mem_splitLines (hmem line hline)
  · exact fun line hline => htidy.splitLines line (hmem line hline)

/-- What a view shows of a text is what it shows inside and outside of a range. -/
theorem perm_within_outside {β : Type*} (v : LineView β) (lines : List Text) {range : LineSpan}
    (hrange : range.first ≤ range.last + 1) :
    (v.of (range.outside lines) ++ v.of (range.within lines)).Perm (v.of lines) := by
  have hlines : lines = lines.take range.first ++ (range.within lines ++
      lines.drop (range.last + 1)) := by
    have hfirst : (lines.take (range.last + 1)).take range.first = lines.take range.first := by
      rw [List.take_take, Nat.min_eq_left hrange]
    rw [LineSpan.within, ← List.append_assoc, ← hfirst, List.take_append_drop,
      List.take_append_drop]
  conv_rhs => rw [hlines]
  rw [LineSpan.outside, v.of_append, v.of_append, v.of_append, List.append_assoc]
  exact List.Perm.append_left _ List.perm_append_comm

end Move

end Transplant
