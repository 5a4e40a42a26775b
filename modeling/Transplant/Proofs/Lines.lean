import Mathlib.Data.List.Forall2
import Transplant.Text.Lined

/-!
# Texts and their lines

A text is seen as lines in three ways: the pieces between line feeds, the lines of a lined text,
which lose one carriage return each, and `Text.lines`, which keeps a carriage return at the very
end and drops an empty last line.  This module proves how the three are related and what becomes of
the lines of a lined text when it is written and read again.
-/

namespace Transplant

namespace Text

/-! ## Pieces -/

theorem pieces_cons_sep (sep : Char) (t : Text) :
    pieces sep (sep :: t) = [] :: pieces sep t := by
  simp [pieces]

theorem pieces_cons_of_ne {sep c : Char} (hne : c ≠ sep) {t piece : Text} {rest : List Text}
    (hpieces : pieces sep t = piece :: rest) :
    pieces sep (c :: t) = (c :: piece) :: rest := by
  simp [pieces, hne, hpieces]

/-- A separator between two texts separates their pieces. -/
theorem pieces_append_sep (sep : Char) (s t : Text) :
    pieces sep (s ++ sep :: t) = pieces sep s ++ pieces sep t := by
  induction s with
  | nil => simp [pieces]
  | cons c s ih =>
      by_cases hsep : c = sep
      · subst hsep
        rw [List.cons_append, pieces_cons_sep, ih, pieces_cons_sep, List.cons_append]
      · obtain ⟨piece, rest, hpieces⟩ := List.exists_cons_of_ne_nil (pieces_ne_nil sep s)
        rw [hpieces, List.cons_append] at ih
        rw [List.cons_append, pieces_cons_of_ne hsep ih, pieces_cons_of_ne hsep hpieces,
          List.cons_append]

theorem pieces_of_not_mem {sep : Char} {t : Text} (hsep : sep ∉ t) : pieces sep t = [t] := by
  induction t with
  | nil => rfl
  | cons c t ih =>
      obtain ⟨hc, ht⟩ := not_or.1 (mt List.mem_cons.2 hsep)
      exact pieces_cons_of_ne (Ne.symm hc) (ih ht)

theorem not_mem_of_mem_pieces {sep : Char} {t piece : Text} (hpiece : piece ∈ pieces sep t) :
    sep ∉ piece := by
  induction t generalizing piece with
  | nil =>
      rw [pieces, List.mem_singleton] at hpiece
      simp [hpiece]
  | cons c t ih =>
      by_cases hsep : c = sep
      · subst hsep
        rw [pieces_cons_sep] at hpiece
        rcases List.mem_cons.1 hpiece with rfl | hrest
        · simp
        · exact ih hrest
      · obtain ⟨first, rest, hpieces⟩ := List.exists_cons_of_ne_nil (pieces_ne_nil sep t)
        rw [pieces_cons_of_ne hsep hpieces] at hpiece
        rw [hpieces] at ih
        rcases List.mem_cons.1 hpiece with rfl | hrest
        · intro hmem
          rcases List.mem_cons.1 hmem with heq | hmem
          · exact hsep heq.symm
          · exact ih (List.mem_cons_self ..) hmem
        · exact ih (List.mem_cons_of_mem _ hrest)

theorem mem_of_mem_pieces {sep c : Char} {t piece : Text} (hpiece : piece ∈ pieces sep t)
    (hc : c ∈ piece) : c ∈ t := by
  rw [← join_pieces sep t]
  generalize pieces sep t = parts at hpiece
  induction parts with
  | nil => cases hpiece
  | cons first parts ih =>
      cases parts with
      | nil => simp_all
      | cons second parts =>
          rw [join_cons_cons]
          rcases List.mem_cons.1 hpiece with rfl | hrest
          · simp [hc]
          · simp [ih hrest]

/-- Parts that do not hold the separator are found again after joining them. -/
theorem pieces_join {sep : Char} {parts : List Text} (hne : parts ≠ [])
    (hsep : ∀ part ∈ parts, sep ∉ part) : pieces sep (join [sep] parts) = parts := by
  induction parts with
  | nil => exact absurd rfl hne
  | cons first parts ih =>
      have hfirst : sep ∉ first := hsep first (List.mem_cons_self ..)
      cases parts with
      | nil => rw [join_singleton, pieces_of_not_mem hfirst]
      | cons second parts =>
          have hrest := ih (by simp) fun part hpart => hsep part (List.mem_cons_of_mem _ hpart)
          rw [join_cons_cons, List.append_assoc, List.singleton_append, pieces_append_sep, hrest,
            pieces_of_not_mem hfirst, List.singleton_append]

/-- Joining in two steps. -/
theorem join_append {sep : Text} {left right : List Text} (hleft : left ≠ [])
    (hright : right ≠ []) : join sep (left ++ right) = join sep left ++ sep ++ join sep right := by
  induction left with
  | nil => exact absurd rfl hleft
  | cons first left ih =>
      cases left with
      | nil =>
          obtain ⟨second, rest, rfl⟩ := List.exists_cons_of_ne_nil hright
          simp
      | cons second left =>
          rw [List.cons_append, List.cons_append, join_cons_cons, ← List.cons_append,
            ih (by simp), join_cons_cons]
          simp

/-- Nothing but no parts at all is joined to the empty text. -/
theorem eq_nil_of_join {sep : Char} {parts : List Text}
    (hparts : ∀ part ∈ parts, part ≠ [] ∧ sep ∉ part) (hjoin : join [sep] parts = []) :
    parts = [] := by
  by_contra hne
  have hpieces := pieces_join hne fun part hpart => (hparts part hpart).2
  rw [hjoin] at hpieces
  have hempty : [] ∈ parts := by simp [← hpieces, pieces]
  exact (hparts [] hempty).1 rfl

/-- Texts that are joined from the same parts in front and from non-empty parts behind them are told
apart by the parts behind. -/
theorem join_append_inj {sep : Char} {front left right : List Text}
    (hfront : ∀ part ∈ front, sep ∉ part) (hleft : ∀ part ∈ left, part ≠ [] ∧ sep ∉ part)
    (hright : ∀ part ∈ right, part ≠ [] ∧ sep ∉ part) :
    join [sep] (front ++ left) = join [sep] (front ++ right) ↔ left = right := by
  constructor
  · intro hjoin
    have hclean : ∀ parts : List Text, (∀ part ∈ parts, part ≠ [] ∧ sep ∉ part) →
        ∀ part ∈ front ++ parts, sep ∉ part := fun parts hparts =>
      List.forall_mem_append.2 ⟨hfront, fun part hpart => (hparts part hpart).2⟩
    by_cases hnil : front ++ left = []
    · obtain ⟨rfl, rfl⟩ := List.append_eq_nil_iff.1 hnil
      exact (eq_nil_of_join hright hjoin.symm).symm
    · by_cases hnil' : front ++ right = []
      · obtain ⟨rfl, rfl⟩ := List.append_eq_nil_iff.1 hnil'
        exact eq_nil_of_join hleft hjoin
      · have hsame := congrArg (pieces sep) hjoin
        rw [pieces_join hnil (hclean left hleft), pieces_join hnil' (hclean right hright)] at hsame
        exact List.append_cancel_left hsame
  · intro hsame
    rw [hsame]

/-! ## Carriage returns -/

@[simp]
theorem dropReturn_nil : dropReturn [] = [] := rfl

@[simp]
theorem dropReturn_append_return (line : Text) : dropReturn (line ++ ['\r']) = line := by
  simp [dropReturn]

theorem dropReturn_of_ne {line : Text} (hlast : line.getLast? ≠ some '\r') :
    dropReturn line = line := by
  simp [dropReturn, hlast]

/-- Only a carriage return at the end is dropped. -/
theorem eq_dropReturn_or (line : Text) :
    line = dropReturn line ∨ line = dropReturn line ++ ['\r'] := by
  by_cases hlast : line.getLast? = some '\r'
  · right
    obtain ⟨front, rfl⟩ := List.getLast?_eq_some_iff.1 hlast
    rw [dropReturn_append_return]
  · left
    rw [dropReturn_of_ne hlast]

theorem mem_of_mem_dropReturn {line : Text} {c : Char} (hc : c ∈ dropReturn line) : c ∈ line := by
  rcases eq_dropReturn_or line with heq | heq
  · rwa [heq]
  · rw [heq]
    exact List.mem_append_left _ hc

theorem dropReturn_append {s t : Text} (hs : s.getLast? ≠ some '\r') :
    dropReturn (s ++ t) = s ++ dropReturn t := by
  rcases List.eq_nil_or_concat t with rfl | ⟨front, c, rfl⟩
  · simpa using dropReturn_of_ne hs
  · by_cases hc : c = '\r'
    · subst hc
      simp only [List.concat_eq_append]
      rw [← List.append_assoc, dropReturn_append_return, dropReturn_append_return]
    · rw [dropReturn_of_ne, dropReturn_of_ne] <;> simp [hc]

/-! ## Lines -/

theorem linesOfPieces_cons_cons (piece second : Text) (rest : List Text) :
    linesOfPieces (piece :: second :: rest) =
      dropReturn piece :: linesOfPieces (second :: rest) := rfl

/-- The lines of a text: every piece but the last loses its carriage return, and the last one
counts only if it is not empty. -/
theorem linesOfPieces_concat (front : List Text) (last : Text) :
    linesOfPieces (front ++ [last]) =
      front.map dropReturn ++ (if last = [] then [] else [last]) := by
  induction front with
  | nil => rfl
  | cons piece front ih =>
      cases front with
      | nil =>
          rw [List.cons_append, List.nil_append, linesOfPieces_cons_cons, ← List.nil_append [last],
            ih]
          rfl
      | cons second front =>
          rw [List.cons_append, List.cons_append, linesOfPieces_cons_cons, ← List.cons_append, ih]
          rfl

/-- The pieces of a text, the last one named. -/
theorem exists_pieces_concat (sep : Char) (t : Text) :
    ∃ front last, pieces sep t = front ++ [last] := by
  rcases List.eq_nil_or_concat (pieces sep t) with hnil | ⟨front, last, hpieces⟩
  · exact absurd hnil (pieces_ne_nil sep t)
  · exact ⟨front, last, by rw [hpieces, List.concat_eq_append]⟩

/-- The line at an index is the piece there, but for a carriage return. -/
theorem exists_piece_of_lines {t line : Text} {index : Nat} (hline : t.lines[index]? = some line) :
    ∃ piece, (pieces '\n' t)[index]? = some piece ∧ (piece = line ∨ piece = line ++ ['\r']) := by
  obtain ⟨front, last, hpieces⟩ := exists_pieces_concat '\n' t
  rw [lines, hpieces, linesOfPieces_concat] at hline
  rw [hpieces]
  by_cases hindex : index < front.length
  · rw [List.getElem?_append_left (by simpa using hindex), List.getElem?_map] at hline
    obtain ⟨piece, hpiece, rfl⟩ := Option.map_eq_some_iff.1 hline
    exact ⟨piece, by rw [List.getElem?_append_left hindex, hpiece], eq_dropReturn_or piece⟩
  · rw [List.getElem?_append_right (by simpa using hindex), List.length_map] at hline
    split at hline
    · cases hline
    · exact ⟨line, by rw [List.getElem?_append_right (by omega), hline], .inl rfl⟩

end Text

/-! ## Lined texts -/

namespace LinedText

theorem not_mem_of_mem_splitLines {t line : Text} (hline : line ∈ splitLines t) : '\n' ∉ line := by
  obtain ⟨piece, hpiece, rfl⟩ := List.mem_map.1 hline
  exact fun hbreak => Text.not_mem_of_mem_pieces hpiece (Text.mem_of_mem_dropReturn hbreak)

theorem splitLines_of_not_mem {t : Text} (hbreak : '\n' ∉ t) :
    splitLines t = [Text.dropReturn t] := by
  rw [splitLines, Text.pieces_of_not_mem hbreak, List.map_singleton]

/-- The pieces that lines are written as: all but the last take the carriage return of the line
break with them. -/
def withReturns : List Text → List Text
  | [] => []
  | [last] => [last]
  | line :: rest => (line ++ ['\r']) :: withReturns rest

theorem withReturns_cons_cons (line second : Text) (rest : List Text) :
    withReturns (line :: second :: rest) = (line ++ ['\r']) :: withReturns (second :: rest) := rfl

theorem withReturns_concat (front : List Text) (last : Text) :
    withReturns (front ++ [last]) = front.map (· ++ ['\r']) ++ [last] := by
  induction front with
  | nil => rfl
  | cons line front ih =>
      cases front with
      | nil => rfl
      | cons second front =>
          rw [List.cons_append, List.cons_append, withReturns_cons_cons, ← List.cons_append, ih]
          rfl

theorem join_crlf (lines : List Text) :
    Text.join ['\r', '\n'] lines = Text.join ['\n'] (withReturns lines) := by
  induction lines with
  | nil => rfl
  | cons line lines ih =>
      cases lines with
      | nil => simp [withReturns]
      | cons second lines =>
          obtain ⟨first, rest, hrest⟩ :
              ∃ first rest, withReturns (second :: lines) = first :: rest := by
            cases lines <;> exact ⟨_, _, rfl⟩
          rw [Text.join_cons_cons, ih, withReturns_cons_cons, hrest, Text.join_cons_cons]
          simp

/-- The pieces of a written text. -/
theorem pieces_toText {l : LinedText} (hne : l.lines ≠ [])
    (hbreak : ∀ line ∈ l.lines, '\n' ∉ line) :
    Text.pieces '\n' l.toText =
      match l.lineBreak with
      | .lf => l.lines
      | .crlf => withReturns l.lines := by
  obtain ⟨lines, lineBreak⟩ := l
  cases lineBreak with
  | lf => exact Text.pieces_join hne hbreak
  | crlf =>
      obtain ⟨front, last, rfl⟩ : ∃ front last, lines = front ++ [last] := by
        rcases List.eq_nil_or_concat lines with hnil | ⟨front, last, hlines⟩
        · exact absurd hnil hne
        · exact ⟨front, last, by rw [hlines, List.concat_eq_append]⟩
      simp only [toText, LineBreak.text]
      rw [join_crlf, withReturns_concat]
      apply Text.pieces_join (by simp)
      intro part hpart
      simp only [List.mem_append, List.mem_map, List.mem_singleton] at hpart
      rcases hpart with ⟨line, hline, rfl⟩ | rfl
      · simpa using hbreak line (by simp [hline])
      · exact hbreak _ (by simp)

end LinedText

end Transplant
