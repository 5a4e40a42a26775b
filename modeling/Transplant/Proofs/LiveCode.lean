import Transplant.Lexical
import Transplant.Proofs.Lines

/-!
# Live code

The live code of a text is the text with a blank in the place of every character that stands inside
a string literal or a comment.  Line breaks stay where they are, so the lines of the live code are
the lines of the text.  A scan that comes to the end of a line needs to remember its state only:
what a line break does to it does not depend on the character that follows.

Brackets are nested in a text if every closing bracket of its live code closes the bracket that was
opened last, and none stays open.
-/

namespace Transplant

namespace LexState

/-- The live code of a text, from a state on. -/
def blanked : LexState → Text → Text
  | _, [] => []
  | state, c :: rest =>
    let (live, next) := state.step c rest.head?
    (if live || c == '\n' then c else ' ') :: next.blanked rest

def behind : LexState → Text → LexState
  | state, [] => state
  | state, c :: rest => (state.step c rest.head?).2.behind rest

variable (state : LexState)

@[simp]
theorem length_blanked (t : Text) : (state.blanked t).length = t.length := by
  induction t generalizing state with
  | nil => rfl
  | cons c t ih => simp [blanked, ih]

/-- Blanking keeps the places of the line breaks. -/
theorem count_take_blanked (t : Text) (n : Nat) :
    ((state.blanked t).take n).count '\n' = (t.take n).count '\n' := by
  induction t generalizing state n with
  | nil => rfl
  | cons c t ih =>
      cases n with
      | zero => rfl
      | succ n =>
          simp only [blanked, List.take_succ_cons, List.count_cons, ih]
          by_cases hc : c = '\n'
          · simp [hc]
          · cases (state.step c t.head?).1 <;> simp [hc]

theorem count_blanked (t : Text) : (state.blanked t).count '\n' = t.count '\n' := by
  have htake := count_take_blanked state t t.length
  rwa [List.take_length, List.take_of_length_le (by simp)] at htake

theorem getElem?_blanked_eq_break_iff (t : Text) (n : Nat) :
    (state.blanked t)[n]? = some '\n' ↔ t[n]? = some '\n' := by
  induction t generalizing state n with
  | nil => rfl
  | cons c t ih =>
      cases n with
      | zero =>
          by_cases hc : c = '\n'
          · simp [blanked, hc]
          · cases hlive : (state.step c t.head?).1 <;> simp [blanked, hlive, hc]
      | succ n => simpa [blanked] using ih _ n

/-- A line break does not look at the character that follows it. -/
theorem step_break (next next' : Option Char) :
    state.step '\n' next = state.step '\n' next' := by
  cases state <;> simp [step]

/-- Texts that are empty or end with a line break. -/
def EndsLine (t : Text) : Prop :=
  t = [] ∨ t.getLast? = some '\n'

theorem EndsLine.of_cons {c : Char} {t : Text} (hends : EndsLine (c :: t)) : EndsLine t := by
  cases t with
  | nil => exact .inl rfl
  | cons d t =>
      right
      simpa [EndsLine] using hends

/-- The step over the first character of whole lines does not look at what follows the lines. -/
theorem step_head? {c : Char} {above : Text} (hends : EndsLine (c :: above)) (t : Text) :
    state.step c (above ++ t).head? = state.step c above.head? := by
  cases above with
  | nil =>
      obtain rfl : c = '\n' := by simpa [EndsLine] using hends
      exact step_break state _ _
  | cons d above => rfl

/-- The live code of whole lines and of what follows them. -/
theorem blanked_append {above : Text} (hends : EndsLine above) (t : Text) :
    state.blanked (above ++ t) = state.blanked above ++ (state.behind above).blanked t := by
  induction above generalizing state with
  | nil => rfl
  | cons c above ih =>
      simp only [List.cons_append, blanked, behind, step_head? state hends t, ih _ hends.of_cons]

end LexState

/-! ## Lines -/

namespace Text

/-- The lines above a line, each with its line break. -/
def linesAbove (t : Text) (line : Nat) : Text :=
  ((t.pieces '\n').take line).flatMap (· ++ ['\n'])

def fromLine (t : Text) (line : Nat) : Text :=
  join ['\n'] ((t.pieces '\n').drop line)

theorem linesAbove_append_fromLine {t : Text} {line : Nat} (hline : line < (t.pieces '\n').length) :
    t.linesAbove line ++ t.fromLine line = t := by
  suffices hjoin : ∀ (parts : List Text) (line : Nat), line < parts.length →
      (parts.take line).flatMap (· ++ ['\n']) ++ join ['\n'] (parts.drop line) =
        join ['\n'] parts by
    rw [linesAbove, fromLine, hjoin _ _ hline, join_pieces]
  intro parts
  induction parts with
  | nil => simp
  | cons part parts ih =>
      intro line hline
      cases line with
      | zero => rfl
      | succ line =>
          have hshorter : line < parts.length := by simpa using hline
          obtain ⟨second, rest, rfl⟩ : ∃ second rest, parts = second :: rest :=
            List.exists_cons_of_ne_nil (by rintro rfl; simp at hshorter)
          rw [List.take_succ_cons, List.flatMap_cons, List.drop_succ_cons, List.append_assoc,
            ih line hshorter, join_cons_cons]

theorem endsLine_linesAbove (t : Text) (line : Nat) : LexState.EndsLine (t.linesAbove line) := by
  rw [linesAbove]
  obtain hnil | ⟨above, last, hlast⟩ := List.eq_nil_or_concat ((t.pieces '\n').take line)
  · exact .inl (by rw [hnil]; rfl)
  · right
    rw [hlast]
    simp [List.getLast?_append]

theorem count_linesAbove {t : Text} {line : Nat} (hline : line ≤ (t.pieces '\n').length) :
    (t.linesAbove line).count '\n' = line := by
  have hclean : ∀ piece ∈ (t.pieces '\n').take line, '\n' ∉ piece :=
    fun piece hpiece => not_mem_of_mem_pieces (List.mem_of_mem_take hpiece)
  have hlength : ((t.pieces '\n').take line).length = line := by
    rw [List.length_take, Nat.min_eq_left hline]
  rw [linesAbove]
  conv_rhs => rw [← hlength]
  generalize (t.pieces '\n').take line = above at hclean
  induction above with
  | nil => rfl
  | cons piece above ih =>
      rw [List.forall_mem_cons] at hclean
      rw [List.flatMap_cons, List.count_append, ih hclean.2, List.count_append,
        List.count_eq_zero_of_not_mem hclean.1, List.length_cons]
      simp [Nat.add_comm]

theorem length_pieces (sep : Char) (t : Text) :
    (pieces sep t).length = t.count sep + 1 := by
  induction t with
  | nil => rfl
  | cons c t ih =>
      by_cases hc : c = sep
      · subst hc
        rw [pieces_cons_sep, List.length_cons, ih, List.count_cons_self]
      · obtain ⟨piece, rest, hpieces⟩ := List.exists_cons_of_ne_nil (pieces_ne_nil sep t)
        rw [pieces_cons_of_ne hc hpieces, List.count_cons_of_ne hc, ← ih, hpieces]
        rfl

theorem count_fromLine {t : Text} {line : Nat} (hline : line < (t.pieces '\n').length) :
    line + (t.fromLine line).count '\n' + 1 = (t.pieces '\n').length := by
  have hcount := congrArg (List.count '\n') (linesAbove_append_fromLine hline)
  rw [List.count_append, count_linesAbove (Nat.le_of_lt hline)] at hcount
  rw [length_pieces, ← hcount]

/-- Behind whole lines, the pieces of a text go on with the pieces of the rest. -/
theorem drop_pieces_append {above : Text} (hends : LexState.EndsLine above) (t : Text) :
    ((above ++ t).pieces '\n').drop (above.count '\n') = t.pieces '\n' := by
  induction above with
  | nil => rfl
  | cons c above ih =>
      have hrest := ih hends.of_cons
      by_cases hc : c = '\n'
      · subst hc
        simpa [pieces_cons_sep] using hrest
      · obtain ⟨piece, rest, hpieces⟩ := List.exists_cons_of_ne_nil
          (pieces_ne_nil '\n' (above ++ t))
        have hbreak : 0 < above.count '\n' := by
          rw [List.count_pos_iff]
          obtain hnil | hlast := hends.of_cons
          · subst hnil
            simp [LexState.EndsLine, hc] at hends
          · exact List.mem_of_getLast? hlast
        obtain ⟨breaks, hbreaks⟩ : ∃ breaks, above.count '\n' = breaks + 1 :=
          Nat.exists_eq_add_one.2 hbreak
        rw [hpieces, hbreaks, List.drop_succ_cons] at hrest
        rw [List.cons_append, pieces_cons_of_ne hc hpieces, List.count_cons_of_ne hc, hbreaks,
          List.drop_succ_cons, hrest]

/-- The first lines of a text, up to the line on which a character stands. -/
theorem join_take_pieces (t : Text) (n : Nat) :
    join ['\n'] ((t.pieces '\n').take ((t.take n).count '\n' + 1)) =
      t.take n ++ (t.drop n).takeWhile (· ≠ '\n') := by
  induction t generalizing n with
  | nil => simp [pieces]
  | cons c t ih =>
      obtain ⟨piece, rest, hpieces⟩ := List.exists_cons_of_ne_nil (pieces_ne_nil '\n' t)
      by_cases hc : c = '\n'
      · subst hc
        cases n with
        | zero => simp [pieces_cons_sep]
        | succ n =>
            have hrest := ih n
            rw [hpieces, List.take_succ_cons] at hrest
            rw [pieces_cons_sep, hpieces, List.take_succ_cons, List.take_succ_cons,
              List.count_cons_self, List.take_succ_cons, join_cons_cons, hrest]
            rfl
      · have hjoin : ∀ rest : List Text,
            join ['\n'] ((c :: piece) :: rest) = c :: join ['\n'] (piece :: rest) := by
          intro rest
          cases rest <;> simp
        rw [pieces_cons_of_ne hc hpieces, List.take_succ_cons, hjoin]
        cases n with
        | zero =>
            have hrest := ih 0
            rw [hpieces, List.take_succ_cons] at hrest
            simpa [hc] using hrest
        | succ n =>
            have hrest := ih n
            rw [hpieces, List.take_succ_cons] at hrest
            rw [List.take_succ_cons, List.count_cons_of_ne hc, hrest]
            rfl

end Text

/-! ## The live lines of a text -/

def liveCode (t : Text) : Text :=
  LexState.code.blanked t

def stateAt (t : Text) (line : Nat) : LexState :=
  LexState.code.behind (t.linesAbove line)

/-- From a line that starts with code, the live code of a text is the live code of its rest. -/
theorem liveCode_eq {t : Text} {line : Nat} (hline : line < (t.pieces '\n').length)
    (hcode : stateAt t line = .code) :
    liveCode t = liveCode (t.linesAbove line) ++ liveCode (t.fromLine line) := by
  conv_lhs => rw [liveCode, ← Text.linesAbove_append_fromLine hline]
  rw [LexState.blanked_append _ (Text.endsLine_linesAbove t line), ← stateAt, hcode]
  rfl

theorem endsLine_blanked {above : Text} (state : LexState) (hends : LexState.EndsLine above) :
    LexState.EndsLine (state.blanked above) := by
  obtain rfl | hlast := hends
  · exact .inl rfl
  · right
    rw [List.getLast?_eq_getElem?] at hlast ⊢
    rw [LexState.length_blanked]
    exact (LexState.getElem?_blanked_eq_break_iff state above _).2 hlast

/-- From a line that starts with code, the live lines of a text are those of its rest. -/
theorem drop_pieces_liveCode {t : Text} {line : Nat} (hline : line < (t.pieces '\n').length)
    (hcode : stateAt t line = .code) :
    ((liveCode t).pieces '\n').drop line = (liveCode (t.fromLine line)).pieces '\n' := by
  have hends : LexState.EndsLine (liveCode (t.linesAbove line)) :=
    endsLine_blanked _ (Text.endsLine_linesAbove t line)
  have hbreaks : (liveCode (t.linesAbove line)).count '\n' = line := by
    rw [liveCode, LexState.count_blanked, Text.count_linesAbove (Nat.le_of_lt hline)]
  have hdrop := Text.drop_pieces_append hends (liveCode (t.fromLine line))
  rwa [hbreaks, ← liveCode_eq hline hcode] at hdrop

/-! ## Nested brackets -/

/-- The bracket that closes another. -/
def closing? : Char → Option Char
  | '(' => some ')'
  | '[' => some ']'
  | '\x7b' => some '\x7d'
  | _ => none

/-- The brackets that are open behind a text, the last one first; `none` if a closing bracket does
not close the one that was opened last. -/
def openBehind : List Char → Text → Option (List Char)
  | opened, [] => some opened
  | opened, c :: rest =>
    if (closing? c).isSome then openBehind (c :: opened) rest
    else if c = ')' ∨ c = ']' ∨ c = '\x7d' then
      match opened with
      | last :: opened => if closing? last = some c then openBehind opened rest else none
      | [] => none
    else openBehind opened rest

/-- Outside of string literals and comments the brackets of a text are balanced and nested. -/
def BracketsNested (t : Text) : Prop :=
  openBehind [] (liveCode t) = some []

instance (t : Text) : Decidable (BracketsNested t) :=
  inferInstanceAs (Decidable (_ = _))

theorem openBehind_append (opened : List Char) (above t : Text) :
    openBehind opened (above ++ t) = (openBehind opened above).bind (openBehind · t) := by
  induction above generalizing opened with
  | nil => rfl
  | cons c above ih =>
      simp only [List.cons_append, openBehind]
      split
      · exact ih _
      · split
        · cases opened with
          | nil => rfl
          | cons last opened =>
              simp only
              split
              · exact ih _
              · rfl
        · exact ih _

theorem eq_brace_iff_of_closing? {opening close : Char} (hpair : closing? opening = some close) :
    opening = '\x7b' ↔ close = '\x7d' := by
  unfold closing? at hpair
  split at hpair <;> cases hpair <;> decide

/-- Every brace that is opened is closed or stays open. -/
theorem count_openBehind {opened opened' : List Char} {t : Text}
    (hnested : openBehind opened t = some opened') :
    opened.count '\x7b' + t.count '\x7b' = opened'.count '\x7b' + t.count '\x7d' := by
  induction t generalizing opened with
  | nil =>
      cases hnested
      rfl
  | cons c t ih =>
      simp only [openBehind] at hnested
      rw [List.count_cons, List.count_cons]
      split at hnested
      · rename_i hopens
        have hclose : c ≠ '\x7d' := by
          rintro rfl
          cases hopens
        have hrest := ih hnested
        rw [List.count_cons] at hrest
        simp only [beq_iff_eq, hclose, if_false] at hrest ⊢
        omega
      · rename_i hopens
        have hbrace : c ≠ '\x7b' := by
          rintro rfl
          exact hopens rfl
        split at hnested
        · cases opened with
          | nil => cases hnested
          | cons last opened =>
              simp only at hnested
              split at hnested
              · rename_i hpair
                have hrest := ih hnested
                have hlast := eq_brace_iff_of_closing? hpair
                simp only [List.count_cons, beq_iff_eq, hlast, hbrace, if_false]
                omega
              · cases hnested
        · rename_i hclosing
          have hclose : c ≠ '\x7d' := fun hc => hclosing (.inr (.inr hc))
          simpa [hbrace, hclose] using ih hnested

/-- In a text with nested brackets, the rest from a line of code on closes every brace that it
opens. -/
theorem BracketsNested.count_le {t : Text} {line : Nat} (hnested : BracketsNested t)
    (hline : line < (t.pieces '\n').length) (hcode : stateAt t line = .code) :
    (liveCode (t.fromLine line)).count '\x7b' ≤ (liveCode (t.fromLine line)).count '\x7d' := by
  rw [BracketsNested, liveCode_eq hline hcode, openBehind_append] at hnested
  obtain ⟨opened, -, hrest⟩ := Option.bind_eq_some_iff.1 hnested
  have hcount := count_openBehind hrest
  rw [List.count_nil] at hcount
  omega

end Transplant
