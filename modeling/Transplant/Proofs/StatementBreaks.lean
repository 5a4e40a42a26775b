import Transplant.Proofs.LineBreaks
import Transplant.Proofs.OutlineBraces

/-!
# The end of a statement in a text with either line break

The scan for the end of a statement passes the carriage return of a `crlf` break in every state but
one.  Behind a backslash inside plain quotation marks the carriage return is taken for the escaped
character, and the line feed behind it ends the string, whereas a line feed alone would be escaped
itself.  As long as no break on the way is escaped like that, the scans of both texts run in step.
-/

namespace Transplant

namespace Text

theorem crlf_nil : crlf [] = [] := rfl

theorem crlf_cons_break (t : Text) : crlf ('\n' :: t) = '\r' :: '\n' :: crlf t := rfl

theorem crlf_cons {c : Char} (hc : c ≠ '\n') (t : Text) : crlf (c :: t) = c :: crlf t := by
  rw [crlf, expandChar, List.flatMap_cons, if_neg hc]
  rfl

theorem crlf_append (s t : Text) : crlf (s ++ t) = crlf s ++ crlf t := by
  simp [crlf, expandChar]

theorem count_crlf (t : Text) : t.crlf.count '\n' = t.count '\n' := by
  induction t with
  | nil => rfl
  | cons c t ih =>
      by_cases hc : c = '\n'
      · subst hc
        rw [crlf_cons_break, List.count_cons_of_ne (by decide), List.count_cons_self,
          List.count_cons_self, ih]
      · rw [crlf_cons hc, List.count_cons_of_ne hc, List.count_cons_of_ne hc, ih]

/-- The last character of a text keeps its place at the end. -/
theorem count_dropLast_crlf (t : Text) : t.crlf.dropLast.count '\n' = t.dropLast.count '\n' := by
  obtain rfl | ⟨front, c, rfl⟩ := List.eq_nil_or_concat t
  · rfl
  · rw [List.concat_eq_append, crlf_append, List.dropLast_concat]
    by_cases hc : c = '\n'
    · subst hc
      have hbreak : crlf ['\n'] = ['\r'] ++ ['\n'] := rfl
      rw [hbreak, ← List.append_assoc, List.dropLast_concat, List.count_append, count_crlf]
      rfl
    · have hother : crlf [c] = [c] := crlf_cons hc []
      rw [hother, List.dropLast_concat, count_crlf]

theorem count_dropLast_of_ne {t : Text} {c : Char} (hlast : t.getLast? ≠ some c) :
    t.dropLast.count c = t.count c := by
  obtain rfl | ⟨front, d, rfl⟩ := List.eq_nil_or_concat t
  · rfl
  · have hne : d ≠ c := by simpa using hlast
    rw [List.concat_eq_append, List.dropLast_concat, List.count_append,
      List.count_singleton, if_neg (by simpa using hne), Nat.add_zero]

/-- The first character of a text shows but for a line break. -/
theorem head?_crlf_eq_some_iff {t : Text} {c : Char} (hbreak : c ≠ '\n') (hreturn : c ≠ '\r') :
    t.crlf.head? = some c ↔ t.head? = some c := by
  cases t with
  | nil => rfl
  | cons d t =>
      by_cases hd : d = '\n'
      · subst hd
        simp [crlf_cons_break, hbreak.symm, hreturn.symm]
      · rw [crlf_cons hd]
        rfl

/-- A text written backwards, with `crlf` line breaks. -/
def backwardCrlf (t : Text) : Text :=
  t.expandChar '\n' ['\n', '\r']

theorem backwardCrlf_cons_break (t : Text) :
    backwardCrlf ('\n' :: t) = '\n' :: '\r' :: backwardCrlf t := rfl

theorem backwardCrlf_cons {c : Char} (hc : c ≠ '\n') (t : Text) :
    backwardCrlf (c :: t) = c :: backwardCrlf t := by
  rw [backwardCrlf, expandChar, List.flatMap_cons, if_neg hc]
  rfl

/-- The line break is a blank of either kind. -/
theorem dropWhile_backwardCrlf (t : Text) :
    (backwardCrlf t).dropWhile isBlank = backwardCrlf (t.dropWhile isBlank) := by
  induction t with
  | nil => rfl
  | cons c t ih =>
      by_cases hc : c = '\n'
      · subst hc
        have hbreak : isBlank '\n' := by decide
        have hreturn : isBlank '\r' := by decide
        rw [backwardCrlf_cons_break, List.dropWhile_cons_of_pos hbreak,
          List.dropWhile_cons_of_pos hreturn, List.dropWhile_cons_of_pos hbreak, ih]
      · rw [backwardCrlf_cons hc]
        by_cases hblank : isBlank c
        · rw [List.dropWhile_cons_of_pos hblank, List.dropWhile_cons_of_pos hblank, ih]
        · rw [List.dropWhile_cons_of_neg hblank, List.dropWhile_cons_of_neg hblank,
            backwardCrlf_cons hc]

end Text

/-! ## Steps of the scan -/

namespace LexState

/-- Whether a scan meets a line break directly behind a backslash inside plain quotation marks. -/
def escapesBreak : LexState → Text → Bool
  | _, [] => false
  | state, c :: rest =>
    (c = '\n' && (state = escape '\x27' || state = escape '"')) ||
      (state.step c rest.head?).2.escapesBreak rest

theorem escapesBreak_take_succ {state : LexState} {c : Char} {rest : Text} {n : Nat}
    (hplain : state.escapesBreak ((c :: rest).take (n + 1)) = false) :
    state.escapesBreak [c] = false ∧
      (state.step c rest.head?).2.escapesBreak (rest.take n) = false := by
  rw [List.take_succ_cons, escapesBreak, Bool.or_eq_false_iff] at hplain
  obtain ⟨hhere, hrest⟩ := hplain
  refine ⟨by rw [escapesBreak, hhere]; rfl, ?_⟩
  cases n with
  | zero => rfl
  | succ n => rwa [List.head?_take, if_neg (Nat.succ_ne_zero n)] at hrest

/-- Escaped characters are not live. -/
theorem escapesBreak_of_live {state : LexState} {c : Char} {next : Option Char}
    (hlive : (state.step c next).1 = true) : state.escapesBreak [c] = false := by
  cases state with
  | escape quote => cases hlive
  | _ => simp [escapesBreak]

/-- What is true wherever a scan of code stands: strings have one of three quotation marks, and the
mark that closes a block comment has its second character. -/
def Sound : LexState → Text → Prop
  | literal quote, _ => quote ∈ ['\x27', '"', '\x60']
  | escape quote, _ => quote ∈ ['\x27', '"', '\x60']
  | blockClosing, t => t.head? = some '/'
  | code, _ | lineComment, _ | blockOpening, _ | blockComment, _ => True

theorem Sound.step {state : LexState} {c : Char} {rest : Text}
    (hsound : state.Sound (c :: rest)) : (state.step c rest.head?).2.Sound rest := by
  cases state with
  | code =>
      simp only [LexState.step]
      split
      · rename_i hquote
        simpa [Sound] using hquote
      · split
        · trivial
        · split <;> trivial
  | literal quote =>
      simp only [LexState.step]
      split
      · exact hsound
      · split
        · trivial
        · split
          · trivial
          · exact hsound
  | escape quote => exact hsound
  | lineComment =>
      simp only [LexState.step]
      split <;> trivial
  | blockOpening => trivial
  | blockComment =>
      simp only [LexState.step]
      split
      · rename_i hclosing
        exact hclosing.2
      · trivial
  | blockClosing => trivial

/-- Only the marks of comments are told by their second character. -/
theorem step_head?_crlf (state : LexState) (c : Char) (rest : Text) :
    state.step c rest.crlf.head? = state.step c rest.head? := by
  have hslash : rest.crlf.head? = some '/' ↔ rest.head? = some '/' :=
    Text.head?_crlf_eq_some_iff (by decide) (by decide)
  have hstar : rest.crlf.head? = some '*' ↔ rest.head? = some '*' :=
    Text.head?_crlf_eq_some_iff (by decide) (by decide)
  cases state <;> simp only [step, hslash, hstar]

/-- A line break is the same behind a carriage return, unless it is escaped. -/
theorem step_break_behind_return {state : LexState} {rest : Text}
    (hsound : state.Sound ('\n' :: rest)) (hplain : state.escapesBreak ['\n'] = false)
    (next next' next'' : Option Char) :
    (state.step '\r' next).2.step '\n' next' = state.step '\n' next'' := by
  cases state with
  | code => rfl
  | literal quote =>
      simp only [Sound, List.mem_cons, List.not_mem_nil, or_false] at hsound
      obtain rfl | rfl | rfl := hsound <;> rfl
  | escape quote =>
      simp only [Sound, List.mem_cons, List.not_mem_nil, or_false] at hsound
      obtain rfl | rfl | rfl := hsound
      · simp [escapesBreak] at hplain
      · simp [escapesBreak] at hplain
      · rfl
  | lineComment => rfl
  | blockOpening => rfl
  | blockComment => rfl
  | blockClosing => cases hsound

/-- Behind a line break that is not live the next one is not live either. -/
theorem step_break_dead {state : LexState} {rest : Text} (hsound : state.Sound ('\n' :: rest))
    (hplain : state.escapesBreak ['\n'] = false) {next : Option Char}
    (hdead : (state.step '\n' next).1 = false) (next' : Option Char) :
    ((state.step '\n' next).2.step '\n' next').1 = false := by
  cases state with
  | code => cases hdead
  | literal quote =>
      simp only [Sound, List.mem_cons, List.not_mem_nil, or_false] at hsound
      obtain rfl | rfl | rfl := hsound
      · cases hdead
      · cases hdead
      · rfl
  | escape quote =>
      simp only [Sound, List.mem_cons, List.not_mem_nil, or_false] at hsound
      obtain rfl | rfl | rfl := hsound
      · simp [escapesBreak] at hplain
      · simp [escapesBreak] at hplain
      · rfl
  | lineComment => cases hdead
  | blockOpening => rfl
  | blockComment => rfl
  | blockClosing => cases hsound

end LexState

/-! ## The end of a statement -/

namespace Statement

/-- Whether an expression goes on is told by two characters of the line in front and by the lines
behind. -/
theorem continues_congr {current current' rest rest' : Text}
    (hcurrent : (current'.dropWhile Text.isBlank).take 2 = (current.dropWhile Text.isBlank).take 2)
    (hrest : rest'.lines = rest.lines) : continues current' rest' = continues current rest := by
  rw [continues, continues, hrest]
  rcases hline : current.dropWhile Text.isBlank with _ | ⟨c, _ | ⟨d, line⟩⟩ <;>
    rcases hline' : current'.dropWhile Text.isBlank with _ | ⟨c', _ | ⟨d', line'⟩⟩ <;>
    rw [hline, hline'] at hcurrent <;> cases hcurrent
  · rfl
  · by_cases harrow : c = '>' ∧ d = '='
    · obtain ⟨rfl, rfl⟩ := harrow
      rfl
    · split <;> split <;> simp_all

theorem continues_crlf (current : Text) {rest : Text} (hreturn : '\r' ∉ rest) :
    continues ('\r' :: current.backwardCrlf) rest.crlf = continues current rest := by
  apply continues_congr _ (Text.lines_crlf hreturn)
  have hblank : Text.isBlank '\r' := by decide
  rw [List.dropWhile_cons_of_pos hblank, Text.dropWhile_backwardCrlf]
  cases hline : current.dropWhile Text.isBlank with
  | nil => rfl
  | cons c line =>
      have hc : c ≠ '\n' := by
        rintro rfl
        have hhead := List.head?_dropWhile_not Text.isBlank current
        rw [hline] at hhead
        cases hhead
      rw [Text.backwardCrlf_cons hc, List.take_succ_cons, List.take_succ_cons]
      cases line with
      | nil => rfl
      | cons d line =>
          by_cases hd : d = '\n'
          · subst hd
            rfl
          · rw [Text.backwardCrlf_cons hd]
            rfl

section Step

variable (block : Bool) {state next : LexState} (depth : Depth) (current : Text) (offset : Nat)
variable {c : Char} {rest : Text}

theorem endFrom_dead (hstep : state.step c rest.head? = (false, next)) :
    endFrom block state depth current offset (c :: rest) =
      endFrom block next depth (c :: current) (offset + 1) rest := by
  rw [endFrom, hstep]
  rfl

theorem endFrom_live (hstep : state.step c rest.head? = (true, next)) :
    endFrom block state depth current offset (c :: rest) =
      if c = '\x7d' ∧ block ∧ (depth.after c).closesBlock then offset
      else if c = ';' ∧ depth.atTop then offset
      else if c = '\n' then
        if depth.atTop && !block && !continues current rest then offset - 1
        else endFrom block next depth [] (offset + 1) rest
      else endFrom block next (depth.after c) (c :: current) (offset + 1) rest := by
  rw [endFrom, hstep]
  rfl

/-- A live line break ends the scan, or it starts the next line. -/
theorem endFrom_break (hstep : state.step '\n' rest.head? = (true, next)) :
    endFrom block state depth current offset ('\n' :: rest) =
      if depth.atTop && !block && !continues current rest then offset - 1
      else endFrom block next depth [] (offset + 1) rest := by
  have hbrace : ¬('\n' = '\x7d' ∧ block ∧ (depth.after '\n').closesBlock) := by simp
  have hsemicolon : ¬('\n' = ';' ∧ depth.atTop) := by simp
  rw [endFrom_live _ _ _ _ hstep, if_neg hbrace, if_neg hsemicolon, if_pos rfl]

/-- A carriage return is passed. -/
theorem endFrom_return (state : LexState) (rest : Text) :
    endFrom block state depth current offset ('\r' :: rest) =
      endFrom block (state.step '\r' rest.head?).2 depth ('\r' :: current) (offset + 1) rest := by
  rcases hstep : state.step '\r' rest.head? with ⟨live, next⟩
  cases live with
  | false => exact endFrom_dead block depth current offset hstep
  | true => exact endFrom_live block depth current offset hstep

/-- The carriage return of a line break is passed. -/
theorem endFrom_crlf_break (state : LexState) (rest : Text) :
    endFrom block state depth current offset (Text.crlf ('\n' :: rest)) =
      endFrom block (state.step '\r' (some '\n')).2 depth ('\r' :: current) (offset + 1)
        ('\n' :: rest.crlf) := by
  rw [Text.crlf_cons_break, endFrom_return]
  rfl

end Step

theorem le_endFrom (block : Bool) (state : LexState) (depth : Depth) (current : Text)
    (offset : Nat) (t : Text) : offset ≤ endFrom block state depth current offset t + 1 := by
  cases Nat.eq_zero_or_pos offset with
  | inl hzero => omega
  | inr hpos =>
      obtain ⟨n, -, hend, -⟩ := endFrom_spec block state depth current hpos t
      omega

section Lockstep

variable {block : Bool} {state next : LexState} {depth depth' : Depth}
variable {current current' passed rest : Text} {c : Char}

/-- The scans of a text with either line break, from the same place in both, end behind as many line
breaks. -/
def SameBreaks (block : Bool) (state : LexState) (depth : Depth) (current passed rest : Text) :
    Prop :=
  ((passed ++ rest).crlf.take (endFrom block state depth current.backwardCrlf
      passed.crlf.length rest.crlf)).count '\n' =
    ((passed ++ rest).take (endFrom block state depth current passed.length rest)).count '\n'

theorem sameBreaks_nil : SameBreaks block state depth current passed [] := by
  rw [SameBreaks, List.append_nil, Text.crlf_nil, endFrom, endFrom, ← List.dropLast_eq_take,
    ← List.dropLast_eq_take, Text.count_dropLast_crlf]

/-- Both scans go on behind a character. -/
theorem SameBreaks.of_next (hnext : SameBreaks block next depth' current' (passed ++ [c]) rest)
    (hend : endFrom block state depth current passed.length (c :: rest) =
      endFrom block next depth' current' (passed ++ [c]).length rest)
    (hend' : endFrom block state depth current.backwardCrlf passed.crlf.length
        (Text.crlf (c :: rest)) =
      endFrom block next depth' current'.backwardCrlf (Text.crlf (passed ++ [c])).length
        rest.crlf) :
    SameBreaks block state depth current passed (c :: rest) := by
  have hpassed : passed ++ c :: rest = (passed ++ [c]) ++ rest := by simp
  rw [SameBreaks, hend, hend', hpassed]
  exact hnext

/-- Both scans end on a character. -/
theorem sameBreaks_of_end
    (hend : endFrom block state depth current passed.length (c :: rest) = passed.length)
    (hend' : endFrom block state depth current.backwardCrlf passed.crlf.length
      (Text.crlf (c :: rest)) = passed.crlf.length) :
    SameBreaks block state depth current passed (c :: rest) := by
  rw [SameBreaks, hend, hend', Text.crlf_append, List.take_left, List.take_left, Text.count_crlf]

/-- A character that is no line break is met in the same way. -/
theorem sameBreaks_cons (hc : c ≠ '\n')
    (hgoes : ∀ depth' current', endFrom block state depth current passed.length (c :: rest) =
        endFrom block (state.step c rest.head?).2 depth' current' (passed ++ [c]).length rest →
      SameBreaks block (state.step c rest.head?).2 depth' current' (passed ++ [c]) rest) :
    SameBreaks block state depth current passed (c :: rest) := by
  have hlength : (passed ++ [c]).length = passed.length + 1 := by simp
  have hcrlf : (Text.crlf (passed ++ [c])).length = passed.crlf.length + 1 := by
    rw [Text.crlf_append, Text.crlf_cons hc]
    simp [Text.crlf_nil]
  have hhead := LexState.step_head?_crlf state c rest
  rcases hstep : state.step c rest.head? with ⟨live, next⟩
  rw [hstep] at hgoes hhead
  cases live with
  | false =>
      have hend : endFrom block state depth current passed.length (c :: rest) =
          endFrom block next depth (c :: current) (passed ++ [c]).length rest := by
        rw [endFrom_dead _ _ _ _ hstep, hlength]
      apply (hgoes depth (c :: current) hend).of_next hend
      rw [Text.crlf_cons hc, endFrom_dead _ _ _ _ hhead, hcrlf, Text.backwardCrlf_cons hc]
  | true =>
      by_cases hbrace : c = '\x7d' ∧ block ∧ (depth.after c).closesBlock
      · apply sameBreaks_of_end
        · rw [endFrom_live _ _ _ _ hstep, if_pos hbrace]
        · rw [Text.crlf_cons hc, endFrom_live _ _ _ _ hhead, if_pos hbrace]
      · by_cases hsemicolon : c = ';' ∧ depth.atTop
        · apply sameBreaks_of_end
          · rw [endFrom_live _ _ _ _ hstep, if_neg hbrace, if_pos hsemicolon]
          · rw [Text.crlf_cons hc, endFrom_live _ _ _ _ hhead, if_neg hbrace, if_pos hsemicolon]
        · have hend : endFrom block state depth current passed.length (c :: rest) =
              endFrom block next (depth.after c) (c :: current) (passed ++ [c]).length rest := by
            rw [endFrom_live _ _ _ _ hstep, if_neg hbrace, if_neg hsemicolon, if_neg hc, hlength]
          apply (hgoes (depth.after c) (c :: current) hend).of_next hend
          rw [Text.crlf_cons hc, endFrom_live _ _ _ _ hhead, if_neg hbrace, if_neg hsemicolon,
            if_neg hc, hcrlf, Text.backwardCrlf_cons hc]

/-- Both scans end in front of a line break, the one behind its carriage return. -/
theorem sameBreaks_of_end_break (hpassed : passed.getLast? ≠ some '\n')
    (hend : endFrom block state depth current passed.length ('\n' :: rest) = passed.length - 1)
    (hend' : endFrom block state depth current.backwardCrlf passed.crlf.length
      (Text.crlf ('\n' :: rest)) = passed.crlf.length) :
    SameBreaks block state depth current passed ('\n' :: rest) := by
  rw [SameBreaks, hend, hend', Text.crlf_append, List.take_left, Text.count_crlf,
    List.take_append_of_le_length (Nat.sub_le ..), ← List.dropLast_eq_take,
    Text.count_dropLast_of_ne hpassed]

/-- A line break that is not escaped is met in the same way. -/
theorem sameBreaks_cons_break (hreturn : '\r' ∉ rest) (hsound : state.Sound ('\n' :: rest))
    (hplain : state.escapesBreak ['\n'] = false)
    (hlast : passed.getLast? = some '\n' → current = [] ∨ (state.step '\n' none).1 = false)
    (hgoes : ∀ current', (current' = [] ∨ (state.step '\n' rest.head?).1 = false) →
      endFrom block state depth current passed.length ('\n' :: rest) =
        endFrom block (state.step '\n' rest.head?).2 depth current' (passed ++ ['\n']).length
          rest →
      SameBreaks block (state.step '\n' rest.head?).2 depth current' (passed ++ ['\n']) rest) :
    SameBreaks block state depth current passed ('\n' :: rest) := by
  have hlength : (passed ++ ['\n']).length = passed.length + 1 := by simp
  have hcrlf : (Text.crlf (passed ++ ['\n'])).length = passed.crlf.length + 1 + 1 := by
    rw [Text.crlf_append, Text.crlf_cons_break, Text.crlf_nil]
    simp
  have hbehind := LexState.step_break_behind_return hsound hplain (some '\n') rest.crlf.head?
    rest.head?
  have hdead := LexState.step_break state rest.head? none
  rcases hstep : state.step '\n' rest.head? with ⟨live, next⟩
  rw [hstep] at hbehind hgoes hdead
  cases live with
  | false =>
      have hend : endFrom block state depth current passed.length ('\n' :: rest) =
          endFrom block next depth ('\n' :: current) (passed ++ ['\n']).length rest := by
        rw [endFrom_dead _ _ _ _ hstep, hlength]
      apply (hgoes ('\n' :: current) (.inr rfl) hend).of_next hend
      rw [endFrom_crlf_break, endFrom_dead _ _ _ _ hbehind, hcrlf, Text.backwardCrlf_cons_break]
  | true =>
      have hscan := continues_crlf current hreturn
      by_cases hends : depth.atTop && !block && !continues current rest
      · apply sameBreaks_of_end_break
        · -- A line that ends is not empty, so the break in front of it was not the last character.
          intro hbreak
          obtain rfl | hnone := hlast hbreak
          · simp [continues] at hends
          · rw [← hdead] at hnone
            cases hnone
        · rw [endFrom_break _ _ _ _ hstep, if_pos hends]
        · rw [endFrom_crlf_break, endFrom_break _ _ _ _ hbehind, hscan, if_pos hends,
            Nat.add_sub_cancel]
      · have hend : endFrom block state depth current passed.length ('\n' :: rest) =
            endFrom block next depth [] (passed ++ ['\n']).length rest := by
          rw [endFrom_break _ _ _ _ hstep, if_neg hends, hlength]
        apply (hgoes [] (.inl rfl) hend).of_next hend
        rw [endFrom_crlf_break, endFrom_break _ _ _ _ hbehind, hscan, if_neg hends, hcrlf]
        rfl

end Lockstep

/-- The scans of a text with either line break end behind as many line breaks, if no break on the
way is escaped in plain quotation marks. -/
theorem sameBreaks {block : Bool} {state : LexState} {depth : Depth} {current passed rest : Text}
    (hreturn : '\r' ∉ rest) (hsound : state.Sound rest)
    (hlast : passed.getLast? = some '\n' → current = [] ∨ (state.step '\n' none).1 = false)
    (hplain : state.escapesBreak (rest.take
      (endFrom block state depth current passed.length rest + 1 - passed.length)) = false) :
    SameBreaks block state depth current passed rest := by
  induction rest generalizing state depth current passed with
  | nil => exact sameBreaks_nil
  | cons c rest ih =>
      have hclean : '\r' ∉ rest := fun hmem => hreturn (List.mem_cons_of_mem _ hmem)
      have hlength : (passed ++ [c]).length = passed.length + 1 := by simp
      -- What the scan still passes, where it goes on behind the character.
      have hahead : ∀ depth' current', endFrom block state depth current passed.length (c :: rest) =
            endFrom block (state.step c rest.head?).2 depth' current' (passed ++ [c]).length rest →
          state.escapesBreak [c] = false ∧ (state.step c rest.head?).2.escapesBreak (rest.take
            (endFrom block (state.step c rest.head?).2 depth' current' (passed ++ [c]).length rest
              + 1 - (passed ++ [c]).length)) = false := by
        intro depth' current' hend
        have hle := le_endFrom block (state.step c rest.head?).2 depth' current'
          (passed ++ [c]).length rest
        apply LexState.escapesBreak_take_succ
        rw [hend] at hplain
        convert hplain using 3
        omega
      by_cases hc : c = '\n'
      · subst hc
        have hescape : state.escapesBreak ['\n'] = false := by
          rcases hstep : state.step '\n' rest.head? with ⟨live, next⟩
          cases live with
          | false =>
              refine (hahead depth ('\n' :: current) ?_).1
              rw [endFrom_dead _ _ _ _ hstep, hstep, hlength]
          | true => exact LexState.escapesBreak_of_live (by rw [hstep])
        apply sameBreaks_cons_break hclean hsound hescape hlast
        intro current' hdead hend
        apply ih hclean hsound.step _ (hahead depth current' hend).2
        intro _
        exact hdead.imp_right fun hdead => LexState.step_break_dead hsound hescape hdead none
      · apply sameBreaks_cons hc
        intro depth' current' hend
        apply ih hclean hsound.step _ (hahead depth' current' hend).2
        intro hbreak
        exact absurd (by simpa using hbreak) hc

/-- The statement at the front of a text goes over as many line breaks of either kind. -/
theorem lineBreaks_crlf (block : Bool) {t : Text} (hreturn : '\r' ∉ t)
    (hplain : LexState.code.escapesBreak (t.take (endOffset block t + 1)) = false) :
    lineBreaks block t.crlf = lineBreaks block t := by
  have hsame : SameBreaks block .code .zero [] [] t :=
    sameBreaks hreturn trivial (fun _ => .inl rfl) hplain
  exact hsame

end Statement

end Transplant
