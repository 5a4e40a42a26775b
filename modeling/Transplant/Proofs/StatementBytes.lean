import Transplant.Proofs.ByteSearch
import Transplant.Proofs.StatementBreaks

/-!
# The end of a statement by byte offsets

A search that jumps through the bytes could take its slices off the characters, and it could run
on.  The search for the end of a statement does neither.  From the start of any line it goes through
the text in step with the scan over characters, and it ends on a byte of the character at which that
scan ends.
-/

namespace Transplant.Statement

open Text

/-! ## Comments -/

theorem before_eq_takeWhile (c : Char) (t : Text) : before [c] t = t.takeWhile (· ≠ c) := by
  induction t with
  | nil => rfl
  | cons d t ih =>
      by_cases hd : c = d
      · subst hd
        simp [before, cut?, after?]
      · rw [List.takeWhile_cons_of_pos (by simpa using Ne.symm hd), ← ih]
        simp only [before, cut?, after?, if_neg hd]
        cases cut? [c] t <;> rfl

/-- A text is cut at its first mark that closes a block comment. -/
theorem cut?_blockComment (c : Char) (rest : Text) :
    cut? ['*', '/'] (c :: rest) =
      if c = '*' ∧ rest.head? = some '/' then some ([], rest.tail)
      else (cut? ['*', '/'] rest).map fun (body, behind) => (c :: body, behind) := by
  rw [cut?]
  by_cases hc : '*' = c
  · subst hc
    cases rest with
    | nil => rfl
    | cons d rest =>
        by_cases hd : '/' = d
        · subst hd
          rfl
        · simp [after?, hd, Ne.symm hd]
  · simp [after?, hc, Ne.symm hc]

section Comments

variable (block : Bool) (depth : Depth) (current : Text) (offset : Nat)

/-- The scan over characters behind a line comment. -/
theorem endFrom_lineComment (rest : Text) :
    endFrom block .lineComment depth current offset rest =
      endFrom block .code depth ((before ['\n'] rest).reverse ++ current)
        (offset + (before ['\n'] rest).length) (rest.dropWhile (· ≠ '\n')) := by
  rw [before_eq_takeWhile]
  induction rest generalizing current offset with
  | nil => rfl
  | cons c rest ih =>
      by_cases hc : c = '\n'
      · subst hc
        rw [List.takeWhile_cons_of_neg (by simp), List.dropWhile_cons_of_neg (by simp)]
        rfl
      · have hstep : LexState.lineComment.step c rest.head? = (false, .lineComment) := if_neg hc
        rw [endFrom_dead block depth current offset hstep, ih,
          List.takeWhile_cons_of_pos (by simpa using hc),
          List.dropWhile_cons_of_pos (by simpa using hc)]
        simp [Nat.add_assoc, Nat.add_comm 1]

/-- In a block comment that is not closed here the scan over characters goes on. -/
theorem endFrom_inComment {c : Char} {rest : Text} (hopen : ¬(c = '*' ∧ rest.head? = some '/')) :
    endFrom block .blockComment depth current offset (c :: rest) =
      endFrom block .blockComment depth (c :: current) (offset + 1) rest :=
  endFrom_dead block depth current offset (if_neg hopen)

/-- The scan over characters behind a block comment. -/
theorem endFrom_blockComment {rest body behind : Text}
    (hcut : cut? ['*', '/'] rest = some (body, behind)) :
    endFrom block .blockComment depth current offset rest =
      endFrom block .code depth ((body ++ ['*', '/']).reverse ++ current)
        (offset + (body ++ ['*', '/']).length) behind := by
  induction rest generalizing current offset body with
  | nil => cases hcut
  | cons c rest ih =>
      rw [cut?_blockComment] at hcut
      split at hcut
      · rename_i hclosed
        obtain ⟨rfl, hhead⟩ := hclosed
        obtain ⟨rest, rfl⟩ := List.head?_eq_some_iff.1 hhead
        cases hcut
        rfl
      · rename_i hopen
        obtain ⟨⟨body, behind⟩, hcut, hpair⟩ := Option.map_eq_some_iff.1 hcut
        cases hpair
        rw [endFrom_inComment block depth current offset hopen, ih _ _ hcut]
        simp [Nat.add_assoc, Nat.add_comm 1]

/-- A block comment that is not closed goes on to the end. -/
theorem endFrom_openComment {rest : Text} (hcut : cut? ['*', '/'] rest = none) :
    endFrom block .blockComment depth current offset rest = offset + rest.length - 1 := by
  induction rest generalizing current offset with
  | nil => rfl
  | cons c rest ih =>
      rw [cut?_blockComment] at hcut
      split at hcut
      · cases hcut
      · rename_i hopen
        rw [endFrom_inComment block depth current offset hopen,
          ih _ _ (Option.map_eq_none_iff.1 hcut), List.length_cons]
        omega

end Comments

/-! ## Both scans in step -/

section Lockstep

variable {content t passed rest current ahead : Text} {start turns more : Nat}
variable {block : Bool} {s next : ByteScan} {c d quote : Char}

/-- The search stands where the scan over characters does: `passed` lies behind both, `rest` ahead,
and `current` is the line behind the scan, written backwards. -/
structure Standing (content t : Text) (start : Nat) (passed current rest : Text) (s : ByteScan) :
    Prop where
  text : t = passed ++ rest
  place : RestAt content start t
  position : s.position = start + byteSize passed
  line : RestAt content s.lineStart (current.reverse ++ rest)

theorem Standing.restAt (h : Standing content t start passed current rest s) :
    RestAt content s.position rest := by
  have hstart := h.place
  rw [h.text] at hstart
  rw [h.position]
  exact hstart.behind

/-- Both have passed a part of the text. -/
theorem Standing.pass (h : Standing content t start passed current (ahead ++ rest) s)
    (hposition : next.position = s.position + byteSize ahead)
    (hline : next.lineStart = s.lineStart) :
    Standing content t start (passed ++ ahead) (ahead.reverse ++ current) rest next where
  text := by rw [h.text, List.append_assoc]
  place := h.place
  position := by rw [hposition, h.position, byteSize_append, Nat.add_assoc]
  line := by
    rw [hline, List.reverse_append, List.reverse_reverse, List.append_assoc]
    exact h.line

/-- Both have passed a line break of code. -/
theorem Standing.passBreak (h : Standing content t start passed current ('\n' :: rest) s)
    (hposition : next.position = s.position + 1) (hline : next.lineStart = s.position + 1) :
    Standing content t start (passed ++ ['\n']) [] rest next where
  text := by rw [h.text, List.append_assoc]; rfl
  place := h.place
  position := by rw [hposition, h.position, byteSize_append, Nat.add_assoc]; rfl
  line := by
    have hahead : RestAt content s.position (['\n'] ++ rest) := h.restAt
    rw [hline]
    exact hahead.behind

/-- From here on, the search ends where the scan over characters in code does. -/
def CodeAgrees (content t : Text) (start : Nat) (block : Bool) (rest : Text) : Prop :=
  ∀ ⦃passed current : Text⦄ ⦃s : ByteScan⦄, Standing content t start passed current rest s →
    s.quote = none → Finds content start block (2 * byteSize rest + 1) s t
      (endFrom block .code s.depth current passed.length rest)

/-- From here on, the search ends where the scan over characters in a string literal does. -/
def LiteralAgrees (content t : Text) (start : Nat) (block : Bool) (rest : Text) : Prop :=
  ∀ ⦃passed current : Text⦄ ⦃s : ByteScan⦄ ⦃quote : Char⦄,
    Standing content t start passed current rest s → s.quote = some quote →
    quote ∈ ['\x27', '"', '\x60'] → Finds content start block (2 * byteSize rest + 2) s t
      (endFrom block (.literal quote) s.depth current passed.length rest)

theorem CodeAgrees.behind (hrest : CodeAgrees content t start block rest)
    (h : Standing content t start (passed ++ [c]) current rest s) (hquote : s.quote = none) :
    Finds content start block (2 * byteSize rest + 1) s t
      (endFrom block .code s.depth current (passed.length + 1) rest) := by
  have hfinds := hrest h hquote
  rwa [List.length_append, List.length_singleton] at hfinds

theorem LiteralAgrees.behind (hrest : LiteralAgrees content t start block rest)
    (h : Standing content t start (passed ++ [c]) current rest s) (hquote : s.quote = some quote)
    (hmark : quote ∈ ['\x27', '"', '\x60']) :
    Finds content start block (2 * byteSize rest + 2) s t
      (endFrom block (.literal quote) s.depth current (passed.length + 1) rest) := by
  have hfinds := hrest h hquote hmark
  rwa [List.length_append, List.length_singleton] at hfinds

/-! ### At the end of the text -/

theorem finds_end (hstart : RestAt content start t) (hend : content.byteSize ≤ s.position)
    (hquote : s.quote = none) : Finds content start block 1 s t (t.length - 1) := by
  have hbyte : content.byteAt? s.position = none := byteAt?_eq_none_iff.2 hend
  have hturn : turn content start block s = .ended (max (content.byteSize - 1) start) := by
    rw [turn, hquote, hbyte]
  have hlies := liesOn_before start t []
  rw [List.append_nil, ← hstart.byteSize] at hlies
  exact .of_ended hturn hlies

theorem finds_end_of_literal (hstart : RestAt content start t)
    (hend : content.byteSize ≤ s.position) (hquote : s.quote = some quote) :
    Finds content start block 2 s t (t.length - 1) := by
  have hbyte : content.byteAt? s.position = none := byteAt?_eq_none_iff.2 hend
  have hturn : turn content start block s =
      .goesOn { s with position := content.byteSize, quote := none } := by
    rw [turn, hquote, hbyte]
  exact (finds_end hstart (Nat.le_refl _) rfl).of_goesOn hturn

/-! ### In code -/

theorem Standing.byteAt? (h : Standing content t start passed current (c :: rest) s)
    (hc : IsAscii c) : content.byteAt? s.position = some c := by
  have hbyte := h.restAt.byteAt? 0
  rwa [Nat.add_zero, byteAt?_cons_of_isAscii hc] at hbyte

theorem Standing.passOne (h : Standing content t start passed current (c :: rest) s)
    (hposition : next.position = s.position + c.utf8Size) (hline : next.lineStart = s.lineStart) :
    Standing content t start (passed ++ [c]) (c :: current) rest next := by
  have hahead : Standing content t start passed current ([c] ++ rest) s := h
  exact hahead.pass hposition hline

/-- The byte behind a character is told by the next character. -/
theorem Standing.byteAt?_next (h : Standing content t start passed current (c :: rest) s)
    (hc : IsAscii c) (hd : IsAscii d) :
    content.byteAt? (s.position + 1) = some d ↔ rest.head? = some d := by
  have hahead : RestAt content s.position ([c] ++ rest) := h.restAt
  have hsize : byteSize [c] = 1 := by simp [utf8Size_of_isAscii hc]
  have hbyte := hahead.behind.byteAt? 0
  rw [hsize, Nat.add_zero] at hbyte
  rw [hbyte, byteAt?_zero_eq_some_iff hd]

theorem Standing.turn_eq (h : Standing content t start passed current (c :: rest) s)
    (hc : IsAscii c) (hquote : s.quote = none) :
    turn content start block s = codeTurn content start block s c := by
  rw [turn, hquote, h.byteAt? hc]

theorem isAscii_of_mem (hquote : quote ∈ ['\x27', '"', '\x60']) : IsAscii quote := by
  simp only [List.mem_cons, List.not_mem_nil, or_false] at hquote
  obtain rfl | rfl | rfl := hquote <;> decide

/-- A string literal is opened. -/
theorem codeAgrees_quote (hopening : c ∈ ['\x27', '"', '\x60'])
    (hrest : LiteralAgrees content t start block rest) :
    CodeAgrees content t start block (c :: rest) := by
  intro passed current s h hquote
  have hmark : c = '\x27' ∨ c = '"' ∨ c = '\x60' := by simpa using hopening
  have hc : IsAscii c := isAscii_of_mem hopening
  have hstep : LexState.code.step c rest.head? = (false, .literal c) := if_pos hmark
  have hturn : turn content start block s =
      .goesOn { s with position := s.position + 1, quote := some c } := by
    rw [h.turn_eq hc hquote, codeTurn, if_pos hmark]
  have hsize := utf8Size_of_isAscii hc
  have hpassed : Standing content t start (passed ++ [c]) (c :: current) rest
      { s with position := s.position + 1, quote := some c } :=
    h.passOne (by rw [hsize]) rfl
  have hfinds := (hrest.behind hpassed rfl hopening).of_goesOn hturn
  rw [endFrom_dead _ _ _ _ hstep]
  exact hfinds.mono (by rw [byteSize_cons]; omega)

/-- A line comment is passed. -/
theorem codeAgrees_lineComment
    (hrest : CodeAgrees content t start block (rest.dropWhile (· ≠ '\n'))) :
    CodeAgrees content t start block ('/' :: '/' :: rest) := by
  intro passed current s h hquote
  have hbody : ∀ t, before ['\n'] ('/' :: t) = '/' :: before ['\n'] t := by
    intro t
    rw [before_eq_takeWhile, before_eq_takeWhile, List.takeWhile_cons_of_pos (by decide)]
  have hsplit : before ['\n'] ('/' :: '/' :: rest) ++ rest.dropWhile (· ≠ '\n') =
      '/' :: '/' :: rest := by
    rw [hbody, hbody, before_eq_takeWhile, List.cons_append, List.cons_append,
      List.takeWhile_append_dropWhile]
  have hturn : turn content start block s =
      .goesOn { s with
        position := s.position + byteSize (before ['\n'] ('/' :: '/' :: rest)) } := by
    have hnext := (h.byteAt?_next (d := '/') (by decide) (by decide)).2 rfl
    rw [h.turn_eq (by decide) hquote, codeTurn, if_neg (by decide), if_pos ⟨rfl, hnext⟩,
      h.restAt.fromByte?]
  rw [← hsplit] at h
  have hpassed : Standing content t start (passed ++ before ['\n'] ('/' :: '/' :: rest))
      ((before ['\n'] ('/' :: '/' :: rest)).reverse ++ current) (rest.dropWhile (· ≠ '\n'))
      { s with position := s.position + byteSize (before ['\n'] ('/' :: '/' :: rest)) } :=
    h.pass rfl rfl
  have hfinds := (hrest hpassed hquote).of_goesOn hturn
  have hend : endFrom block .code s.depth current passed.length ('/' :: '/' :: rest) =
      endFrom block .code s.depth ((before ['\n'] ('/' :: '/' :: rest)).reverse ++ current)
        (passed ++ before ['\n'] ('/' :: '/' :: rest)).length (rest.dropWhile (· ≠ '\n')) := by
    have hstep : LexState.code.step '/' ('/' :: rest).head? = (false, .lineComment) := rfl
    rw [endFrom_dead _ _ _ _ hstep, endFrom_lineComment, hbody ('/' :: rest),
      List.dropWhile_cons_of_pos (by decide)]
    simp [Nat.add_assoc, Nat.add_comm 1]
  have hsize := congrArg byteSize hsplit
  rw [byteSize_append, hbody, byteSize_cons] at hsize
  have hslash : Char.utf8Size '/' = 1 := rfl
  rw [hend]
  exact hfinds.mono (by omega)

/-- A block comment is passed. -/
theorem codeAgrees_blockComment
    (hrest : ∀ body behind, cut? ['*', '/'] rest = some (body, behind) →
      CodeAgrees content t start block behind) :
    CodeAgrees content t start block ('/' :: '*' :: rest) := by
  intro passed current s h hquote
  have hslash : Char.utf8Size '/' = 1 := rfl
  have hstar : Char.utf8Size '*' = 1 := rfl
  have hmark : Standing content t start passed current (['/', '*'] ++ rest) s := h
  have hbody : RestAt content (s.position + 2) rest := hmark.restAt.behind
  have hturn : turn content start block s =
      .goesOn { s with position := blockCommentEnd content rest (s.position + 2) } := by
    have hnext := (h.byteAt?_next (d := '*') (by decide) (by decide)).2 rfl
    have hline : ¬('/' = '/' ∧ content.byteAt? (s.position + 1) = some '/') := by
      rw [hnext]
      decide
    rw [h.turn_eq (by decide) hquote, codeTurn, if_neg (by decide), if_neg hline,
      if_pos ⟨rfl, hnext⟩, hbody.fromByte?]
  have hstep : LexState.code.step '/' ('*' :: rest).head? = (false, .blockOpening) := rfl
  have hopen : LexState.blockOpening.step '*' rest.head? = (false, .blockComment) := rfl
  rw [endFrom_dead _ _ _ _ hstep, endFrom_dead _ _ _ _ hopen]
  cases hcut : cut? ['*', '/'] rest with
  | none =>
      -- The comment is not closed: the search jumps to the end of the text.
      rw [blockCommentEnd_of_none hcut] at hturn
      have hfinds : Finds content start block 1 { s with position := content.byteSize } t
          (t.length - 1) := finds_end h.place (Nat.le_refl _) hquote
      have hlength : passed.length + 1 + 1 + rest.length - 1 = t.length - 1 := by
        rw [h.text, List.length_append, List.length_cons, List.length_cons]
        omega
      rw [endFrom_openComment _ _ _ _ hcut, hlength]
      exact (hfinds.of_goesOn hturn).mono (by rw [byteSize_cons, byteSize_cons]; omega)
  | some cut =>
      obtain ⟨body, behind⟩ := cut
      have hsize : byteSize ('/' :: '*' :: (body ++ ['*', '/'])) = 2 + byteSize body + 2 := by
        have hclosing : byteSize ['*', '/'] = 2 := rfl
        rw [byteSize_cons, byteSize_cons, byteSize_append, hslash, hstar, hclosing]
        omega
      have hend : blockCommentEnd content rest (s.position + 2) =
          s.position + byteSize ('/' :: '*' :: (body ++ ['*', '/'])) := by
        rw [blockCommentEnd_of_some hcut, hsize]
        omega
      have hsplit : '/' :: '*' :: rest = '/' :: '*' :: (body ++ ['*', '/']) ++ behind := by
        rw [eq_of_cut? hcut]
        rfl
      rw [hend] at hturn
      rw [hsplit] at h
      have hpassed : Standing content t start (passed ++ '/' :: '*' :: (body ++ ['*', '/']))
          (('/' :: '*' :: (body ++ ['*', '/'])).reverse ++ current) behind
          { s with position := s.position + byteSize ('/' :: '*' :: (body ++ ['*', '/'])) } :=
        h.pass rfl rfl
      have hfinds := (hrest body behind hcut hpassed hquote).of_goesOn hturn
      have hcurrent : ('/' :: '*' :: (body ++ ['*', '/'])).reverse ++ current =
          (body ++ ['*', '/']).reverse ++ '*' :: '/' :: current := by simp
      have hlength : (passed ++ '/' :: '*' :: (body ++ ['*', '/'])).length =
          passed.length + 1 + 1 + (body ++ ['*', '/']).length := by
        rw [List.length_append, List.length_cons, List.length_cons]
        omega
      rw [hcurrent, hlength] at hfinds
      rw [endFrom_blockComment _ _ _ _ hcut, hsplit, byteSize_append, hsize]
      exact hfinds.mono (by omega)

/-- The line behind the scan is what the search slices off. -/
theorem Standing.breakTurn_eq (h : Standing content t start passed current ('\n' :: rest) s) :
    breakTurn content start s =
      if continues current rest then
        .goesOn { s with position := s.position + 1, lineStart := s.position + 1 }
      else .ended (max (s.position - 1) start) := by
  have hplace : s.position = s.lineStart + byteSize current.reverse := by
    have hahead := h.restAt.byteSize
    have hline := h.line.byteSize
    rw [byteSize_append] at hline
    omega
  have hbreak : RestAt content s.position (['\n'] ++ rest) := h.restAt
  have hrest : content.fromByte? (s.position + 1) = some rest := hbreak.behind.fromByte?
  have hcurrent : content.slice? s.lineStart s.position = some current.reverse := by
    rw [hplace]
    exact h.line.slice?
  rw [breakTurn, hcurrent, hrest]
  simp only [List.reverse_reverse]

/-- A line break of code is passed, or the statement ends in front of it. -/
theorem codeAgrees_break (hrest : CodeAgrees content t start block rest) :
    CodeAgrees content t start block ('\n' :: rest) := by
  intro passed current s h hquote
  have hsize : byteSize ('\n' :: rest) = 1 + byteSize rest := rfl
  have hturn : turn content start block s =
      if s.depth.atTop && !block then breakTurn content start s
      else .goesOn { s with position := s.position + 1, lineStart := s.position + 1 } := by
    rw [h.turn_eq (by decide) hquote]
    simp [codeTurn]
  have hstep : LexState.code.step '\n' rest.head? = (true, .code) := rfl
  have hpassed : Standing content t start (passed ++ ['\n']) [] rest
      { s with position := s.position + 1, lineStart := s.position + 1 } :=
    h.passBreak rfl rfl
  have hgoes := hrest.behind hpassed hquote
  rw [endFrom_break _ _ _ _ hstep]
  by_cases htop : s.depth.atTop && !block
  · rw [htop, if_pos rfl, h.breakTurn_eq] at hturn
    by_cases hcontinues : continues current rest
    · rw [if_pos hcontinues] at hturn
      rw [htop, hcontinues, if_neg (by decide)]
      exact (hgoes.of_goesOn hturn).mono (by omega)
    · rw [if_neg hcontinues] at hturn
      have hlies := liesOn_before start passed ('\n' :: rest)
      rw [← h.position, ← h.text] at hlies
      rw [htop, Bool.eq_false_iff.2 hcontinues, if_pos (by decide)]
      exact (Finds.of_ended hturn hlies).mono (by omega)
  · rw [if_neg htop] at hturn
    rw [Bool.eq_false_iff.2 htop, Bool.false_and, if_neg Bool.false_ne_true]
    exact (hgoes.of_goesOn hturn).mono (by omega)

/-- A character of code is passed, or the statement ends on it. -/
theorem codeAgrees_live (hc : IsAscii c) (hbreak : c ≠ '\n')
    (hlive : LexState.code.step c rest.head? = (true, .code))
    (hrest : CodeAgrees content t start block rest) :
    CodeAgrees content t start block (c :: rest) := by
  intro passed current s h hquote
  have hsize := utf8Size_of_isAscii hc
  have hmark : ¬(c = '\x27' ∨ c = '"' ∨ c = '\x60') := by
    intro hmark
    simp [LexState.step, hmark] at hlive
  have hline : ¬(c = '/' ∧ content.byteAt? (s.position + 1) = some '/') := by
    rw [h.byteAt?_next hc (by decide)]
    intro hline
    simp [LexState.step, hline] at hlive
  have hblock : ¬(c = '/' ∧ content.byteAt? (s.position + 1) = some '*') := by
    rw [h.byteAt?_next hc (by decide)]
    intro hblock
    simp [LexState.step, hblock] at hlive
  have hturn : turn content start block s = codeTurn content start block s c :=
    h.turn_eq hc hquote
  rw [codeTurn, if_neg hmark, if_neg hline, if_neg hblock] at hturn
  have hhere : LiesOn start t s.position passed.length := by
    rw [h.position, h.text]
    exact liesOn_here start passed c rest
  rw [endFrom_live _ _ _ _ hlive]
  by_cases hbrace : c = '\x7d' ∧ block ∧ (s.depth.after c).closesBlock
  · rw [if_pos hbrace] at hturn ⊢
    exact (Finds.of_ended hturn hhere).mono (by omega)
  · rw [if_neg hbrace] at hturn ⊢
    by_cases hsemicolon : c = ';' ∧ s.depth.atTop
    · rw [if_pos hsemicolon] at hturn ⊢
      exact (Finds.of_ended hturn hhere).mono (by omega)
    · rw [if_neg hsemicolon, if_neg hbreak] at hturn ⊢
      have hpassed : Standing content t start (passed ++ [c]) (c :: current) rest
          { s with position := s.position + 1, depth := s.depth.after c } :=
        h.passOne (by rw [hsize]) rfl
      have hfinds := (hrest.behind hpassed hquote).of_goesOn hturn
      exact hfinds.mono (by rw [byteSize_cons]; omega)

/-- The scan over characters passes a character of several bytes. -/
theorem endFrom_wide (hc : ¬IsAscii c) (depth : Depth) (current : Text) (offset : Nat)
    (rest : Text) : endFrom block .code depth current offset (c :: rest) =
      endFrom block .code depth (c :: current) (offset + 1) rest := by
  have hne : ∀ {d : Char}, IsAscii d → c ≠ d := ne_of_not_isAscii hc
  have hstep : LexState.code.step c rest.head? = (true, .code) := by
    simp [LexState.step, hne (d := '\x27') (by decide), hne (d := '"') (by decide),
      hne (d := '\x60') (by decide), hne (d := '/') (by decide)]
  rw [endFrom_live _ _ _ _ hstep, after_of_not_isAscii hc]
  simp [hne (d := '\x7d') (by decide), hne (d := ';') (by decide), hne (d := '\n') (by decide)]

/-- A character of several bytes is passed. -/
theorem codeAgrees_wide (hc : ¬IsAscii c) (hrest : CodeAgrees content t start block rest) :
    CodeAgrees content t start block (c :: rest) := by
  intro passed current s h hquote
  have hascii : ∀ quote ∈ s.quote, IsAscii quote := by simp [hquote]
  have hpassed : Standing content t start (passed ++ [c]) (c :: current) rest
      { s with position := s.position + c.utf8Size } := h.passOne rfl rfl
  have hfinds := (hrest.behind hpassed hquote).of_inside h.restAt (Nat.zero_le _) (fun _ => hc)
    (Nat.add_zero _).symm hascii
  rw [endFrom_wide hc]
  exact hfinds.mono (by rw [byteSize_cons]; omega)

/-- From a character of code on both scans agree, if they agree behind it. -/
theorem codeAgrees_cons (hlater : ∀ later, later.length ≤ rest.length →
    CodeAgrees content t start block later ∧ LiteralAgrees content t start block later) :
    CodeAgrees content t start block (c :: rest) := by
  obtain ⟨hcode, hliteral⟩ := hlater rest (Nat.le_refl _)
  by_cases hc : IsAscii c
  · by_cases hmark : c ∈ ['\x27', '"', '\x60']
    · exact codeAgrees_quote hmark hliteral
    · by_cases hline : c = '/' ∧ rest.head? = some '/'
      · obtain ⟨rfl, hhead⟩ := hline
        obtain ⟨rest, rfl⟩ := List.head?_eq_some_iff.1 hhead
        have hle := (List.dropWhile_suffix (l := rest) (· ≠ '\n')).length_le
        exact codeAgrees_lineComment (hlater _ (Nat.le_succ_of_le hle)).1
      · by_cases hblock : c = '/' ∧ rest.head? = some '*'
        · obtain ⟨rfl, hhead⟩ := hblock
          obtain ⟨rest, rfl⟩ := List.head?_eq_some_iff.1 hhead
          apply codeAgrees_blockComment
          intro body behind hcut
          refine (hlater behind ?_).1
          have hlength := congrArg List.length (eq_of_cut? hcut)
          rw [List.length_append] at hlength
          rw [List.length_cons]
          omega
        · by_cases hbreak : c = '\n'
          · subst hbreak
            exact codeAgrees_break hcode
          · have hlive : LexState.code.step c rest.head? = (true, .code) := by
              rw [LexState.step, if_neg (by simpa using hmark), if_neg hline, if_neg hblock]
            exact codeAgrees_live hc hbreak hlive hcode
  · exact codeAgrees_wide hc hcode

/-! ### In a string literal -/

theorem isAscii_of_mem_quote (hquote : s.quote = some quote)
    (hmark : quote ∈ ['\x27', '"', '\x60']) : ∀ mark ∈ s.quote, IsAscii mark := by
  rw [hquote]
  rintro _ ⟨⟩
  exact isAscii_of_mem hmark

theorem Standing.turn_eq_literal (h : Standing content t start passed current (c :: rest) s)
    (hc : IsAscii c) (hquote : s.quote = some quote) :
    turn content start block s = .goesOn (literalTurn s quote c) := by
  rw [turn, hquote, h.byteAt? hc]

/-- An escaped character is passed, or the text ends with the backslash. -/
theorem literalAgrees_escape (hlater : ∀ d later, rest = d :: later →
    LiteralAgrees content t start block later) :
    LiteralAgrees content t start block ('\\' :: rest) := by
  intro passed current s quote h hquote hmark
  have hstep : (LexState.literal quote).step '\\' rest.head? = (false, .escape quote) := rfl
  have hturn : turn content start block s = .goesOn { s with position := s.position + 2 } := by
    rw [h.turn_eq_literal (by decide) hquote, literalTurn, if_pos rfl]
  have hsize : Char.utf8Size '\\' = 1 := rfl
  rw [endFrom_dead _ _ _ _ hstep]
  cases rest with
  | nil =>
      -- The jump leads behind the end of the text.
      have hend : content.byteSize ≤ s.position + 2 := by
        rw [h.restAt.byteSize, byteSize_cons, byteSize_nil, hsize]
        omega
      have hlength : passed.length + 1 - 1 = t.length - 1 := by rw [h.text]; simp
      have hfinds : Finds content start block 2 { s with position := s.position + 2 } t
          (t.length - 1) := finds_end_of_literal h.place hend hquote
      rw [endFrom, hlength]
      exact (hfinds.of_goesOn hturn).mono (by rw [byteSize_cons]; omega)
  | cons d later =>
      -- The jump leads behind the first byte of the escaped character.
      have hescape : (LexState.escape quote).step d later.head? = (false, .literal quote) := rfl
      have hboth : Standing content t start passed current (['\\', d] ++ later) s := h
      have hbackslash : RestAt content s.position (['\\'] ++ d :: later) := h.restAt
      have hd : RestAt content (s.position + 1) (d :: later) := hbackslash.behind
      have hwide : 1 < d.utf8Size → ¬IsAscii d := by
        intro hlong hd
        rw [utf8Size_of_isAscii hd] at hlong
        exact absurd hlong (by decide)
      have hascii := isAscii_of_mem_quote hquote hmark
      have hpassed : Standing content t start (passed ++ ['\\', d])
          (d :: '\\' :: current) later { s with position := s.position + 1 + d.utf8Size } :=
        hboth.pass (by simp [hsize, Nat.add_assoc]) rfl
      have hfinds := hlater d later rfl hpassed hquote hmark
      have hlength : (passed ++ ['\\', d]).length = passed.length + 1 + 1 := by simp
      have hinside : Finds content start block (2 * byteSize later + 2 + (d.utf8Size - 1))
          { s with position := s.position + 2 } t _ :=
        hfinds.of_inside hd d.utf8Size_pos hwide rfl hascii
      rw [hlength] at hinside
      rw [endFrom_dead _ _ _ _ hescape]
      exact (hinside.of_goesOn hturn).mono (by rw [byteSize_cons, byteSize_cons]; omega)

/-- The literal ends on its quotation mark. -/
theorem literalAgrees_quote (hrest : CodeAgrees content t start block rest) (hc : c ≠ '\\')
    {passed current : Text} {s : ByteScan}
    (h : Standing content t start passed current (c :: rest) s) (hquote : s.quote = some c)
    (hascii : IsAscii c) : Finds content start block (2 * byteSize (c :: rest) + 2) s t
      (endFrom block (.literal c) s.depth current passed.length (c :: rest)) := by
  have hstep : (LexState.literal c).step c rest.head? = (false, .code) := by
    rw [LexState.step, if_neg hc, if_pos rfl]
  have hturn : turn content start block s =
      .goesOn { s with position := s.position + 1, quote := none } := by
    rw [h.turn_eq_literal hascii hquote, literalTurn, if_neg hc, if_pos rfl]
  have hpassed : Standing content t start (passed ++ [c]) (c :: current) rest
      { s with position := s.position + 1, quote := none } :=
    h.passOne (by rw [utf8Size_of_isAscii hascii]) rfl
  have hfinds := (hrest.behind hpassed rfl).of_goesOn hturn
  rw [endFrom_dead _ _ _ _ hstep]
  exact hfinds.mono (by rw [byteSize_cons]; omega)

/-- From a character of a string literal on both scans agree, if they agree behind it, and where it
can end the literal. -/
theorem literalAgrees_cons (hcode : CodeAgrees content t start block (c :: rest))
    (hlater : ∀ later, later.length ≤ rest.length →
      CodeAgrees content t start block later ∧ LiteralAgrees content t start block later) :
    LiteralAgrees content t start block (c :: rest) := by
  by_cases hbackslash : c = '\\'
  · subst hbackslash
    apply literalAgrees_escape
    rintro d later rfl
    exact (hlater later (Nat.le_succ _)).2
  · intro passed current s quote h hquote hmark
    have hascii := isAscii_of_mem_quote hquote hmark
    by_cases hclose : c = quote
    · subst hclose
      exact literalAgrees_quote (hlater rest (Nat.le_refl _)).1 hbackslash h hquote
        (isAscii_of_mem hmark)
    · by_cases hbreak : c = '\n' ∧ quote ≠ '\x60'
      · -- An unclosed string ends in front of the line break, which is code.
        have hturn : turn content start block s = .goesOn { s with quote := none } := by
          rw [h.turn_eq_literal (by rw [hbreak.1]; decide) hquote, literalTurn, if_neg hbackslash,
            if_neg hclose, if_pos hbreak]
        have hopen : Standing content t start passed current (c :: rest)
            { s with quote := none } := ⟨h.text, h.place, h.position, h.line⟩
        have hcloses : (LexState.literal quote).step c rest.head? = (true, .code) := by
          rw [LexState.step, if_neg hbackslash, if_neg hclose, if_pos hbreak]
        have hlive : LexState.code.step c rest.head? = (true, .code) := by
          rw [hbreak.1]
          rfl
        rw [endFrom_live _ _ _ _ hcloses, ← endFrom_live _ _ _ _ hlive]
        exact (hcode hopen rfl).of_goesOn hturn
      · have hstep : (LexState.literal quote).step c rest.head? = (false, .literal quote) := by
          rw [LexState.step, if_neg hbackslash, if_neg hclose, if_neg hbreak]
        have hpassed : Standing content t start (passed ++ [c]) (c :: current) rest
            { s with position := s.position + c.utf8Size } := h.passOne rfl rfl
        have hfinds : Finds content start block (2 * byteSize rest + 2 + c.utf8Size) s t
            (endFrom block (.literal quote) s.depth (c :: current) (passed.length + 1) rest) := by
          have hnext := (hlater rest (Nat.le_refl _)).2.behind hpassed hquote hmark
          by_cases hc : IsAscii c
          · have hturn : turn content start block s =
                .goesOn { s with position := s.position + c.utf8Size } := by
              rw [h.turn_eq_literal hc hquote, literalTurn, if_neg hbackslash, if_neg hclose,
                if_neg hbreak, utf8Size_of_isAscii hc]
            rw [utf8Size_of_isAscii hc] at hnext hturn ⊢
            exact hnext.of_goesOn hturn
          · exact hnext.of_inside h.restAt (Nat.zero_le _) (fun _ => hc) (Nat.add_zero _).symm
              hascii
        rw [endFrom_dead _ _ _ _ hstep]
        exact hfinds.mono (by rw [byteSize_cons]; have := c.utf8Size_pos; omega)

/-- Wherever both scans stand in the text, they end at the same character. -/
theorem agrees (hstart : RestAt content start t) (block : Bool) (rest : Text) :
    CodeAgrees content t start block rest ∧ LiteralAgrees content t start block rest := by
  induction hlength : rest.length using Nat.strong_induction_on generalizing rest with
  | _ n ih =>
      cases rest with
      | nil =>
          have hplaces {passed current : Text} {s : ByteScan}
              (h : Standing content t start passed current [] s) :
              content.byteSize ≤ s.position ∧ passed.length = t.length := by
            rw [h.restAt.byteSize, h.text, List.append_nil]
            exact ⟨Nat.le_refl _, rfl⟩
          constructor
          · intro passed current s h hquote
            obtain ⟨hend, hpassed⟩ := hplaces h
            rw [endFrom, hpassed]
            exact finds_end hstart hend hquote
          · intro passed current s quote h hquote _
            obtain ⟨hend, hpassed⟩ := hplaces h
            rw [endFrom, hpassed]
            exact finds_end_of_literal hstart hend hquote
      | cons c rest =>
          have hlater : ∀ later : Text, later.length ≤ rest.length →
              CodeAgrees content t start block later ∧
                LiteralAgrees content t start block later := by
            intro later hle
            have hshorter : later.length < n := by
              rw [← hlength]
              exact Nat.lt_succ_of_le hle
            exact ih later.length hshorter later rfl
          have hcode : CodeAgrees content t start block (c :: rest) := codeAgrees_cons hlater
          exact ⟨hcode, literalAgrees_cons hcode hlater⟩

/-- The search ends on the character at which the scan over characters ends. -/
theorem finds_endOffset (hstart : RestAt content start t) (block : Bool) :
    Finds content start block (2 * byteSize t + 1) (.first start) t (endOffset block t) := by
  have hfirst : Standing content t start [] [] t (.first start) := ⟨rfl, hstart, rfl, hstart⟩
  exact (agrees hstart block t).1 hfirst rfl

end Lockstep

/-! ## The line of the end -/

/-- From the start of any line of any text the search for the end of a statement ends, with no
more turns than two for each byte and one.  Every slice that it takes lies between characters, and
its end lies in the text behind the start, on the line to which the scan over characters goes. -/
theorem search_ends (content : Text) (block : Bool) {line : Nat}
    (hline : line < (content.pieces '\n').length) :
    let start := byteSize (content.linesAbove line)
    ∃ turns ≤ 2 * content.byteSize + 1, ∃ offset,
      search content start block turns (.first start) = .ended offset ∧
      (∀ n, search content start block n (.first start) ≠ .broken) ∧
      start ≤ offset ∧ offset ≤ max start (content.byteSize - 1) ∧
      (content.bytes.take offset).count '\n'.toUInt8 =
        line + lineBreaks block (content.fromLine line) := by
  intro start
  have hsplit := linesAbove_append_fromLine hline
  have hstart : RestAt content start (content.fromLine line) :=
    ⟨content.linesAbove line, hsplit.symm, rfl⟩
  obtain ⟨turns, hturns, offset, hended, hlies⟩ := finds_endOffset hstart block
  have hsize := hstart.byteSize
  obtain ⟨hge, hle⟩ := hlies.bounds
  refine ⟨turns, by omega, offset, hended, search_ne_broken hended, hge, by rwa [hsize], ?_⟩
  have hcount := hlies.count_take
  rw [hsplit, count_linesAbove (Nat.le_of_lt hline)] at hcount
  exact hcount

/-- A statement with an unclosed string, an unclosed template literal and a bracket too many.
Behind backslashes there stand characters of several bytes, and nothing. -/
def unclosedText : Text :=
  "let a;\nlet b = )'\\é\n  .x(`\\😀 /* \\".toList

theorem search_ends_unclosed :
    1 < (unclosedText.pieces '\n').length ∧ byteSize (unclosedText.linesAbove 1) = 7 ∧
      unclosedText.byteSize = 37 ∧ ∃ turns ≤ 75, ∃ offset,
        search unclosedText 7 false turns (.first 7) = .ended offset ∧
        (∀ n, search unclosedText 7 false n (.first 7) ≠ .broken) ∧ 7 ≤ offset ∧ offset ≤ 36 ∧
        (unclosedText.bytes.take offset).count '\n'.toUInt8 = 2 := by
  have hline : 1 < (unclosedText.pieces '\n').length := by decide +kernel
  have hstart : byteSize (unclosedText.linesAbove 1) = 7 := by decide +kernel
  have hsize : unclosedText.byteSize = 37 := by decide +kernel
  have hbreaks : 1 + lineBreaks false (unclosedText.fromLine 1) = 2 := by decide +kernel
  have hends := search_ends unclosedText false hline
  rw [hstart, hsize, hbreaks] at hends
  exact ⟨hline, hstart, hsize, hends⟩

end Transplant.Statement
