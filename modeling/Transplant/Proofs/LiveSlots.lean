import Transplant.Proofs.Clauses
import Transplant.Proofs.DocComments
import Transplant.Proofs.LiveCode

/-!
# Slots in live code

A reading of comments and strings, character by character, tells where block comments are open.  It
forgets everything but this at the end of a line, so it can be followed line by line, like the
classes of a prologue.  The two agree as long as the prologue looks at a line as a whole, and then a
new statement stands in live code with one exception: where a comment is closed on a line that goes
on with code, the whole line counts as code and the statement is put in front of it, inside the
comment.
-/

namespace Transplant

/-- Where a reading of comments and strings stands. -/
inductive CommentState where
  | live
  /-- Behind a slash in live code. -/
  | slash
  | quoted (quote : Char)
  /-- Behind a backslash in a string. -/
  | escaped (quote : Char)
  | lineComment
  | blockComment
  /-- Behind an asterisk in a block comment. -/
  | star
  deriving DecidableEq, Repr

namespace CommentState

/-- The state behind a character of live code that closes no mark. -/
def ofLive (c : Char) : CommentState :=
  if c = '/' then slash else if Prologue.isQuote c then quoted c else live

/-- The state behind a character.  Line comments and strings end at the latest with their line. -/
def step (state : CommentState) (c : Char) : CommentState :=
  match state with
  | live => ofLive c
  | slash => if c = '/' then lineComment else if c = '*' then blockComment else ofLive c
  | quoted quote =>
    if c = '\\' then escaped quote else if c = quote ∨ c = '\n' then live else quoted quote
  | escaped quote => if c = '\n' then live else quoted quote
  | lineComment => if c = '\n' then live else lineComment
  | blockComment => if c = '*' then star else blockComment
  | star => if c = '/' then live else if c = '*' then star else blockComment

def behind (state : CommentState) (t : Text) : CommentState :=
  t.foldl step state

def inComment : CommentState → Bool
  | blockComment => true
  | star => true
  | _ => false

/-- The state at the start of a line. -/
def ofOpen (isOpen : Bool) : CommentState :=
  if isOpen then blockComment else live

variable (state : CommentState) (isOpen : Bool) {c : Char} {t : Text}

@[simp]
theorem inComment_ofOpen : (ofOpen isOpen).inComment = isOpen := by
  cases isOpen <;> rfl

@[simp]
theorem behind_nil : state.behind [] = state := rfl

@[simp]
theorem behind_cons (c : Char) (t : Text) : state.behind (c :: t) = (state.step c).behind t := rfl

@[simp]
theorem behind_append (s t : Text) : state.behind (s ++ t) = (state.behind s).behind t :=
  List.foldl_append ..

/-- Behind a line break only an open block comment counts. -/
theorem step_break : state.step '\n' = ofOpen state.inComment := by
  cases state <;> simp [step, ofLive, ofOpen, inComment, Prologue.isQuote]

/-! ## Blanks -/

theorem ne_of_isBlank {d : Char} (hc : Text.isBlank c) (hd : Text.isBlank d = false) : c ≠ d := by
  rintro rfl
  simp [hc] at hd

theorem ofLive_of_isBlank (hc : Text.isBlank c) : ofLive c = live := by
  have hquote : ¬ Prologue.isQuote c := by
    intro hquote
    simp [Clause.isBlank_of_isQuote hquote] at hc
  rw [ofLive, if_neg (ne_of_isBlank hc (by decide)), if_neg hquote]

/-- A blank opens and closes no comment. -/
theorem inComment_step_of_isBlank (hc : Text.isBlank c) :
    (state.step c).inComment = state.inComment := by
  have hslash : c ≠ '/' := ne_of_isBlank hc (by decide)
  have hstar : c ≠ '*' := ne_of_isBlank hc (by decide)
  cases state with
  | live => simp [step, ofLive_of_isBlank hc]
  | slash => simp [step, hslash, hstar, ofLive_of_isBlank hc, inComment]
  | blockComment => simp [step, hstar]
  | star => simp [step, hslash, hstar, inComment]
  | quoted | escaped | lineComment =>
      rw [step]
      split_ifs <;> rfl

theorem inComment_behind_blanks (hblank : ∀ c ∈ t, Text.isBlank c) :
    (state.behind t).inComment = state.inComment := by
  induction t generalizing state with
  | nil => rfl
  | cons c t ih =>
      rw [List.forall_mem_cons] at hblank
      rw [behind_cons, ih _ hblank.2, inComment_step_of_isBlank _ hblank.1]

/-- Blanks at the start of a line leave the state as it is. -/
theorem behind_ofOpen_blanks (hblank : ∀ c ∈ t, Text.isBlank c) :
    (ofOpen isOpen).behind t = ofOpen isOpen := by
  induction t with
  | nil => rfl
  | cons c t ih =>
      rw [List.forall_mem_cons] at hblank
      have hstep : (ofOpen isOpen).step c = ofOpen isOpen := by
        cases isOpen with
        | false => exact ofLive_of_isBlank hblank.1
        | true => exact if_neg (ne_of_isBlank hblank.1 (by decide))
      rw [behind_cons, hstep, ih hblank.2]

/-! ## Lines -/

/-- Whether a block comment is open behind a line. -/
def openBehindLine (isOpen : Bool) (line : Text) : Bool :=
  ((ofOpen isOpen).behind line).inComment

theorem openBehindLine_trim (line : Text) :
    openBehindLine isOpen line.trim = openBehindLine isOpen line := by
  obtain ⟨before, after, hbefore, hafter, hline⟩ := Text.exists_trim line
  conv_rhs => rw [hline]
  rw [openBehindLine, openBehindLine, behind_append, behind_append,
    behind_ofOpen_blanks _ hbefore, inComment_behind_blanks _ hafter]

theorem openBehindLine_dropReturn (line : Text) :
    openBehindLine isOpen line.dropReturn = openBehindLine isOpen line := by
  obtain hline | hline := Text.eq_dropReturn_or line
  · rw [← hline]
  · conv_rhs => rw [hline]
    rw [← openBehindLine_trim isOpen (_ ++ _), Text.trim_append_return, openBehindLine_trim]

/-- Behind a line and its line break the state is that of the start of a line. -/
theorem behind_append_lineBreak (lineBreak : LineBreak) (line : Text) :
    (ofOpen isOpen).behind (line ++ lineBreak.text) = ofOpen (openBehindLine isOpen line) := by
  rw [behind_append, openBehindLine]
  cases lineBreak with
  | lf => exact step_break _
  | crlf =>
      rw [LineBreak.text, behind_cons, behind_cons, behind_nil, step_break,
        inComment_step_of_isBlank _ (by decide)]

/-- Comments are followed line by line, whatever the line breaks. -/
theorem behind_flatMap_lineBreak (lineBreak : LineBreak) (lines : List Text) :
    (ofOpen isOpen).behind (lines.flatMap (· ++ lineBreak.text)) =
      ofOpen (lines.foldl openBehindLine isOpen) := by
  induction lines generalizing isOpen with
  | nil => rfl
  | cons line lines ih =>
      rw [List.flatMap_cons, behind_append, behind_append_lineBreak, ih, List.foldl_cons]

theorem foldl_openBehindLine_dropReturn (lines : List Text) :
    (lines.map Text.dropReturn).foldl openBehindLine isOpen =
      lines.foldl openBehindLine isOpen := by
  rw [List.foldl_map]
  congr 1
  funext isOpen line
  exact openBehindLine_dropReturn isOpen line

/-! ## Comment marks -/

/-- A block comment goes on up to the first closing mark. -/
theorem inComment_behind_blockComment (t : Text) :
    (blockComment.behind t).inComment =
      match Text.cut? ['*', '/'] t with
      | some (_, rest) => (live.behind rest).inComment
      | none => true := by
  induction t with
  | nil => rfl
  | cons c t ih =>
      rw [Text.cut?]
      cases hafter : Text.after? ['*', '/'] (c :: t) with
      | some rest =>
          rw [Text.after?_eq_some_iff] at hafter
          rw [hafter]
          rfl
      | none =>
          -- An asterisk with no slash behind it counts as little as any other character.
          have hskip : (blockComment.behind (c :: t)).inComment =
              (blockComment.behind t).inComment := by
            by_cases hc : c = '*'
            · subst hc
              cases t with
              | nil => rfl
              | cons d t =>
                  have hd : d ≠ '/' := by
                    rintro rfl
                    cases hafter
                  simp [step, hd]
            · simp [step, hc]
          rw [hskip, ih]
          cases Text.cut? ['*', '/'] t <;> rfl

theorem behind_lineComment (hbreak : '\n' ∉ t) : lineComment.behind t = lineComment := by
  induction t with
  | nil => rfl
  | cons c t ih =>
      rw [List.mem_cons, not_or] at hbreak
      rw [behind_cons, step, if_neg (Ne.symm hbreak.1), ih hbreak.2]

/-- Behind the front of a line comment, nothing opens a block comment on the line. -/
theorem inComment_behind_of_startsWith (hbreak : '\n' ∉ t) (hstart : t.startsWith ['/', '/']) :
    (live.behind t).inComment = false := by
  obtain ⟨rest, rfl⟩ := Text.startsWith_iff.1 hstart
  have hrest : '\n' ∉ rest := fun hmem => hbreak (List.mem_append_right _ hmem)
  have hbehind : live.behind (['/', '/'] ++ rest) = lineComment.behind rest := rfl
  rw [hbehind, behind_lineComment hrest]
  rfl

/-- What may follow a closing mark on a line of comment opens no block comment. -/
theorem inComment_behind_of_mayFollowComment (hbreak : '\n' ∉ t)
    (hfollow : Prologue.mayFollowComment t) : (live.behind t).inComment = false := by
  have htrim : (live.behind t.trim).inComment = (live.behind t).inComment :=
    openBehindLine_trim false t
  have hclean : '\n' ∉ t.trim := fun hmem => hbreak (Text.mem_of_mem_trim hmem)
  rw [← htrim]
  simp only [Prologue.mayFollowComment, Bool.or_eq_true, List.isEmpty_iff] at hfollow
  obtain hempty | hstart := hfollow
  · rw [hempty]
    rfl
  · exact inComment_behind_of_startsWith hclean hstart

end CommentState

namespace Prologue

open CommentState

variable {lines : List Text} {inBlock : Bool} {index : Nat} {line : Text}

/-! ## The comments of a prologue -/

/-- The lines that are taken for a comment or a directive by their front alone: directives, and a
first line that starts with `#!`. -/
def isTakenByFront (inBlock : Bool) (index : Nat) (line : Text) : Bool :=
  (step inBlock index line).1 = .directive || (index == 0 && line.trim.startsWith ['#', '!'])

/-- A block comment that is all there is on a line is open behind it if nothing closes it. -/
theorem inComment_behind_of_cut? {body : Text} (hbreak : '\n' ∉ body)
    (hfollow : ∀ cut ∈ Text.cut? ['*', '/'] body, mayFollowComment cut.2) :
    (blockComment.behind body).inComment = (Text.cut? ['*', '/'] body).isNone := by
  rw [inComment_behind_blockComment]
  cases hcut : Text.cut? ['*', '/'] body with
  | none => rfl
  | some cut =>
      have hrest : '\n' ∉ cut.2 := by
        intro hmem
        apply hbreak
        rw [Text.eq_of_cut? hcut]
        exact List.mem_append_right _ hmem
      exact inComment_behind_of_mayFollowComment hrest (hfollow cut hcut)

/-- On a line that is not code and was looked at as a whole, the classes follow the comments. -/
theorem openBehindLine_eq (hbreak : '\n' ∉ line) (hcode : (step inBlock index line).1 ≠ .code)
    (hfront : isTakenByFront inBlock index line → openBehindLine inBlock line = false) :
    openBehindLine inBlock line = (step inBlock index line).2 := by
  have hclean : '\n' ∉ line.trim := fun hmem => hbreak (Text.mem_of_mem_trim hmem)
  rw [← openBehindLine_trim] at hfront ⊢
  cases inBlock with
  | true =>
      simp only [step, if_true] at hcode ⊢
      have hopen : openBehindLine true line.trim = (blockComment.behind line.trim).inComment := rfl
      rw [hopen, inComment_behind_of_cut? hclean]
      · cases Text.cut? ['*', '/'] line.trim <;> rfl
      · intro cut hcut
        rw [Option.mem_def.1 hcut] at hcode
        by_contra hfollow
        exact hcode (if_neg hfollow)
  | false =>
      simp only [isTakenByFront, step, Bool.false_eq_true, if_false] at hcode hfront ⊢
      cases hafter : Text.after? ['/', '*'] line.trim with
      | some body =>
          rw [Text.after?_eq_some_iff] at hafter
          simp only [hafter, Text.after?_append] at hcode ⊢
          have hbody : '\n' ∉ body := by
            intro hmem
            apply hclean
            rw [hafter]
            exact List.mem_append_right _ hmem
          have hopen : openBehindLine false (['/', '*'] ++ body) =
              (blockComment.behind body).inComment := rfl
          rw [hopen, inComment_behind_of_cut? hbody]
          · cases Text.cut? ['*', '/'] body <;> rfl
          · intro cut hcut
            rw [Option.mem_def.1 hcut] at hcode
            by_contra hfollow
            exact hcode (if_neg hfollow)
      | none =>
          simp only [hafter] at hcode hfront ⊢
          split_ifs at hcode hfront ⊢ with hcomment hblank hdirective
          · obtain hcomment | hshebang := Bool.or_eq_true_iff.1 hcomment
            · exact inComment_behind_of_startsWith hclean hcomment
            · exact hfront (by simp [hshebang])
          · rw [List.isEmpty_iff.1 hblank]
            rfl
          · exact hfront rfl
          · exact absurd rfl hcode

/-- A line that starts with a name is code wherever no block comment is open. -/
theorem step_of_isIdentStart {c : Char} {rest : Text} (hstart : line.trimStart = c :: rest)
    (hc : isIdentStart c) (index : Nat) : step false index line = (.code, false) := by
  obtain ⟨tail, htrim⟩ : ∃ tail, line.trim = c :: tail := by
    have hfront := Text.isPrefix_trim line
    cases hline : line.trim with
    | nil =>
        have hblank := Text.trimStart_eq_nil_iff.2 (Text.trim_eq_nil_iff.1 hline)
        rw [hstart] at hblank
        cases hblank
    | cons d tail =>
        rw [hline, hstart, List.cons_prefix_cons] at hfront
        exact ⟨tail, by rw [hfront.1]⟩
  have hother : ∀ d, isIdentStart d = false → d ≠ c := by
    rintro d hd rfl
    rw [hc] at hd
    cases hd
  have hslash := hother '/' (by decide)
  have hhash := hother '#' (by decide)
  have hquote : isQuote c = false := by
    simp [isQuote, (hother '\x27' (by decide)).symm, (hother '"' (by decide)).symm]
  simp [step, htrim, isDirective, hstart, hquote, hslash, hhash, Text.after?, Text.startsWith]

/-! ## Runs of lines -/

/-- Whether a block comment is open behind lines by the classes, the first of which has the given
index. -/
def openAfter (inBlock : Bool) (index : Nat) : List Text → Bool
  | [] => inBlock
  | line :: rest => openAfter (step inBlock index line).2 (index + 1) rest

theorem openAfter_append (inBlock : Bool) (index : Nat) (front rest : List Text) :
    openAfter inBlock index (front ++ rest) =
      openAfter (openAfter inBlock index front) (index + front.length) rest := by
  induction front generalizing inBlock index with
  | nil => rfl
  | cons line front ih =>
      rw [List.cons_append, openAfter, ih, openAfter, List.length_cons, Nat.add_right_comm,
        Nat.add_assoc]

/-- Whether a block comment is open at the start of a line by the classes. -/
def openAbove (lines : List Text) (index : Nat) : Bool :=
  openAfter false 0 (lines.take index)

theorem openAbove_succ (hline : lines[index]? = some line) :
    openAbove lines (index + 1) = (step (openAbove lines index) index line).2 := by
  obtain ⟨hindex, -⟩ := List.getElem?_eq_some_iff.1 hline
  have hlength : (lines.take index).length = index := by
    rw [List.length_take, Nat.min_eq_left (Nat.le_of_lt hindex)]
  rw [openAbove, List.take_add_one, hline, openAfter_append, hlength, Nat.zero_add]
  rfl

theorem getElem?_classes (inBlock : Bool) (first : Nat) (lines : List Text) (index : Nat) :
    (classes inBlock first lines)[index]? = lines[index]?.map fun line =>
      (step (openAfter inBlock first (lines.take index)) (first + index) line).1 := by
  induction lines generalizing inBlock first index with
  | nil => rfl
  | cons line lines ih =>
      cases index with
      | zero => rfl
      | succ index =>
          simp only [classes, List.getElem?_cons_succ, ih, List.take_succ_cons, openAfter,
            Nat.add_assoc, Nat.add_comm 1]

theorem length_classes (inBlock : Bool) (first : Nat) (lines : List Text) :
    (classes inBlock first lines).length = lines.length := by
  induction lines generalizing inBlock first with
  | nil => rfl
  | cons line lines ih => rw [classes, List.length_cons, ih, List.length_cons]

theorem firstCode_le (lines : List Text) : firstCode lines ≤ lines.length := by
  rw [← length_classes false 0 lines]
  exact (List.takeWhile_prefix _).length_le

theorem getElem?_classes_of_lt (hindex : index < firstCode lines) :
    (classes false 0 lines)[index]? = (header lines)[index]? := by
  rw [← List.takeWhile_append_dropWhile (p := (· ≠ .code)) (l := classes false 0 lines), ← header,
    List.getElem?_append_left hindex]

/-- A line above the first code line is not code. -/
theorem exists_line_of_lt_firstCode (hindex : index < firstCode lines) :
    ∃ line, lines[index]? = some line ∧ (step (openAbove lines index) index line).1 ≠ .code := by
  have hline := List.getElem?_eq_getElem (Nat.lt_of_lt_of_le hindex (firstCode_le lines))
  refine ⟨_, hline, ?_⟩
  have hclass := getElem?_classes false 0 lines index
  rw [hline, Option.map_some, Nat.zero_add, ← openAbove] at hclass
  rw [getElem?_classes_of_lt hindex] at hclass
  simpa using List.mem_takeWhile_imp (List.mem_of_getElem? hclass)

/-- As far as every line is looked at as a whole, the classes of the lines above the first code line
follow the comments. -/
theorem foldl_openBehindLine_take (hbreak : ∀ line ∈ lines, '\n' ∉ line)
    (hindex : index ≤ firstCode lines)
    (hfront : ∀ k < index, ∀ line ∈ lines[k]?, isTakenByFront (openAbove lines k) k line →
      (lines.take (k + 1)).foldl openBehindLine false = false) :
    (lines.take index).foldl openBehindLine false = openAbove lines index := by
  induction index with
  | zero => rfl
  | succ index ih =>
      obtain ⟨line, hline, hcode⟩ := exists_line_of_lt_firstCode hindex
      have habove := ih (Nat.le_of_succ_le hindex) fun k hk => hfront k (Nat.lt_succ_of_lt hk)
      have hnext : (lines.take (index + 1)).foldl openBehindLine false =
          openBehindLine (openAbove lines index) line := by
        rw [List.take_add_one, hline, List.foldl_append, habove]
        rfl
      rw [hnext, openAbove_succ hline]
      apply openBehindLine_eq (hbreak line (List.mem_of_getElem? hline)) hcode
      intro htaken
      rw [← hnext]
      exact hfront index (Nat.lt_succ_self index) line hline htaken

/-! ## The slot -/

theorem getElem?_firstCode {lineClass : PrologueLine}
    (hclass : (classes false 0 lines)[firstCode lines]? = some lineClass) : lineClass = .code := by
  rw [← List.takeWhile_append_dropWhile (p := (· ≠ .code)) (l := classes false 0 lines), ← header,
    firstCode, List.getElem?_append_right (Nat.le_refl _), Nat.sub_self,
    ← List.head?_eq_getElem?] at hclass
  have hhead := List.head?_dropWhile_not (· ≠ PrologueLine.code) (classes false 0 lines)
  rw [hclass] at hhead
  simpa using hhead

/-- The slot in terms of the lines above the first code line, with the blank ones at their end set
apart. -/
theorem exists_slotIndex_eq (lines : List Text) :
    ∃ kept blanks, header lines = kept ++ blanks ∧ (∀ lineClass ∈ blanks, lineClass = .blank) ∧
      slotIndex lines = if kept.length ≠ 0 then kept.length
        else if firstCode lines < lines.length then firstCode lines else 0 := by
  refine ⟨((header lines).reverse.dropWhile (· = .blank)).reverse,
    ((header lines).reverse.takeWhile (· = .blank)).reverse, ?_, ?_, ?_⟩
  · rw [← List.reverse_append, List.takeWhile_append_dropWhile, List.reverse_reverse]
  · intro lineClass hclass
    simpa using List.mem_takeWhile_imp (List.mem_reverse.1 hclass)
  · rw [List.length_reverse]
    rfl

theorem slotIndex_le (lines : List Text) : slotIndex lines ≤ firstCode lines := by
  obtain ⟨kept, blanks, hheader, -, hslot⟩ := exists_slotIndex_eq lines
  have hlength : firstCode lines = kept.length + blanks.length := by
    rw [firstCode, hheader, List.length_append]
  rw [hslot]
  split_ifs <;> omega

/-- New statements go in front of a blank line or of a code line, if not to the end. -/
theorem getElem?_slotIndex {lineClass : PrologueLine}
    (hclass : (classes false 0 lines)[slotIndex lines]? = some lineClass) :
    lineClass = .blank ∨ lineClass = .code := by
  obtain ⟨kept, blanks, hheader, hblanks, hslot⟩ := exists_slotIndex_eq lines
  have hlength : firstCode lines = kept.length + blanks.length := by
    rw [firstCode, hheader, List.length_append]
  by_cases hfirst : slotIndex lines = firstCode lines
  · rw [hfirst] at hclass
    exact .inr (getElem?_firstCode hclass)
  · have hkept : slotIndex lines = kept.length := by
      rw [hslot] at hfirst ⊢
      split_ifs at hfirst ⊢ with hne
      · rfl
      · exact absurd rfl hfirst
      · omega
    have hlt : kept.length < firstCode lines :=
      hkept ▸ Nat.lt_of_le_of_ne (slotIndex_le lines) hfirst
    rw [hkept, getElem?_classes_of_lt hlt, hheader,
      List.getElem?_append_right (Nat.le_refl _)] at hclass
    exact .inl (hblanks _ (List.mem_of_getElem? hclass))

/-- In an open block comment a line is code if the comment is closed on it and something else
follows; it is never blank. -/
theorem step_true_fst :
    (step true index line).1 =
      if ∃ cut ∈ Text.cut? ['*', '/'] line.trim, mayFollowComment cut.2 = false then .code
      else .blockContinuation := by
  simp only [step, if_true]
  cases Text.cut? ['*', '/'] line.trim with
  | none => simp
  | some cut => cases hfollow : mayFollowComment cut.2 <;> simp [hfollow]

/-- The slot is in front of a line that closes a comment, open by the classes, and goes on with
something else. -/
def ClosesInCode (lines : List Text) : Prop :=
  openAbove lines (slotIndex lines) = true ∧ ∃ line ∈ lines[slotIndex lines]?,
    ∃ cut ∈ Text.cut? ['*', '/'] line.trim, mayFollowComment cut.2 = false

/-- By the classes, the slot is in a comment only in front of a line that closes it and goes on with
code, or behind a comment that is never closed. -/
theorem openAbove_slotIndex_iff
    (hend : slotIndex lines = lines.length → openAbove lines (slotIndex lines) = false) :
    openAbove lines (slotIndex lines) = true ↔ ClosesInCode lines := by
  refine ⟨fun hopen => ?_, And.left⟩
  cases hline : lines[slotIndex lines]? with
  | none =>
      have hlast : slotIndex lines = lines.length :=
        Nat.le_antisymm (Nat.le_trans (slotIndex_le lines) (firstCode_le lines))
          (List.getElem?_eq_none_iff.1 hline)
      rw [hend hlast] at hopen
      cases hopen
  | some line =>
      have hclass := getElem?_classes false 0 lines (slotIndex lines)
      rw [hline, Option.map_some, Nat.zero_add, ← openAbove, hopen] at hclass
      have hslot := getElem?_slotIndex hclass
      rw [step_true_fst] at hslot
      split_ifs at hslot with hcloses
      · exact ⟨hopen, line, hline, hcloses⟩
      · simp at hslot

end Prologue

/-! ## Inserted statements -/

namespace Text

def endsInComment (t : Text) : Bool :=
  (CommentState.live.behind t).inComment

/-- A line that is taken for a comment or a directive by its front alone leaves a block comment
open. -/
def OpensUnseen (t : Text) (index : Nat) : Prop :=
  ∃ line ∈ (LinedText.splitLines t)[index]?,
    Prologue.isTakenByFront (Prologue.openAbove (LinedText.splitLines t) index) index line ∧
      (t.linesAbove (index + 1)).endsInComment

instance (t : Text) (index : Nat) : Decidable (t.OpensUnseen index) :=
  inferInstanceAs (Decidable (∃ _ ∈ _, _))

theorem join_append_of_ne_nil {sep : Text} {right : List Text} (left : List Text)
    (hright : right ≠ []) :
    join sep (left ++ right) = left.flatMap (· ++ sep) ++ join sep right := by
  induction left with
  | nil => rfl
  | cons first left ih =>
      obtain ⟨second, rest, hrest⟩ := List.exists_cons_of_ne_nil
        (List.append_ne_nil_of_right_ne_nil left hright)
      rw [List.cons_append, hrest, join_cons_cons, ← hrest, ih, List.flatMap_cons]
      simp

theorem exists_join_append (sep : Text) {left : List Text} (hleft : left ≠ [])
    (right : List Text) : ∃ below, join sep (left ++ right) = join sep left ++ below := by
  by_cases hright : right = []
  · exact ⟨[], by rw [hright, List.append_nil, List.append_nil]⟩
  · exact ⟨_, by rw [join_append hleft hright, List.append_assoc]⟩

theorem flatMap_pieces (t : Text) : (t.pieces '\n').flatMap (· ++ ['\n']) = t ++ ['\n'] := by
  rw [← join_pieces '\n' (t ++ ['\n']), pieces_append_sep,
    join_append_of_ne_nil _ (pieces_ne_nil '\n' [])]
  simp [pieces]

theorem endsInComment_linesAbove (t : Text) (index : Nat) :
    (t.linesAbove index).endsInComment =
      ((LinedText.splitLines t).take index).foldl CommentState.openBehindLine false := by
  have hlines := CommentState.behind_flatMap_lineBreak false .lf ((t.pieces '\n').take index)
  rw [LinedText.splitLines, ← List.map_take, CommentState.foldl_openBehindLine_dropReturn]
  exact (congrArg CommentState.inComment hlines).trans (CommentState.inComment_ofOpen _)

/-- A text that is cut off in no comment has none open behind its last line. -/
theorem endsInComment_linesAbove_length (t : Text) :
    (t.linesAbove (LinedText.splitLines t).length).endsInComment = t.endsInComment := by
  rw [LinedText.splitLines, List.length_map, linesAbove, List.take_length, flatMap_pieces,
    endsInComment, CommentState.behind_append, CommentState.behind_cons, CommentState.behind_nil,
    CommentState.step_break, CommentState.inComment_ofOpen, ← endsInComment]

end Text

/-- The lines above the slot, each with the line break of the text. -/
def LinedText.aboveSlot (l : LinedText) : Text :=
  (l.lines.take l.slot.line).flatMap (· ++ l.lineBreak.text)

/-- Inserting puts the statement right behind the lines above the slot. -/
theorem exists_insertBelowPrologue_eq (source statement : Text) :
    ∃ below, insertBelowPrologue source statement = (LinedText.ofText source).aboveSlot ++
      Text.join (LineBreak.ofText source).text (LinedText.splitLines statement) ++ below := by
  have hne : LinedText.splitLines statement ≠ [] := LinedText.lines_ofText_ne_nil statement
  obtain ⟨below, hbelow⟩ := Text.exists_join_append (LineBreak.ofText source).text hne
    ((if (LinedText.ofText source).slot.blankAfter then [[]] else []) ++
      (LinedText.ofText source).lines.drop (LinedText.ofText source).slot.line)
  refine ⟨below, ?_⟩
  rw [insertBelowPrologue, LinedText.toText, LinedText.insertStatement, LinedText.insertAt,
    List.append_assoc, List.append_assoc, List.append_assoc,
    Text.join_append_of_ne_nil _ (List.append_ne_nil_of_left_ne_nil hne _), ← hbelow]
  rfl

/-- If no comment is opened unseen, the classes tell whether the lines above the slot end in a
comment, before and after their line breaks are made alike. -/
theorem endsInComment_aboveSlot {source : Text}
    (hseen : ∀ index < (LinedText.ofText source).slot.line, ¬ source.OpensUnseen index) :
    (source.linesAbove (LinedText.ofText source).slot.line).endsInComment =
        Prologue.openAbove (LinedText.splitLines source) (LinedText.ofText source).slot.line ∧
      CommentState.live.behind (LinedText.ofText source).aboveSlot =
        .ofOpen (source.linesAbove (LinedText.ofText source).slot.line).endsInComment := by
  have hbreak : ∀ line ∈ LinedText.splitLines source, '\n' ∉ line := by
    intro line hline
    obtain ⟨piece, hpiece, rfl⟩ := List.mem_map.1 hline
    exact fun hmem => Text.not_mem_of_mem_pieces hpiece (Text.mem_of_mem_dropReturn hmem)
  rw [Text.endsInComment_linesAbove]
  refine ⟨Prologue.foldl_openBehindLine_take hbreak (Prologue.slotIndex_le _) ?_,
    CommentState.behind_flatMap_lineBreak false _ _⟩
  intro index hindex line hline htaken
  rw [← Text.endsInComment_linesAbove, ← Bool.not_eq_true]
  exact fun hopen => hseen index hindex ⟨line, hline, htaken, hopen⟩

/-- A new statement is commented out just where a comment is closed on a line that goes on with
code, in a text in which every comment is closed and none is opened behind a directive or in a first
line that starts with `#!`. -/
theorem insertBelowPrologue_live_iff {source : Text} (hclosed : source.endsInComment = false)
    (hseen : ∀ index < (LinedText.ofText source).slot.line, ¬ source.OpensUnseen index)
    (statement : Text) :
    ((source.linesAbove (LinedText.ofText source).slot.line).endsInComment = true ↔
      Prologue.ClosesInCode (LinedText.splitLines source)) ∧
    ∃ below, insertBelowPrologue source statement = (LinedText.ofText source).aboveSlot ++
        Text.join (LineBreak.ofText source).text (LinedText.splitLines statement) ++ below ∧
      (CommentState.live.behind (LinedText.ofText source).aboveSlot = .live ↔
        ¬ Prologue.ClosesInCode (LinedText.splitLines source)) := by
  obtain ⟨hclasses, hbehind⟩ := endsInComment_aboveSlot hseen
  obtain ⟨below, hbelow⟩ := exists_insertBelowPrologue_eq source statement
  have hslot : (source.linesAbove (LinedText.ofText source).slot.line).endsInComment = true ↔
      Prologue.ClosesInCode (LinedText.splitLines source) := by
    rw [hclasses]
    apply Prologue.openAbove_slotIndex_iff
    intro hlast
    calc
      Prologue.openAbove (LinedText.splitLines source) (LinedText.ofText source).slot.line =
          (source.linesAbove (LinedText.ofText source).slot.line).endsInComment := hclasses.symm
      _ = (source.linesAbove (LinedText.splitLines source).length).endsInComment :=
          congrArg (fun line => (source.linesAbove line).endsInComment) hlast
      _ = false := by rw [Text.endsInComment_linesAbove_length, hclosed]
  refine ⟨hslot, below, hbelow, ?_⟩
  rw [hbehind, ← hslot]
  cases (source.linesAbove (LinedText.ofText source).slot.line).endsInComment <;>
    simp [CommentState.ofOpen]

def headerWithCode : Text :=
  "/*\n * header\n */ const x = 1;\n".toList

/-- The statement is put inside the header. -/
theorem insertBelowPrologue_live_headerWithCode :
    headerWithCode.endsInComment = false ∧
    (∀ index < (LinedText.ofText headerWithCode).slot.line, ¬ headerWithCode.OpensUnseen index) ∧
    Prologue.ClosesInCode (LinedText.splitLines headerWithCode) ∧
    (headerWithCode.linesAbove (LinedText.ofText headerWithCode).slot.line).endsInComment = true ∧
    insertBelowPrologue headerWithCode "import A;".toList =
      "/*\n * header\nimport A;\n\n */ const x = 1;\n".toList := by
  have hclosed : headerWithCode.endsInComment = false := by decide +kernel
  have hseen : ∀ index < (LinedText.ofText headerWithCode).slot.line,
      ¬ headerWithCode.OpensUnseen index := by decide +kernel
  obtain ⟨hslot, -⟩ := insertBelowPrologue_live_iff hclosed hseen "import A;".toList
  have hcloses : Prologue.ClosesInCode (LinedText.splitLines headerWithCode) := by
    unfold Prologue.ClosesInCode
    decide +kernel
  exact ⟨hclosed, hseen, hcloses, hslot.2 hcloses, by decide +kernel⟩

end Transplant
