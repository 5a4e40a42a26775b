import Transplant.Proofs.DocComments
import Transplant.Proofs.LiveCode

/-!
# Braces of outlined declarations

The outline measures a declaration by a scan from the start of its line to the end of its statement,
and takes whole lines.  In a text whose brackets are nested the statement closes the braces that it
opens.  The lines of the declaration do so as well, unless something behind the statement on its
last line, such as the body of a function behind the braces of its return type, does not.
-/

namespace Transplant

/-- As many braces are closed as opened. -/
def BracesMatch (t : Text) : Prop :=
  t.count '\x7b' = t.count '\x7d'

instance (t : Text) : Decidable (BracesMatch t) :=
  inferInstanceAs (Decidable (_ = _))

def ClosesOwnBraces (t : Text) : Prop :=
  ∀ n, (t.take n).count '\x7d' ≤ (t.take n).count '\x7b'

namespace Statement

/-! ## The scan for the end of a statement -/

/-- Where a statement can end in live code: at the end of the text, or else with no more braces open
than closed, in front of a line break or behind a closing brace or a semicolon.  `braces` is the
number of braces open in front. -/
def Ends (braces : Int) (live : Text) (n : Nat) : Prop :=
  n = live.length ∨
    braces + (live.take n).count '\x7b' ≤ (live.take n).count '\x7d' ∧
      (live[n]? = some '\n' ∨ (live.take n).getLast? = some '\x7d' ∨
        (live.take n).getLast? = some ';')

/-- The braces that a character of live code opens, less those that it closes. -/
def braceShift (c : Char) : Int :=
  (if c = '\x7b' then 1 else 0) - if c = '\x7d' then 1 else 0

theorem braces_after (d : Depth) (c : Char) : (d.after c).braces = d.braces + braceShift c := by
  unfold Depth.after
  split
  · simp [braceShift]
  · simp [braceShift]
  · simp [braceShift]
  · simp [braceShift]
  · simp [braceShift]
  · simp [braceShift]; omega
  · simp_all [braceShift]

theorem Ends.cons {braces : Int} {live : Text} {n : Nat} {c : Char}
    (hends : Ends (braces + braceShift c) live n) : Ends braces (c :: live) (n + 1) := by
  obtain rfl | ⟨hbraces, hplace⟩ := hends
  · exact .inl rfl
  · right
    constructor
    · rw [List.take_succ_cons, List.count_cons, List.count_cons]
      simp only [braceShift, beq_iff_eq] at hbraces ⊢
      split at hbraces <;> split at hbraces <;> simp_all <;> omega
    · have hlast : ∀ d, (live.take n).getLast? = some d →
          ((c :: live).take (n + 1)).getLast? = some d := by
        intro d hd
        rw [List.take_succ_cons, List.getLast?_cons, hd, Option.getD_some]
      exact hplace.imp id (Or.imp (hlast _) (hlast _))

/-- The end that the scan finds. -/
theorem endFrom_spec (block : Bool) (state : LexState) (depth : Depth) (current : Text)
    {offset : Nat} (hoffset : 0 < offset) (t : Text) :
    ∃ n, n ≤ t.length ∧ endFrom block state depth current offset t + 1 = offset + n ∧
      Ends depth.braces (state.blanked t) n := by
  induction t generalizing state depth current offset with
  | nil => exact ⟨0, Nat.le_refl 0, by simp only [endFrom]; omega, .inl rfl⟩
  | cons c rest ih =>
      rcases hstep : state.step c rest.head? with ⟨live, next⟩
      simp only [endFrom, LexState.blanked, hstep]
      -- The scan goes on behind the character that shows as `shown`.
      have hgoes : ∀ (shown : Char) (depth' : Depth) (current' : Text),
          depth'.braces = depth.braces + braceShift shown →
          ∃ n, n ≤ rest.length + 1 ∧
            endFrom block next depth' current' (offset + 1) rest + 1 = offset + n ∧
            Ends depth.braces (shown :: next.blanked rest) n := by
        intro shown depth' current' hdepth
        have hnext : 0 < offset + 1 := Nat.succ_pos offset
        obtain ⟨n, hlength, hend, hends⟩ := ih next depth' current' hnext
        rw [hdepth] at hends
        exact ⟨n + 1, by omega, by omega, hends.cons⟩
      cases live with
      | false =>
          have hshift : braceShift (if c = '\n' then c else ' ') = 0 := by
            split
            · rename_i hc
              rw [hc]
              rfl
            · rfl
          simpa using hgoes (if c = '\n' then c else ' ') depth (c :: current) (by simp [hshift])
      | true =>
          simp only [Bool.not_true, Bool.false_eq_true, if_false, Bool.true_or, if_true]
          split
          · -- A brace that closes a block.
            rename_i hcloses
            obtain ⟨rfl, -, hblock⟩ := hcloses
            simp only [Depth.closesBlock, braces_after, Bool.and_eq_true, decide_eq_true_eq]
              at hblock
            have hbraces : depth.braces + -1 = 0 := hblock.1.1
            have hopen : depth.braces = 1 := by omega
            exact ⟨1, by simp, rfl, .inr ⟨by simp [hopen], .inr (.inl rfl)⟩⟩
          · split
            · -- A semicolon outside all brackets.
              rename_i hsemicolon
              obtain ⟨rfl, htop⟩ := hsemicolon
              simp only [Depth.atTop, Bool.and_eq_true, decide_eq_true_eq] at htop
              exact ⟨1, by simp, rfl, .inr ⟨by simpa using htop.2, .inr (.inr rfl)⟩⟩
            · split
              · rename_i hbreak
                subst hbreak
                split
                · -- A line break outside all brackets.
                  rename_i htop
                  simp only [Depth.atTop, Bool.and_eq_true, decide_eq_true_eq] at htop
                  exact ⟨0, by simp, by omega, .inr ⟨by simpa using htop.1.1.2, .inl rfl⟩⟩
                · exact hgoes '\n' depth [] (by simp [braceShift])
              · exact hgoes c (depth.after c) (c :: current) (braces_after depth c)

/-- The end of a statement that starts with a word. -/
theorem endOffset_spec (block : Bool) {c : Char} (hc : isIdentStart c) (rest : Text) :
    endOffset block (c :: rest) < (c :: rest).length ∧
      Ends 0 (liveCode (c :: rest)) (endOffset block (c :: rest) + 1) := by
  have hmarks : c ≠ '\x27' ∧ c ≠ '"' ∧ c ≠ '\x60' ∧ c ≠ '/' ∧ c ≠ '\x7b' ∧ c ≠ '\x7d' ∧
      c ≠ ';' ∧ c ≠ '\n' := by
    refine ⟨?_, ?_, ?_, ?_, ?_, ?_, ?_, ?_⟩ <;> rintro rfl <;> exact absurd hc (by decide)
  have hstep : LexState.code.step c rest.head? = (true, .code) := by
    simp [LexState.step, hmarks]
  have hdepth : Depth.zero.after c = .zero := by
    unfold Depth.after
    split
    all_goals first | rfl | exact absurd hc (by decide)
  have hend : endOffset block (c :: rest) = endFrom block .code .zero [c] 1 rest := by
    simp [endOffset, endFrom, hstep, hdepth, hmarks]
  obtain ⟨n, hlength, hoffset, hends⟩ :=
    endFrom_spec block .code .zero [c] Nat.zero_lt_one rest
  have hcount : endOffset block (c :: rest) + 1 = n + 1 := by omega
  have hlive : liveCode (c :: rest) = c :: liveCode rest := by
    simp [liveCode, LexState.blanked, hstep]
  have hshift : braceShift c = 0 := by simp [braceShift, hmarks]
  refine ⟨by rw [List.length_cons]; omega, ?_⟩
  rw [hcount, hlive]
  apply Ends.cons
  rw [hshift]
  exact hends

end Statement

namespace Outline

/-! ## The lines of an item -/

/-- Where the items of an outline come from. -/
theorem mem_collect {lines : List Text} {codeStart floor index stop : Nat} {parent : Option Kind}
    {item : OutlineItem} (hitem : item ∈ collect lines codeStart parent floor index stop) :
    ∃ line, index ≤ line ∧ line < stop ∧
      matchLine? parent (lineAt lines line) = some (item.name, item.kind) ∧
      item.range = ⟨docStart lines floor codeStart line,
        lastLine lines (hasBody parent item.kind) line stop⟩ ∧
      item.children =
        if item.kind.nests then
          collect lines codeStart (some item.kind) (line + 1) (line + 1) item.range.last
        else [] := by
  fun_induction collect lines codeStart parent floor index stop with
  | case1 parent floor index stop hstop hnone ih =>
      obtain ⟨line, hline, hrest⟩ := ih hitem
      exact ⟨line, Nat.le_of_succ_le hline, hrest⟩
  | case2 parent floor index stop hstop name kind hread last children _ ih =>
      obtain rfl | hitem := List.mem_cons.1 hitem
      · exact ⟨index, Nat.le_refl index, hstop, hread, rfl, rfl⟩
      · obtain ⟨line, hline, hrest⟩ := ih hitem
        have hlast : index ≤ last := le_lastLine lines (hasBody parent kind) index stop
        exact ⟨line, by omega, hrest⟩
  | case3 => cases hitem

/-- The line of the declaration: the first line of an item that declares something, below its
comments and decorators. -/
def declarationLine (content : Text) (item : OutlineItem) : Nat :=
  item.range.first + ((content.pieces '\n').drop item.range.first).findIdx
    fun line => (matchLine? none line).isSome

/-- The live code from the line of the declaration on. -/
def codeBelow (content : Text) (item : OutlineItem) : Text :=
  liveCode (content.fromLine (declarationLine content item))

/-- The number of characters of the declaration, from the start of its line on. -/
def extent (content : Text) (item : OutlineItem) : Nat :=
  Statement.endOffset item.kind.hasBlock (content.fromLine (declarationLine content item)) + 1

/-- The live code of the declaration. -/
def statementOf (content : Text) (item : OutlineItem) : Text :=
  (codeBelow content item).take (extent content item)

def trailingOf (content : Text) (item : OutlineItem) : Text :=
  ((codeBelow content item).drop (extent content item)).takeWhile (· ≠ '\n')

/-- The live code on the lines from the line of the declaration to the last line of the item. -/
def declarationLines (content : Text) (item : OutlineItem) : Text :=
  Text.join ['\n'] ((((liveCode content).pieces '\n').take (item.range.last + 1)).drop
    (declarationLine content item))

theorem lineAt_eq {lines : List Text} {index : Nat} (hindex : index < lines.length) :
    lineAt lines index = lines[index] := by
  simp [lineAt, hindex]

/-- The first line from `first` on with a property is the line that has it below lines without. -/
theorem add_findIdx_drop {lines : List Text} {property : Text → Bool} {first line : Nat}
    (hfirst : first ≤ line) (hline : line < lines.length) (hhere : property (lineAt lines line))
    (habove : ∀ i, first ≤ i → i < line → property (lineAt lines i) = false) :
    first + (lines.drop first).findIdx property = line := by
  have hfind : (lines.drop first).findIdx property = line - first := by
    rw [List.findIdx_eq (by rw [List.length_drop]; omega)]
    constructor
    · have hsum : first + (line - first) = line := by omega
      simpa only [List.getElem_drop, hsum, ← lineAt_eq hline] using hhere
    · intro i hi
      rw [List.getElem_drop, ← lineAt_eq]
      exact habove (first + i) (by omega) (by omega)
  rw [hfind]
  omega

theorem declarationLine_eq {content : Text} {item : OutlineItem} {line codeStart floor : Nat}
    {found : Text × Kind} (hline : line < (content.pieces '\n').length)
    (hread : matchLine? none (lineAt (content.pieces '\n') line) = some found)
    (hfirst : item.range.first = docStart (content.pieces '\n') floor codeStart line) :
    declarationLine content item = line := by
  obtain ⟨hle, hdocs⟩ := docStart_spec (content.pieces '\n') floor codeStart line
  rw [← hfirst] at hle hdocs
  apply add_findIdx_drop hle hline
  · rw [hread]
    rfl
  · intro i hi hbelow
    rw [matchLine?_of_isDocLine (hdocs i hi hbelow)]
    rfl

/-- A declaration in the first column is read off the head of its line. -/
theorem exists_head_of_matchLine? {line name : Text} {kind : Kind}
    (hread : matchLine? none line = some (name, kind)) :
    ∃ h, Head.parse? line = some h ∧ h.isTopLevel ∧ h.name = name ∧ h.kind = kind := by
  unfold matchLine? at hread
  split at hread
  · rename_i h hhead
    split at hread
    · cases hread
    · rename_i htop
      cases hread
      exact ⟨h, hhead, by simpa using htop, rfl, rfl⟩
  · simp at hread

/-- A declaration in the first column starts with a word. -/
theorem exists_cons_of_matchLine? {line : Text} {found : Text × Kind}
    (hread : matchLine? none line = some found) :
    ∃ c rest, line = c :: rest ∧ isIdentStart c := by
  obtain ⟨h, hhead, htop, -⟩ := exists_head_of_matchLine? hread
  have hindent : line.takeWhile Head.isIndent = [] := by
    rw [Head.parse?_eq] at hhead
    obtain ⟨declared, -, rfl⟩ := Option.map_eq_some_iff.1 hhead
    simpa [Head.isTopLevel] using htop
  have hled := (Head.ledBy_of_parse? hhead).2
  rw [Head.unindented_of_takeWhile hindent] at hled
  exact hled.exists_cons (by decide)

/-- How the outline measures an item at the top level. -/
structure Measured (content : Text) (item : OutlineItem) : Prop where
  inside : declarationLine content item < (content.pieces '\n').length
  starts : ∃ c rest, content.fromLine (declarationLine content item) = c :: rest ∧ isIdentStart c
  last_eq : item.range.last = declarationLine content item +
    Statement.lineBreaks item.kind.hasBlock (content.fromLine (declarationLine content item))

theorem measured_of_mem {content : Text} {item : OutlineItem} (hitem : item ∈ heuristic content) :
    Measured content item := by
  obtain ⟨line, -, hline, hread, hrange, -⟩ := mem_collect hitem
  have hfirst := congrArg LineSpan.first hrange
  have hdecl : declarationLine content item = line := declarationLine_eq hline hread hfirst
  refine ⟨?_, ?_, ?_⟩ <;> rw [hdecl]
  · exact hline
  · rw [lineAt_eq hline] at hread
    obtain ⟨c, rest, hcons, hc⟩ := exists_cons_of_matchLine? hread
    have hdrop : (content.pieces '\n').drop line =
        (c :: rest) :: (content.pieces '\n').drop (line + 1) := by
      rw [List.drop_eq_getElem_cons hline, hcons]
    rw [Text.fromLine, hdrop]
    cases (content.pieces '\n').drop (line + 1) with
    | nil => exact ⟨c, rest, by simp, hc⟩
    | cons second more =>
        exact ⟨c, rest ++ ['\n'] ++ Text.join ['\n'] (second :: more), by simp, hc⟩
  · have hlast : item.range.last = lastLine (content.pieces '\n') (hasBody none item.kind) line
        (content.pieces '\n').length := congrArg LineSpan.last hrange
    have hblock : hasBody none item.kind = item.kind.hasBlock := by simp [hasBody]
    have hbreaks : Statement.lineBreaks item.kind.hasBlock (content.fromLine line) ≤
        (content.fromLine line).count '\n' := (List.take_sublist _ _).count_le _
    have hcount := Text.count_fromLine hline
    rw [hlast, hblock, lastLine, ← Text.fromLine]
    omega

variable {content : Text} {item : OutlineItem}

/-- The end of the declaration of an item. -/
theorem Measured.ends (hitem : Measured content item) :
    extent content item ≤ (codeBelow content item).length ∧
      Statement.Ends 0 (codeBelow content item) (extent content item) := by
  obtain ⟨c, rest, hcons, hc⟩ := hitem.starts
  obtain ⟨hlength, hends⟩ := Statement.endOffset_spec item.kind.hasBlock hc rest
  rw [codeBelow, extent, hcons]
  constructor
  · rwa [liveCode, LexState.length_blanked]
  · exact hends

/-- The lines of an item from the line of its declaration on. -/
theorem Measured.declarationLines_eq (hitem : Measured content item)
    (hcode : stateAt content (declarationLine content item) = .code) {offset : Nat}
    (hoffset : extent content item = offset + 1) :
    declarationLines content item = (codeBelow content item).take offset ++
      ((codeBelow content item).drop offset).takeWhile (· ≠ '\n') := by
  have hbreaks : Statement.lineBreaks item.kind.hasBlock
      (content.fromLine (declarationLine content item)) =
        ((codeBelow content item).take offset).count '\n' := by
    rw [Statement.lineBreaks, codeBelow, liveCode, LexState.count_take_blanked]
    rw [extent, Nat.add_right_cancel_iff] at hoffset
    rw [hoffset]
  have hrest : item.range.last + 1 - declarationLine content item =
      ((codeBelow content item).take offset).count '\n' + 1 := by
    rw [hitem.last_eq, hbreaks]
    omega
  rw [declarationLines, List.drop_take, drop_pieces_liveCode hitem.inside hcode, hrest,
    ← codeBelow, Text.join_take_pieces]

/-- A declaration is followed by something on its last line only where it ends with a brace or a
semicolon. -/
theorem Measured.trailingOf_eq_nil_or (hitem : Measured content item) :
    trailingOf content item = [] ∨ (statementOf content item).getLast? = some '\x7d' ∨
      (statementOf content item).getLast? = some ';' := by
  obtain hall | ⟨-, hbreak | hlast⟩ := hitem.ends.2
  · left
    rw [trailingOf, hall, List.drop_length]
    rfl
  · left
    obtain ⟨hlength, hchar⟩ := List.getElem?_eq_some_iff.1 hbreak
    rw [trailingOf, List.drop_eq_getElem_cons hlength, hchar]
    rfl
  · exact .inr hlast

/-- The lines of a declaration have the declaration and what follows it, up to line breaks. -/
theorem Measured.count_declarationLines (hitem : Measured content item)
    (hcode : stateAt content (declarationLine content item) = .code) {c : Char} (hc : c ≠ '\n') :
    (declarationLines content item).count c =
      (statementOf content item).count c + (trailingOf content item).count c := by
  obtain ⟨offset, hoffset⟩ : ∃ offset, extent content item = offset + 1 := ⟨_, rfl⟩
  have hlength : offset < (codeBelow content item).length := by
    have hextent := hitem.ends.1
    omega
  have htrailing := hitem.trailingOf_eq_nil_or
  rw [statementOf, trailingOf, hoffset, List.take_add_one, List.getElem?_eq_getElem hlength,
    Option.toList_some] at htrailing ⊢
  rw [hitem.declarationLines_eq hcode hoffset, List.drop_eq_getElem_cons hlength]
  generalize (codeBelow content item)[offset] = last at htrailing ⊢
  by_cases hbreak : last = '\n'
  · -- Where the last character is a line break, the text ends.
    subst hbreak
    have hnil : ((codeBelow content item).drop (offset + 1)).takeWhile (· ≠ '\n') = [] := by
      simpa using htrailing
    rw [hnil, List.takeWhile_cons_of_neg (by decide)]
    simp [Ne.symm hc]
  · rw [List.takeWhile_cons_of_pos (by simpa using hbreak), List.append_cons, List.count_append]

theorem Measured.bracesMatch_declarationLines_iff (hitem : Measured content item)
    (hcode : stateAt content (declarationLine content item) = .code)
    (hstatement : BracesMatch (statementOf content item)) :
    BracesMatch (declarationLines content item) ↔ BracesMatch (trailingOf content item) := by
  rw [BracesMatch] at hstatement
  rw [BracesMatch, BracesMatch, hitem.count_declarationLines hcode (by decide),
    hitem.count_declarationLines hcode (by decide), hstatement]
  exact Nat.add_left_cancel_iff

/-- In a text with nested brackets, a declaration closes the braces that it opens. -/
theorem Measured.bracesMatch_statementOf (hitem : Measured content item)
    (hnested : BracketsNested content)
    (hcode : stateAt content (declarationLine content item) = .code)
    (hown : ClosesOwnBraces (statementOf content item)) :
    BracesMatch (statementOf content item) := by
  have hcloses := hown (statementOf content item).length
  rw [List.take_length] at hcloses
  refine Nat.le_antisymm ?_ hcloses
  obtain hall | ⟨hbraces, -⟩ := hitem.ends.2
  · rw [statementOf, hall, List.take_length]
    exact hnested.count_le hitem.inside hcode
  · rw [statementOf]
    omega

/-- A declaration outside all braces closes no brace that it does not open. -/
theorem Measured.closesOwnBraces (hitem : Measured content item) (hnested : BracketsNested content)
    (hcode : stateAt content (declarationLine content item) = .code)
    (houtside : BracesMatch (liveCode (content.linesAbove (declarationLine content item)))) :
    ClosesOwnBraces (statementOf content item) := by
  intro n
  rw [BracketsNested, liveCode_eq hitem.inside hcode, openBehind_append] at hnested
  obtain ⟨opened, habove, hrest⟩ := Option.bind_eq_some_iff.1 hnested
  have hopened : opened.count '\x7b' = 0 := by
    have hcount := count_openBehind habove
    rw [houtside, List.count_nil] at hcount
    omega
  obtain ⟨k, hk⟩ : ∃ k, (statementOf content item).take n = (codeBelow content item).take k :=
    ⟨_, by rw [statementOf, List.take_take]⟩
  rw [← codeBelow, ← List.take_append_drop k (codeBelow content item), openBehind_append] at hrest
  obtain ⟨opened', hfront, -⟩ := Option.bind_eq_some_iff.1 hrest
  have hcount := count_openBehind hfront
  rw [hk]
  omega

/-- The outline does not split the block of a declaration.  In a text whose brackets are nested, a
declaration whose line starts with code and that closes no brace opened above it closes every brace
that it opens.  Its lines do so exactly if what follows it on its last line does, and something
follows only behind a brace or a semicolon. -/
theorem braces_heuristic (hnested : BracketsNested content) (hitem : item ∈ heuristic content)
    (hcode : stateAt content (declarationLine content item) = .code)
    (hown : ClosesOwnBraces (statementOf content item)) :
    BracesMatch (statementOf content item) ∧
      (BracesMatch (declarationLines content item) ↔ BracesMatch (trailingOf content item)) ∧
      (trailingOf content item = [] ∨ (statementOf content item).getLast? = some '\x7d' ∨
        (statementOf content item).getLast? = some ';') := by
  have hmeasured := measured_of_mem hitem
  have hstatement := hmeasured.bracesMatch_statementOf hnested hcode hown
  exact ⟨hstatement, hmeasured.bracesMatch_declarationLines_iff hcode hstatement,
    hmeasured.trailingOf_eq_nil_or⟩

def documentedFunction : Text :=
  "let x;\n/** A \x7b. */\nfunction f(a) \x7b\n  if (a) \x7b return \"\x7d\"; \x7d\n\x7d\n".toList

theorem braces_heuristic_documented :
    ∃ item ∈ heuristic documentedFunction, item.range = ⟨1, 4⟩ ∧
      BracesMatch (statementOf documentedFunction item) ∧
      BracesMatch (declarationLines documentedFunction item) := by
  obtain ⟨item, hitem, hrange, hcode, houtside, htrailing⟩ :
      ∃ item ∈ heuristic documentedFunction, item.range = ⟨1, 4⟩ ∧
        stateAt documentedFunction (declarationLine documentedFunction item) = .code ∧
        BracesMatch (liveCode (documentedFunction.linesAbove
          (declarationLine documentedFunction item))) ∧
        trailingOf documentedFunction item = [] := by
    decide +kernel
  have hnested : BracketsNested documentedFunction := by decide +kernel
  have hown := (measured_of_mem hitem).closesOwnBraces hnested hcode houtside
  obtain ⟨hstatement, hlines, -⟩ := braces_heuristic hnested hitem hcode hown
  have htrailing : BracesMatch (trailingOf documentedFunction item) := by
    rw [htrailing]
    rfl
  exact ⟨item, hitem, hrange, hstatement, hlines.2 htrailing⟩

/-- The lines of some declaration do not close the braces that they open. -/
def SplitsBraces (content : Text) : Prop :=
  ∃ item ∈ heuristic content, ¬ BracesMatch (declarationLines content item)

instance (content : Text) : Decidable (SplitsBraces content) :=
  List.decidableBEx _ (heuristic content)

/-- A function whose return type has braces of its own: the first block ends there. -/
def bracedReturnType : Text :=
  "function f(): \x7b a: number \x7d \x7b\n  return \x7b a: 1 \x7d;\n\x7d\n".toList

def declarationInBlock : Text :=
  "\x7b\ntype A = 1 \x7d\n".toList

def declarationInTemplate : Text :=
  "foo(\x60\ntype A =\n\x60); \x7b\n\x60;\x60\n\x7d\n".toList

/-- Nested brackets alone do not keep the outline from splitting braces. -/
theorem splitsBraces_of_nested :
    (BracketsNested bracedReturnType ∧ SplitsBraces bracedReturnType) ∧
      (BracketsNested declarationInBlock ∧ SplitsBraces declarationInBlock) ∧
      BracketsNested declarationInTemplate ∧ SplitsBraces declarationInTemplate := by
  decide +kernel

end Outline

end Transplant
