import Transplant.Outline.Heuristic
import Transplant.Proofs.Heads

/-!
# The comments above a declaration

The outline lets a declaration take along the comments and decorators above it.  No such line
declares anything itself.  Below the header of the file the search goes up over every line that
looks like a comment or a decorator; of the header only a documentation block at its end is taken.
So the lines that are taken can be told from the lines alone, and where the search is made from
does not matter.
-/

namespace Transplant

theorem Text.isPrefix_trimEnd (t : Text) : t.trimEnd <+: t := by
  have hback : t.reverse.dropWhile isBlank <:+ t.reverse := List.dropWhile_suffix isBlank
  simpa [trimEnd, dropEndWhile] using List.reverse_prefix.2 hback

theorem Text.isPrefix_trim (t : Text) : t.trim <+: t.trimStart :=
  isPrefix_trimEnd t.trimStart

namespace Method

/-- Characters that a method line can start with, behind its indent. -/
def isOpening (c : Char) : Bool :=
  isIdentStart c || c == '#'

theorem exists_cons_of_called? {t name : Text} (hread : called? t = some name) :
    ∃ c rest, t = c :: rest ∧ isOpening c := by
  cases t with
  | nil => cases hread
  | cons c rest =>
      simp only [called?] at hread
      split at hread
      · rename_i hc
        exact ⟨c, rest, rfl, hc⟩
      · cases hread

theorem exists_cons_of_modifier? {t rest : Text} (hread : modifier? t = some rest) :
    ∃ c rest, t = c :: rest ∧ isOpening c := by
  obtain ⟨phrase, hphrase, hread⟩ := List.exists_of_findSome?_eq_some hread
  obtain ⟨d, tail, -, rfl, -⟩ := Head.keyword?_eq_some_iff.1 hread
  have hled : Head.LedBy modifiers (phrase.toList ++ d :: tail) :=
    ⟨phrase, hphrase, List.prefix_append _ _⟩
  obtain ⟨c, more, hcons, hc⟩ := hled.exists_cons (by decide)
  exact ⟨c, more, hcons, by rw [isOpening, hc, Bool.true_or]⟩

theorem exists_cons_of_nameAfterModifiers? {t name : Text}
    (hread : nameAfterModifiers? t = some name) : ∃ c rest, t = c :: rest ∧ isOpening c := by
  rw [nameAfterModifiers?] at hread
  split at hread
  · rename_i rest hmodifier
    exact exists_cons_of_modifier? hmodifier
  · exact exists_cons_of_called? hread

/-- A method line starts with a name or a modifier behind its indent. -/
theorem exists_trimStart_of_name? {line name : Text} (hread : name? line = some name) :
    ∃ c rest, line.trimStart = c :: rest ∧ isOpening c := by
  simp only [name?] at hread
  split at hread
  · cases hread
  · obtain ⟨hname, -⟩ := Option.filter_eq_some_iff.1 hread
    obtain ⟨c, rest, hrest, hc⟩ := exists_cons_of_nameAfterModifiers? hname
    have hindent : ∀ d ∈ line.takeWhile (fun c => c == ' ' || c == '\t'), Text.isBlank d := by
      intro d hd
      obtain rfl | rfl : d = ' ' ∨ d = '\t' := by simpa using List.mem_takeWhile_imp hd
      · decide
      · decide
    have hblank : Text.isBlank c = false := by
      obtain hstart | hhash : isIdentStart c ∨ c = '#' := by simpa [isOpening] using hc
      · exact isBlank_of_isIdentStart hstart
      · rw [hhash]
        decide
    refine ⟨c, rest, ?_, hc⟩
    calc
      line.trimStart = Text.trimStart (line.takeWhile (fun c => c == ' ' || c == '\t') ++
          line.dropWhile (fun c => c == ' ' || c == '\t')) := by
        rw [List.takeWhile_append_dropWhile]
      _ = Text.trimStart (line.dropWhile fun c => c == ' ' || c == '\t') :=
        Text.trimStart_append hindent _
      _ = c :: rest := by rw [hrest, Text.trimStart_cons hblank]

end Method

namespace Outline

/-! ## Comments and decorators -/

/-- The marks that comments and decorators start with. -/
def docMarks : List Text :=
  [['/', '*'], ['*'], ['/', '/'], ['@']]

theorem exists_docMark {line : Text} (hdoc : isDocLine line) :
    ∃ mark ∈ docMarks, mark <+: line.trimStart := by
  obtain ⟨mark, hmark, hstart⟩ : ∃ mark ∈ docMarks, line.trim.startsWith mark := by
    simpa [isDocLine, docMarks, or_assoc] using hdoc
  obtain ⟨rest, hrest⟩ := Text.startsWith_iff.1 hstart
  exact ⟨mark, hmark, List.IsPrefix.trans ⟨rest, hrest.symm⟩ (Text.isPrefix_trim line)⟩

theorem parse?_of_isDocLine {line : Text} (hdoc : isDocLine line) : Head.parse? line = none := by
  obtain ⟨mark, hmark, hfront⟩ := exists_docMark hdoc
  have hwords : ∀ mark ∈ docMarks, ∀ word ∈ "export" :: Head.bodyWords,
      ¬ word.toList <+: mark ∧ ¬ mark <+: word.toList := by
    decide
  exact Head.parse?_of_lead (hwords mark hmark) hfront

/-- Comments and decorators do not declare anything. -/
theorem matchLine?_of_isDocLine {line : Text} {parent : Option Kind} (hdoc : isDocLine line) :
    matchLine? parent line = none := by
  obtain ⟨mark, hmark, hfront⟩ := exists_docMark hdoc
  have hmarks : ∀ mark ∈ docMarks, mark.head?.any (!Method.isOpening ·) := by
    decide
  have hmethod : Method.name? line = none := by
    rw [Option.eq_none_iff_forall_ne_some]
    intro name hname
    obtain ⟨c, rest, hstart, hc⟩ := Method.exists_trimStart_of_name? hname
    obtain ⟨d, hd, hopening⟩ := (Option.any_eq_true _ _).1 (hmarks mark hmark)
    obtain ⟨more, rfl⟩ := List.head?_eq_some_iff.1 hd
    rw [hstart, List.cons_prefix_cons] at hfront
    rw [hfront.1, hc] at hopening
    cases hopening
  unfold matchLine?
  rw [parse?_of_isDocLine hdoc, hmethod]
  simp

theorem not_isDocLine_of_matchLine? {line : Text} {parent : Option Kind} {found : Text × Kind}
    (hread : matchLine? parent line = some found) : isDocLine line = false := by
  by_contra hdoc
  rw [Bool.not_eq_false] at hdoc
  rw [matchLine?_of_isDocLine hdoc] at hread
  cases hread

variable {lines : List Text} {codeStart floor line below first : Nat}

/-! ## Documentation blocks -/

/-- A line inside a documentation block: it starts like a comment and opens no block of its own. -/
def continuesBlock (line : Text) : Bool :=
  (line.trim.startsWith ['*'] || line.trim.startsWith ['/', '*']) &&
    !line.trim.startsWith ['/', '*', '*']

/-- A documentation block on the lines from `first` up to `below`. -/
structure DocBlock (lines : List Text) (first below : Nat) : Prop where
  nonempty : first < below
  opens : (lineAt lines first).trim.startsWith ['/', '*', '*']
  continues : ∀ i, first < i → i < below → continuesBlock (lineAt lines i)
  closes : (lineAt lines (below - 1)).trimEnd.endsWith ['*', '/']

theorem startsWith_of_opens {line : Text} (hopens : line.trim.startsWith ['/', '*', '*']) :
    line.trim.startsWith ['/', '*'] := by
  obtain ⟨rest, hrest⟩ := Text.startsWith_iff.1 hopens
  exact Text.startsWith_iff.2 ⟨'*' :: rest, hrest⟩

theorem DocBlock.isDocLine_of_le (hblock : DocBlock lines first below) {i : Nat}
    (hfirst : first ≤ i) (hbelow : i < below) : isDocLine (lineAt lines i) := by
  obtain rfl | hlater := Nat.eq_or_lt_of_le hfirst
  · simp [isDocLine, startsWith_of_opens hblock.opens]
  · have hcontinues := hblock.continues i hlater hbelow
    simp only [continuesBlock, Bool.and_eq_true, Bool.or_eq_true] at hcontinues
    simp only [isDocLine, Bool.or_eq_true]
    tauto

/-- The search for the line that opens a block. -/
theorem blockStart?_eq_some_iff :
    blockStart? lines floor below = some first ↔ floor ≤ first ∧ first < below ∧
      (lineAt lines first).trim.startsWith ['/', '*', '*'] ∧
      ∀ i, first < i → i < below → continuesBlock (lineAt lines i) := by
  induction below with
  | zero => simp [blockStart?]
  | succ index ih =>
      simp only [blockStart?]
      split_ifs with hfloor hleads hopens
      · -- The line lies above the floor.
        simp only [false_iff]
        omega
      · -- The line opens a block, so no block goes on over it.
        rw [Option.some.injEq]
        constructor
        · rintro rfl
          exact ⟨by omega, by omega, hopens, by omega⟩
        · rintro ⟨-, hfirst, -, hcontinues⟩
          by_contra hne
          have hindex := hcontinues index (by omega) (by omega)
          simp [continuesBlock, hopens] at hindex
      · rw [ih]
        have hcontinues : continuesBlock (lineAt lines index) := by
          rw [Bool.or_eq_true] at hleads
          simp [continuesBlock, hleads, hopens]
        constructor
        · rintro ⟨hle, hlt, hfirst, hrest⟩
          refine ⟨hle, by omega, hfirst, fun i hi hbelow => ?_⟩
          obtain rfl | hbelow := Nat.eq_or_lt_of_le (Nat.lt_succ_iff.1 hbelow)
          · exact hcontinues
          · exact hrest i hi hbelow
        · rintro ⟨hle, hlt, hfirst, hrest⟩
          have hne : first ≠ index := by
            rintro rfl
            exact hopens hfirst
          exact ⟨hle, by omega, hfirst, fun i hi hbelow => hrest i hi (by omega)⟩
      · -- The line does not belong to a block.
        simp only [false_iff]
        rintro ⟨-, hlt, hfirst, hrest⟩
        obtain rfl | hfirst' := Nat.eq_or_lt_of_le (Nat.lt_succ_iff.1 hlt)
        · exact hleads (by simp [startsWith_of_opens hfirst])
        · have hindex := hrest index hfirst' (Nat.lt_succ_self index)
          simp only [continuesBlock, Bool.and_eq_true] at hindex
          exact hleads hindex.1

theorem docCommentStart?_eq_some_iff :
    docCommentStart? lines floor below = some first ↔
      floor ≤ first ∧ DocBlock lines first below := by
  rw [docCommentStart?]
  split
  · rename_i hcloses
    rw [blockStart?_eq_some_iff]
    constructor
    · rintro ⟨hfloor, hfirst, hopens, hcontinues⟩
      exact ⟨hfloor, hfirst, hopens, hcontinues, hcloses⟩
    · rintro ⟨hfloor, hblock⟩
      exact ⟨hfloor, hblock.nonempty, hblock.opens, hblock.continues⟩
  · rename_i hopen
    simp only [reduceCtorEq, false_iff, not_and]
    intro _ hblock
    exact hopen hblock.closes

/-! ## How far up a declaration reaches -/

/-- The lines that a declaration takes along are comments and decorators. -/
theorem docStart_spec (lines : List Text) (floor codeStart below : Nat) :
    docStart lines floor codeStart below ≤ below ∧
      ∀ i, docStart lines floor codeStart below ≤ i → i < below → isDocLine (lineAt lines i) := by
  induction below with
  | zero => exact ⟨Nat.le_refl 0, by omega⟩
  | succ index ih =>
      simp only [docStart]
      split
      · rename_i hdoc
        simp only [Bool.and_eq_true, decide_eq_true_eq] at hdoc
        split
        · cases hstart : docCommentStart? lines floor (index + 1) with
          | none => exact ⟨Nat.le_refl _, by rw [Option.getD_none]; omega⟩
          | some start =>
              have hblock := (docCommentStart?_eq_some_iff.1 hstart).2
              exact ⟨Nat.le_of_lt hblock.nonempty,
                fun i hi hbelow => hblock.isDocLine_of_le hi hbelow⟩
        · obtain ⟨hle, hdocs⟩ := ih
          refine ⟨Nat.le_succ_of_le hle, ?_⟩
          intro i hi hbelow
          obtain rfl | hbelow := Nat.eq_or_lt_of_le (Nat.lt_succ_iff.1 hbelow)
          · exact hdoc.2
          · exact hdocs i hi hbelow
      · exact ⟨Nat.le_refl _, by omega⟩

/-- No line above the floor is taken along. -/
theorem floor_le_docStart (lines : List Text) (codeStart : Nat) (hfloor : floor ≤ below) :
    floor ≤ docStart lines floor codeStart below := by
  induction below with
  | zero => exact hfloor
  | succ index ih =>
      simp only [docStart]
      split
      · rename_i hdoc
        simp only [Bool.and_eq_true, decide_eq_true_eq] at hdoc
        split
        · cases hstart : docCommentStart? lines floor (index + 1) with
          | none => exact hfloor
          | some start => exact (docCommentStart?_eq_some_iff.1 hstart).1
        · exact ih hdoc.1
      · exact hfloor

/-- Whether the comments above the declaration on line `below` go up to `line`.  Below the header of
the file these are comments and decorators of any sort; of the header it is a documentation block
at its end. -/
def CommentsReach (lines : List Text) (codeStart line below : Nat) : Prop :=
  (∀ i, max line codeStart ≤ i → i < below → isDocLine (lineAt lines i)) ∧
    (codeStart ≤ line ∨ ∃ first ≤ line, DocBlock lines first (min codeStart below))

/-- A documentation block does not go up over a line that is no comment. -/
theorem DocBlock.floor_le (hblock : DocBlock lines first below)
    (hwindow : floor = 0 ∨ isDocLine (lineAt lines (floor - 1)) = false) (hfloor : floor ≤ below) :
    floor ≤ first := by
  by_contra habove
  obtain rfl | hplain := hwindow
  · omega
  · rw [hblock.isDocLine_of_le (by omega) (by omega)] at hplain
    cases hplain

/-- A declaration takes along a line exactly if its comments go up to it. -/
theorem docStart_le_iff (hwindow : floor = 0 ∨ isDocLine (lineAt lines (floor - 1)) = false)
    (hfloor : floor ≤ line) (hline : line < below) :
    docStart lines floor codeStart below ≤ line ↔ CommentsReach lines codeStart line below := by
  induction below with
  | zero => omega
  | succ index ih =>
      simp only [docStart, CommentsReach]
      split_ifs with hdoc hheader
      · -- The line above belongs to the header.
        have hmin : min codeStart (index + 1) = index + 1 := by omega
        rw [hmin]
        cases hstart : docCommentStart? lines floor (index + 1) with
        | none =>
            rw [Option.getD_none]
            refine iff_of_false (by omega) ?_
            rintro ⟨-, hcode | ⟨first, -, hblock⟩⟩
            · omega
            · have hfound := docCommentStart?_eq_some_iff.2
                ⟨hblock.floor_le hwindow (by omega), hblock⟩
              rw [hfound] at hstart
              cases hstart
        | some start =>
            rw [Option.getD_some]
            have hblock := (docCommentStart?_eq_some_iff.1 hstart).2
            constructor
            · intro hle
              exact ⟨by omega, .inr ⟨start, hle, hblock⟩⟩
            · rintro ⟨-, hcode | ⟨first, hfirst, hother⟩⟩
              · omega
              · have hfound := docCommentStart?_eq_some_iff.2
                  ⟨hother.floor_le hwindow (by omega), hother⟩
                rw [hstart, Option.some.injEq] at hfound
                omega
      · -- The line above is a comment of any sort.
        simp only [Bool.and_eq_true, decide_eq_true_eq] at hdoc
        have hmin : min codeStart (index + 1) = min codeStart index := by omega
        rw [hmin]
        by_cases hlast : line = index
        · subst hlast
          refine iff_of_true (docStart_spec lines floor codeStart line).1 ⟨?_, .inl (by omega)⟩
          intro i hi hbelow
          rw [show i = line by omega]
          exact hdoc.2
        · rw [ih (by omega), CommentsReach]
          refine and_congr_left fun _ => ?_
          constructor
          · intro hdocs i hi hbelow
            obtain rfl | hbelow := Nat.eq_or_lt_of_le (Nat.lt_succ_iff.1 hbelow)
            · exact hdoc.2
            · exact hdocs i hi hbelow
          · intro hdocs i hi hbelow
            exact hdocs i hi (Nat.lt_succ_of_lt hbelow)
      · -- The line above is no comment.
        have hplain : ¬ isDocLine (lineAt lines index) := by
          intro hindex
          exact hdoc (by simp [hindex, show floor ≤ index by omega])
        refine iff_of_false (by omega) ?_
        rintro ⟨hdocs, hheader⟩
        by_cases hcode : codeStart ≤ index
        · exact hplain (hdocs index (by omega) (Nat.lt_succ_self index))
        · obtain hcode | ⟨first, hfirst, hblock⟩ := hheader
          · omega
          · exact hplain (hblock.isDocLine_of_le (by omega) (by omega))

end Outline

end Transplant
