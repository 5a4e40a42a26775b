import Transplant.Proofs.LiveSlots
import Transplant.Proofs.Mentions
import Transplant.Proofs.RoundTrip
import Transplant.Proofs.Siblings

/-!
# Comments of the header that are taken along

Of the lines above the first code line a declaration takes a documentation block.  The search for
the line that opens the block goes up as long as the lines start like a comment, and it does not
look at the marks that close comments on the way.  So a file header in the form of a documentation
comment is taken along with any comments that stand right below it.  One comment alone is taken
just where every line below the first one is read as its continuation.  A declaration that is
commented out in the header is found as well, and what it takes of the header is never one comment.
-/

namespace Transplant

namespace Text

variable {t phrase : Text}

theorem contains_append_of_not_mem {c : Char} {front : Text} (hfront : c ∉ front) (t : Text) :
    (front ++ t).contains (c :: phrase) = t.contains (c :: phrase) := by
  rw [contains, contains, cut?_append_of_not_mem hfront, Option.isSome_map]

theorem contains_reverse (t phrase : Text) :
    contains t.reverse phrase.reverse = t.contains phrase := by
  rw [Bool.eq_iff_iff, contains_iff, contains_iff, List.reverse_infix]

theorem contains_of_endsWith_trimEnd (hends : t.trimEnd.endsWith phrase) : t.contains phrase := by
  obtain ⟨rest, hrest⟩ := startsWith_iff.1 hends
  have hsuffix : phrase <:+ t.trimEnd := List.reverse_prefix.1 ⟨rest, hrest.symm⟩
  exact contains_iff.2 (hsuffix.isInfix.trans (isPrefix_trimEnd t).isInfix)

/-- Whether a comment is closed on a line does not depend on the blanks around it. -/
theorem contains_trim_closing (line : Text) :
    line.trim.contains ['*', '/'] = line.contains ['*', '/'] := by
  obtain ⟨before, after, hbefore, hafter, hline⟩ := exists_trim line
  have hstar : '*' ∉ before := fun hmem => absurd (hbefore _ hmem) (by decide)
  have hslash : '/' ∉ after.reverse :=
    fun hmem => absurd (hafter _ (List.mem_reverse.1 hmem)) (by decide)
  calc
    line.trim.contains ['*', '/'] = contains line.trim.reverse ['/', '*'] :=
      (contains_reverse line.trim ['*', '/']).symm
    _ = contains (after.reverse ++ line.trim.reverse) ['/', '*'] :=
      (contains_append_of_not_mem hslash _).symm
    _ = contains (line.trim ++ after) ['*', '/'] := by
      rw [← List.reverse_append]
      exact contains_reverse _ ['*', '/']
    _ = contains (before ++ (line.trim ++ after)) ['*', '/'] :=
      (contains_append_of_not_mem hstar _).symm
    _ = line.contains ['*', '/'] := by
      rw [← List.append_assoc, ← hline]

end Text

namespace Prologue

variable {lines : List Text} {inBlock : Bool} {index : Nat} {line : Text}

/-! ## Continuations of comments -/

/-- A comment goes on behind a line that does not close it. -/
theorem step_true_snd : (step true index line).2 = !line.contains ['*', '/'] := by
  rw [← Text.contains_trim_closing, Text.contains]
  simp only [step, if_true]
  cases Text.cut? ['*', '/'] line.trim <;> rfl

/-- A line that starts with a documentation mark leaves a comment open unless it closes one. -/
theorem step_snd_of_opens (hopens : line.trim.startsWith ['/', '*', '*']) :
    (step inBlock index line).2 = !line.contains ['*', '/'] := by
  cases inBlock with
  | true => exact step_true_snd
  | false =>
      obtain ⟨rest, hrest⟩ := Text.startsWith_iff.1 hopens
      -- Neither the slash nor the first asterisk of the mark is part of a closing mark.
      have hbody : line.trim.contains ['*', '/'] = Text.contains ('*' :: rest) ['*', '/'] :=
        calc
          line.trim.contains ['*', '/'] =
              Text.contains (['/'] ++ '*' :: '*' :: rest) ['*', '/'] := by
            rw [hrest]
            rfl
          _ = Text.contains ('*' :: '*' :: rest) ['*', '/'] :=
            Text.contains_append_of_not_mem (by decide) _
          _ = Text.contains ('*' :: rest) ['*', '/'] := by
            rw [Text.contains, Text.cut?]
            exact Option.isSome_map
      rw [← Text.contains_trim_closing, hbody, Text.contains]
      have hafter : Text.after? ['/', '*'] line.trim = some ('*' :: rest) :=
        Text.after?_eq_some_iff.2 hrest
      simp only [step, hafter, Bool.false_eq_true, if_false]
      cases Text.cut? ['*', '/'] ('*' :: rest) <;> rfl

theorem step_fst_eq_blockContinuation_iff (hcode : (step inBlock index line).1 ≠ .code) :
    (step inBlock index line).1 = .blockContinuation ↔ inBlock = true := by
  cases inBlock with
  | true =>
      rw [step_true_fst] at hcode ⊢
      split_ifs at hcode ⊢
      · exact absurd rfl hcode
      · exact iff_of_true rfl rfl
  | false =>
      refine iff_of_false ?_ Bool.false_ne_true
      simp only [step, Bool.false_eq_true, if_false]
      cases Text.after? ['/', '*'] line.trim with
      | some body =>
          simp only
          cases Text.cut? ['*', '/'] body with
          | some cut =>
              simp only
              split_ifs <;> simp
          | none => simp
      | none =>
          simp only
          split_ifs <;> simp

/-- Above the first code line, the lines inside of an open comment are its continuation. -/
theorem getElem?_header_eq_blockContinuation_iff (hindex : index < firstCode lines) :
    (header lines)[index]? = some .blockContinuation ↔ openAbove lines index = true := by
  obtain ⟨line, hline, hcode⟩ := exists_line_of_lt_firstCode hindex
  rw [← getElem?_classes_of_lt hindex, getElem?_classes, hline, Option.map_some, Nat.zero_add,
    ← openAbove, Option.some.injEq, step_fst_eq_blockContinuation_iff hcode]

end Prologue

namespace Outline

open OutlineItem

variable {lines : List Text} {codeStart floor below first index : Nat}

/-! ## Declarations in the header -/

/-- A declaration above the first code line is commented out. -/
theorem openAbove_of_matchLine? {found : Text × Kind}
    (hread : matchLine? none (lineAt lines index) = some found)
    (hindex : index < Prologue.firstCode lines) : Prologue.openAbove lines index = true := by
  obtain ⟨line, hline, hcode⟩ := Prologue.exists_line_of_lt_firstCode hindex
  rw [show lineAt lines index = line by rw [lineAt, hline, Option.getD_some]] at hread
  obtain ⟨c, rest, rfl, hc⟩ := exists_cons_of_matchLine? hread
  have hstart : Text.trimStart (c :: rest) = c :: rest :=
    Text.trimStart_cons (isBlank_of_isIdentStart hc) rest
  by_contra hlive
  rw [Bool.not_eq_true] at hlive
  rw [hlive, Prologue.step_of_isIdentStart hstart hc] at hcode
  exact hcode rfl

/-- What is taken of the header is a documentation block. -/
theorem docBlock_docStart (hwindow : floor = 0 ∨ isDocLine (lineAt lines (floor - 1)) = false)
    (hfloor : floor ≤ below) (hcode : docStart lines floor codeStart below < codeStart)
    (hbelow : docStart lines floor codeStart below < below) :
    DocBlock lines (docStart lines floor codeStart below) (min codeStart below) := by
  have hstart := floor_le_docStart lines codeStart hfloor
  obtain ⟨hdocs, hheader⟩ := (docStart_le_iff hwindow hstart hbelow).1 (Nat.le_refl _)
  obtain hlater | ⟨first, hfirst, hblock⟩ := hheader
  · omega
  · -- The search goes up to the line that opens the block.
    have hfloor' : floor ≤ first := hblock.floor_le hwindow (by omega)
    have hle : docStart lines floor codeStart below ≤ first :=
      (docStart_le_iff hwindow hfloor' (by omega)).2
        ⟨fun i hi => hdocs i (by omega), .inr ⟨first, Nat.le_refl first, hblock⟩⟩
    rwa [Nat.le_antisymm hle hfirst]

/-! ## One comment -/

/-- The lines from `first` up to `below` are one documentation comment, which is closed at the end
of the last of them. -/
structure OneComment (lines : List Text) (first below : Nat) : Prop where
  opens : (lineAt lines first).trim.startsWith ['/', '*', '*']
  closes : (lineAt lines (below - 1)).trimEnd.endsWith ['*', '/']
  unclosed : ∀ i, first ≤ i → i + 1 < below → (lineAt lines i).contains ['*', '/'] = false

/-- Behind a line of a documentation block at the end of the header a comment is open unless the
line closes it. -/
theorem DocBlock.openAbove_succ (hblock : DocBlock lines first (Prologue.firstCode lines))
    (hfirst : first ≤ index) (hindex : index < Prologue.firstCode lines)
    (hinside : first < index → Prologue.openAbove lines index = true) :
    Prologue.openAbove lines (index + 1) = !(lineAt lines index).contains ['*', '/'] := by
  obtain ⟨line, hline, -⟩ := Prologue.exists_line_of_lt_firstCode hindex
  have hlineAt : lineAt lines index = line := by rw [lineAt, hline, Option.getD_some]
  rw [Prologue.openAbove_succ hline, hlineAt]
  obtain rfl | hlater := Nat.eq_or_lt_of_le hfirst
  · exact Prologue.step_snd_of_opens (hlineAt ▸ hblock.opens)
  · rw [hinside hlater, Prologue.step_true_snd]

/-- A documentation block at the end of the header is one comment exactly if every line of it but
the first is a continuation. -/
theorem DocBlock.oneComment_iff (hblock : DocBlock lines first (Prologue.firstCode lines)) :
    OneComment lines first (Prologue.firstCode lines) ↔
      ∀ i, first < i → i < Prologue.firstCode lines →
        (Prologue.header lines)[i]? = some .blockContinuation := by
  constructor
  · -- From line to line, the comment that the first one opens is not closed.
    intro hone i
    induction i with
    | zero => omega
    | succ i ih =>
        intro hfirst hi
        have hinside : first < i → Prologue.openAbove lines i = true := fun hlater =>
          (Prologue.getElem?_header_eq_blockContinuation_iff (by omega)).1 (ih hlater (by omega))
        rw [Prologue.getElem?_header_eq_blockContinuation_iff hi,
          hblock.openAbove_succ (by omega) (by omega) hinside, hone.unclosed i (by omega) hi,
          Bool.not_false]
  · intro hcontinues
    have hopen : ∀ i, first < i → i < Prologue.firstCode lines →
        Prologue.openAbove lines i = true := fun i hfirst hi =>
      (Prologue.getElem?_header_eq_blockContinuation_iff hi).1 (hcontinues i hfirst hi)
    refine ⟨hblock.opens, hblock.closes, fun i hfirst hi => ?_⟩
    have hbehind := hblock.openAbove_succ hfirst (by omega) fun hlater => hopen i hlater (by omega)
    rw [hopen (i + 1) (by omega) hi] at hbehind
    simpa using hbehind.symm

/-- What an item at the top of an outline takes of the header. -/
theorem header_of_mem {content : Text} {item : OutlineItem} (hitem : item ∈ heuristic content)
    (habove : item.range.first < Prologue.firstCode (content.pieces '\n')) :
    ∃ found, matchLine? none
        (lineAt (content.pieces '\n') (headLine (content.pieces '\n') item)) = some found ∧
      headLine (content.pieces '\n') item ≤ item.range.last ∧
      (item.range.first = headLine (content.pieces '\n') item ∨
        DocBlock (content.pieces '\n') item.range.first
          (min (Prologue.firstCode (content.pieces '\n'))
            (headLine (content.pieces '\n') item))) := by
  obtain ⟨line, -, hline, hread, hrange, -⟩ := mem_collect hitem
  have hfirst := congrArg LineSpan.first hrange
  rw [headLine_eq hline hread hfirst]
  refine ⟨_, hread, ?_, ?_⟩
  · rw [hrange]
    exact le_lastLine ..
  · rw [hfirst] at habove ⊢
    obtain hsame | hbelow := Nat.eq_or_lt_of_le (docStart_spec (content.pieces '\n') 0
      (Prologue.firstCode (content.pieces '\n')) line).1
    · exact .inl hsame
    · exact .inr (docBlock_docStart (.inl rfl) (Nat.zero_le _) habove hbelow)

/-- The lines of the header that an item at the top takes are one comment exactly if the declaration
itself is not in the header and each of these lines but the first is a continuation.  In any case
the lines that are taken with a declaration below the header are a documentation block, and a
declaration in the header is commented out. -/
theorem oneComment_iff_continues {content : Text} {item : OutlineItem}
    (hitem : item ∈ heuristic content)
    (habove : item.range.first < Prologue.firstCode (content.pieces '\n')) :
    (OneComment (content.pieces '\n') item.range.first
        (min (Prologue.firstCode (content.pieces '\n')) (item.range.last + 1)) ↔
      Prologue.firstCode (content.pieces '\n') ≤ headLine (content.pieces '\n') item ∧
        ∀ i, item.range.first < i → i < Prologue.firstCode (content.pieces '\n') →
          (Prologue.header (content.pieces '\n'))[i]? = some .blockContinuation) ∧
    (Prologue.firstCode (content.pieces '\n') ≤ headLine (content.pieces '\n') item →
      DocBlock (content.pieces '\n') item.range.first
        (Prologue.firstCode (content.pieces '\n'))) ∧
    (headLine (content.pieces '\n') item < Prologue.firstCode (content.pieces '\n') →
      Prologue.openAbove (content.pieces '\n') (headLine (content.pieces '\n') item) = true) := by
  obtain ⟨found, hread, hlast, htaken⟩ := header_of_mem hitem habove
  generalize content.pieces '\n' = lines at *
  obtain hcode | hheader := Nat.lt_or_ge (headLine lines item) (Prologue.firstCode lines)
  · refine ⟨iff_of_false ?_ (by omega), by omega, fun _ => openAbove_of_matchLine? hread hcode⟩
    intro hone
    obtain hfirst | hblock := htaken
    · -- The first line is the declaration.
      have hdoc : isDocLine (lineAt lines item.range.first) := by
        simp [isDocLine, startsWith_of_opens hone.opens]
      rw [hfirst, not_isDocLine_of_matchLine? hread] at hdoc
      cases hdoc
    · -- The block is closed right above the declaration.
      rw [Nat.min_eq_right (Nat.le_of_lt hcode)] at hblock
      have hclosed := Text.contains_of_endsWith_trimEnd hblock.closes
      have hnonempty := hblock.nonempty
      rw [hone.unclosed _ (by omega) (by omega)] at hclosed
      cases hclosed
  · have hblock : DocBlock lines item.range.first (Prologue.firstCode lines) := by
      obtain hfirst | hblock := htaken
      · omega
      · rwa [Nat.min_eq_left hheader] at hblock
    rw [Nat.min_eq_left (by omega), hblock.oneComment_iff]
    exact ⟨by simp [hheader], fun _ => hblock, by omega⟩

/-- A file header in the form of a documentation comment, and another comment right below it. -/
def stackedHeader : Text :=
  "/** File header. */\n/* MIT License */\ninterface A \x7b\x7d\n".toList

/-- The declaration takes both comments along. -/
theorem oneComment_iff_continues_stackedHeader :
    ∃ item, heuristic stackedHeader = [item] ∧ item.range = ⟨0, 2⟩ ∧
      Prologue.firstCode (stackedHeader.pieces '\n') = 2 ∧
      ¬ OneComment (stackedHeader.pieces '\n') 0 2 := by
  have hranges : (heuristic stackedHeader).map (·.range) = [⟨0, 2⟩] := by
    decide +kernel
  obtain ⟨item, others, hitems, hrange, hnone⟩ := List.map_eq_cons_iff.1 hranges
  obtain rfl := List.map_eq_nil_iff.1 hnone
  have hcode : Prologue.firstCode (stackedHeader.pieces '\n') = 2 := by
    decide +kernel
  have hitem : item ∈ heuristic stackedHeader := by
    rw [hitems]
    exact List.mem_singleton_self item
  have habove : item.range.first < Prologue.firstCode (stackedHeader.pieces '\n') := by
    rw [hrange, hcode]
    decide
  have hcontinues := (oneComment_iff_continues hitem habove).1
  rw [hrange, hcode] at hcontinues
  refine ⟨item, hitems, hrange, hcode, fun hone => ?_⟩
  have hsecond := (hcontinues.1 hone).2 1 (by decide) (by decide)
  revert hsecond
  decide +kernel

end Outline

end Transplant
