import Transplant.Proofs.StatementBreaks

/-!
# The outline of a text with either line break

The outline reads the pieces between line feeds, so the carriage returns of `crlf` breaks stay in
what it reads.  No reader of a single line sees them, because they are blanks at the end of the
line.  So the outline of a text depends on the kind of its line breaks only where the scan of a
statement does.
-/

namespace Transplant

namespace Text

theorem dropWhile_append_return {p : Char → Bool} (hp : p '\r' = false) (t : Text) :
    (t ++ ['\r']).dropWhile p = t.dropWhile p ++ ['\r'] := by
  rw [List.dropWhile_append]
  split
  · rename_i hnil
    rw [List.isEmpty_iff.1 hnil, List.dropWhile_cons_of_neg (by simp [hp])]
    rfl
  · rfl

theorem takeWhile_append_return {p : Char → Bool} (hp : p '\r' = false) (t : Text) :
    (t ++ ['\r']).takeWhile p = t.takeWhile p := by
  rw [List.takeWhile_append]
  split
  · rename_i hall
    rw [List.takeWhile_cons_of_neg (by simp [hp]), List.append_nil,
      (List.takeWhile_prefix _).eq_of_length hall]
  · rfl

theorem trimEnd_append_return (t : Text) : trimEnd (t ++ ['\r']) = trimEnd t :=
  trimEnd_append (List.forall_mem_singleton.2 (by decide)) t

end Text

/-! ## Method lines -/

namespace Method

theorem startsWith_skipTypeParameters_append_return (t : Text) :
    (skipTypeParameters (t ++ ['\r'])).startsWith ['('] =
      (skipTypeParameters t).startsWith ['('] := by
  have hparen : '\r' ∉ ['('] := by decide
  cases t with
  | nil => rfl
  | cons c t =>
      by_cases hopen : c = '<'
      · subst hopen
        have hskip : ∀ t : Text, skipTypeParameters ('<' :: t) =
            Text.trimStart (t.dropWhile (· ≠ '>')).tail := fun _ => rfl
        rw [List.cons_append, hskip, hskip, Text.dropWhile_concat (by decide)]
        split
        · rename_i hnil
          rw [hnil]
        · rename_i hne
          rw [List.tail_append_of_ne_nil hne]
          exact Text.startsWith_trimStart_append_return hparen _
      · have hskip : ∀ t : Text, skipTypeParameters (c :: t) = c :: t := by
          intro t
          unfold skipTypeParameters
          split
          · simp_all
          · rfl
        rw [List.cons_append, hskip, hskip, ← List.cons_append]
        exact Text.startsWith_append_return hparen _

theorem called?_append_return (t : Text) : called? (t ++ ['\r']) = called? t := by
  cases t with
  | nil => rfl
  | cons c t =>
      have hpart : isIdentPart '\r' = false := by decide
      have hbehind : (skipTypeParameters (Text.trimStart ((t ++ ['\r']).dropWhile
            isIdentPart))).startsWith ['('] =
          (skipTypeParameters (Text.trimStart (t.dropWhile isIdentPart))).startsWith ['('] := by
        rw [Text.dropWhile_append_return hpart, Text.trimStart_append_return]
        split
        · rename_i hnil
          rw [hnil]
        · exact startsWith_skipTypeParameters_append_return _
      simp only [List.cons_append, called?, hbehind, Text.takeWhile_append_return hpart]

/-- A keyword is found in front of a carriage return as it is without, unless nothing else follows
it. -/
theorem keyword?_append_return {phrase : String} (hphrase : '\r' ∉ phrase.toList) {t : Text}
    (hne : t ≠ phrase.toList) : Head.keyword? phrase (t ++ ['\r']) =
      (Head.keyword? phrase t).map fun rest => if rest = [] then [] else rest ++ ['\r'] := by
  rw [Head.keyword?, Head.keyword?, Text.after?_concat hphrase]
  cases hafter : Text.after? phrase.toList t with
  | none => rfl
  | some rest =>
      rw [Text.after?_eq_some_iff] at hafter
      cases rest with
      | nil => exact absurd (hafter.trans (List.append_nil _)) hne
      | cons c rest =>
          simp only [Option.map_some, List.cons_append]
          split
          · rw [Text.trimStart_append_return]
            rfl
          · rfl

theorem modifier?_append_return {t : Text} (hne : ∀ word ∈ modifiers, t ≠ word.toList) :
    modifier? (t ++ ['\r']) =
      (modifier? t).map fun rest => if rest = [] then [] else rest ++ ['\r'] := by
  have hwords : ∀ word ∈ modifiers, '\r' ∉ word.toList := by decide
  rw [modifier?, modifier?, List.map_findSome?, ← List.head?_filterMap, ← List.head?_filterMap]
  congr 1
  apply List.filterMap_congr
  intro word hword
  exact keyword?_append_return (hwords word hword) (hne word hword)

theorem nameAfterModifiers?_append_return (t : Text) :
    nameAfterModifiers? (t ++ ['\r']) = nameAfterModifiers? t := by
  have hnil : nameAfterModifiers? [] = none := by
    rw [nameAfterModifiers?]
    rfl
  have hwords : ∀ word ∈ modifiers, modifier? (word.toList ++ ['\r']) = some [] ∧
      modifier? word.toList = none := by decide
  fun_induction nameAfterModifiers? t with
  | case1 t rest hread ih =>
      have hreturn := modifier?_append_return (t := t) fun word hword ht => by
        rw [ht, (hwords word hword).2] at hread
        cases hread
      rw [nameAfterModifiers?, hreturn, hread]
      simp only [Option.map_some, called?_append_return]
      split
      · rename_i hrest
        rw [hrest]
      · rw [ih]
  | case2 t hread =>
      by_cases hword : ∃ word ∈ modifiers, t = word.toList
      · -- The modifier is the name itself, and no parenthesis follows it.
        obtain ⟨word, hword, rfl⟩ := hword
        rw [nameAfterModifiers?, (hwords word hword).1]
        simp [hnil, called?_append_return]
      · have hreturn := modifier?_append_return fun word hmem ht => hword ⟨word, hmem, ht⟩
        rw [nameAfterModifiers?, hreturn, hread]
        simp [called?_append_return]

theorem name?_eq (line : Text) :
    name? line =
      if (line.takeWhile Head.isIndent).isEmpty then none
      else (nameAfterModifiers? (line.dropWhile Head.isIndent)).filter fun name =>
        !controlWords.contains name := rfl

theorem name?_append_return (line : Text) : name? (line ++ ['\r']) = name? line := by
  have hindent : Head.isIndent '\r' = false := by decide
  rw [name?_eq, name?_eq, Text.takeWhile_append_return hindent,
    Text.dropWhile_append_return hindent, nameAfterModifiers?_append_return]

end Method

/-! ## The prologue -/

namespace Prologue

theorem isDirective_append_return (line : Text) :
    isDirective (line ++ ['\r']) = isDirective line := by
  have hword : '\r' ∉ "use ".toList := by decide
  have hbody : (Text.isWordChar '\r' || '\r' == ' ') = false := by decide
  have hsemicolon : '\r' ∉ [';'] := by decide
  unfold isDirective
  rw [Text.trimStart_append_return]
  cases line.trimStart with
  | nil => rfl
  | cons opening rest =>
      simp only [reduceCtorEq, if_false, List.cons_append, Text.after?_concat hword]
      cases Text.after? "use ".toList rest with
      | none => rfl
      | some body =>
          simp only [Option.map_some,
            Text.takeWhile_append_return (p := fun c => Text.isWordChar c || c == ' ') hbody,
            Text.dropWhile_append_return (p := fun c => Text.isWordChar c || c == ' ') hbody]
          cases body.dropWhile fun c => Text.isWordChar c || c == ' ' with
          | nil => rfl
          | cons closing rest =>
              simp only [List.cons_append, Text.startsWith_trimStart_append_return hsemicolon]

theorem step_append_return (inBlock : Bool) (index : Nat) (line : Text) :
    step inBlock index (line ++ ['\r']) = step inBlock index line := by
  simp only [step, Text.trim_append_return, isDirective_append_return]

/-- Lines are classified alike with carriage returns behind them. -/
theorem classes_withReturns (inBlock : Bool) (index : Nat) (lines : List Text) :
    classes inBlock index (LinedText.withReturns lines) = classes inBlock index lines := by
  fun_induction LinedText.withReturns lines generalizing inBlock index with
  | case1 => rfl
  | case2 last => rfl
  | case3 line rest _ ih => simp only [classes, step_append_return, ih]

theorem firstCode_withReturns (lines : List Text) :
    firstCode (LinedText.withReturns lines) = firstCode lines := by
  rw [firstCode, firstCode, header, header, classes_withReturns]

end Prologue

/-! ## The outline -/

namespace Outline

/-- A reader of lines that does not see carriage returns reads the lines of both texts alike. -/
theorem read_lineAt_withReturns {β : Type*} (read : Text → β)
    (hread : ∀ line, read (line ++ ['\r']) = read line) (lines : List Text) (index : Nat) :
    read (lineAt (LinedText.withReturns lines) index) = read (lineAt lines index) := by
  fun_induction LinedText.withReturns lines generalizing index with
  | case1 => rfl
  | case2 last => rfl
  | case3 line rest _ ih =>
      cases index with
      | zero => exact hread line
      | succ index => exact ih index

theorem matchLine?_append_return (parent : Option Kind) (line : Text) :
    matchLine? parent (line ++ ['\r']) = matchLine? parent line := by
  unfold matchLine?
  rw [Head.parse?_append_return line, Method.name?_append_return line]

theorem isDocLine_append_return (line : Text) : isDocLine (line ++ ['\r']) = isDocLine line := by
  simp only [isDocLine, Text.trim_append_return]

section Comments

variable (lines : List Text) (floor codeStart : Nat)

theorem blockStart?_withReturns (below : Nat) :
    blockStart? (LinedText.withReturns lines) floor below = blockStart? lines floor below := by
  induction below with
  | zero => rfl
  | succ index ih =>
      simp only [blockStart?, read_lineAt_withReturns Text.trim Text.trim_append_return, ih]

theorem docCommentStart?_withReturns (below : Nat) :
    docCommentStart? (LinedText.withReturns lines) floor below =
      docCommentStart? lines floor below := by
  rw [docCommentStart?, docCommentStart?,
    read_lineAt_withReturns Text.trimEnd Text.trimEnd_append_return, blockStart?_withReturns]

theorem docStart_withReturns (below : Nat) :
    docStart (LinedText.withReturns lines) floor codeStart below =
      docStart lines floor codeStart below := by
  induction below with
  | zero => rfl
  | succ index ih =>
      simp only [docStart, read_lineAt_withReturns isDocLine isDocLine_append_return,
        docCommentStart?_withReturns, ih]

end Comments

/-- The statement of the declaration on a line, as far as the scan for its end goes. -/
def statementAt (t : Text) (block : Bool) (index : Nat) : Text :=
  (t.fromLine index).take (Statement.endOffset block (t.fromLine index) + 1)

/-- No line that reads as a declaration has a statement that goes over a line break behind a
backslash inside plain quotation marks. -/
def BreaksUnescaped (t : Text) : Prop :=
  ∀ (parent : Option Kind) (index : Nat),
    ∀ found ∈ matchLine? parent (lineAt (t.pieces '\n') index),
      LexState.code.escapesBreak (statementAt t (hasBody parent found.2) index) = false

theorem fromLine_suffix (t : Text) (index : Nat) : t.fromLine index <:+ t := by
  by_cases hindex : index < (t.pieces '\n').length
  · exact ⟨t.linesAbove index, Text.linesAbove_append_fromLine hindex⟩
  · rw [Text.fromLine, List.drop_eq_nil_of_le (Nat.le_of_not_lt hindex)]
    exact List.nil_suffix

theorem drop_withReturns (lines : List Text) (index : Nat) :
    (LinedText.withReturns lines).drop index = LinedText.withReturns (lines.drop index) := by
  fun_induction LinedText.withReturns lines generalizing index with
  | case1 => simp [LinedText.withReturns]
  | case2 last => cases index <;> simp [LinedText.withReturns]
  | case3 line rest hrest ih =>
      cases index with
      | zero =>
          cases rest with
          | nil => exact absurd rfl hrest
          | cons second rest => rfl
      | succ index => exact ih index

section Breaks

variable {t : Text} (hreturn : '\r' ∉ t)
include hreturn

theorem lastLine_withReturns {block : Bool} {index : Nat}
    (hplain : LexState.code.escapesBreak (statementAt t block index) = false) (stop : Nat) :
    lastLine (LinedText.withReturns (t.pieces '\n')) block index stop =
      lastLine (t.pieces '\n') block index stop := by
  have hbelow : '\r' ∉ t.fromLine index :=
    fun hmem => hreturn ((fromLine_suffix t index).subset hmem)
  have htext : Text.join ['\n'] ((LinedText.withReturns (t.pieces '\n')).drop index) =
      (t.fromLine index).crlf := by
    rw [drop_withReturns, ← LinedText.join_crlf, Text.fromLine, Text.crlf_join]
    exact fun line hline => Text.not_mem_of_mem_pieces (List.mem_of_mem_drop hline)
  rw [lastLine, lastLine, htext, Statement.lineBreaks_crlf block hbelow hplain]
  rfl

theorem collect_withReturns (hplain : BreaksUnescaped t) (codeStart : Nat) (parent : Option Kind)
    (floor index stop : Nat) :
    collect (LinedText.withReturns (t.pieces '\n')) codeStart parent floor index stop =
      collect (t.pieces '\n') codeStart parent floor index stop := by
  have hmatch : ∀ parent index, matchLine? parent
      (lineAt (LinedText.withReturns (t.pieces '\n')) index) =
        matchLine? parent (lineAt (t.pieces '\n') index) := fun parent index =>
    read_lineAt_withReturns (matchLine? parent) (matchLine?_append_return parent) _ index
  fun_induction collect (t.pieces '\n') codeStart parent floor index stop with
  | case1 parent floor index stop hindex hnone ih =>
      rw [collect, if_pos hindex, hmatch, hnone]
      exact ih
  | case2 parent floor index stop hindex name kind hsome last children ihChildren ih =>
      have hlast : lastLine (LinedText.withReturns (t.pieces '\n')) (hasBody parent kind) index
          stop = last :=
        lastLine_withReturns hreturn (hplain parent index (name, kind) hsome) stop
      rw [collect, if_pos hindex, hmatch, hsome]
      simp only [hlast, docStart_withReturns, ih, ihChildren]
      rfl
  | case3 parent floor index stop hindex => rw [collect, if_neg hindex]

end Breaks

/-- The outline of a text does not depend on the kind of its line breaks, as long as no statement of
a declaration goes over an escaped line break inside plain quotation marks. -/
theorem heuristic_crlf {t : Text} (hreturn : '\r' ∉ t) (hplain : BreaksUnescaped t) :
    heuristic t.crlf = heuristic t := by
  have hlength : (LinedText.withReturns (t.pieces '\n')).length = (t.pieces '\n').length := by
    obtain ⟨front, last, hpieces⟩ := Text.exists_pieces_concat '\n' t
    rw [hpieces, LinedText.withReturns_concat]
    simp
  simp only [heuristic, Text.pieces_crlf, Prologue.firstCode_withReturns, hlength]
  exact collect_withReturns hreturn hplain _ none 0 0 _

def escapedInTemplate : Text :=
  "const s = \x60a\\\nb\x60;\nconst t = 1;\n".toList

def escapedInString : Text :=
  "const s = 'a\\\nb';\nconst t = 1;\n".toList

theorem breaksUnescaped_template : BreaksUnescaped escapedInTemplate := by
  have hparents : ∀ parent : Option Kind, parent ∈ none :: Kind.all.map some := by
    rintro (_ | ⟨⟨⟩⟩) <;> decide
  have hblank : ∀ parent ∈ none :: Kind.all.map some, matchLine? parent [] = none := by
    decide +kernel
  have hlines : ∀ parent ∈ none :: Kind.all.map some, ∀ index < 4,
      ∀ found ∈ matchLine? parent (lineAt (escapedInTemplate.pieces '\n') index),
        LexState.code.escapesBreak
          (statementAt escapedInTemplate (hasBody parent found.2) index) = false := by
    decide +kernel
  intro parent index found hfound
  by_cases hindex : index < 4
  · exact hlines parent (hparents parent) index hindex found hfound
  · have hline : lineAt (escapedInTemplate.pieces '\n') index = [] := by
      rw [lineAt, List.getElem?_eq_none (Nat.le_of_not_lt hindex)]
      rfl
    rw [hline, hblank parent (hparents parent)] at hfound
    cases hfound

/-- The outline of the second text takes the rest of the string for a statement of its own. -/
theorem heuristic_crlf_escaped :
    heuristic escapedInTemplate.crlf = heuristic escapedInTemplate ∧
      (heuristic escapedInTemplate).map (·.range) = [⟨0, 1⟩, ⟨2, 2⟩] ∧
      (heuristic escapedInString).map (·.range) = [⟨0, 1⟩, ⟨2, 2⟩] ∧
      (heuristic escapedInString.crlf).map (·.range) = [⟨0, 0⟩, ⟨2, 2⟩] ∧
      ¬ BreaksUnescaped escapedInString := by
  have hranges : (heuristic escapedInString).map (·.range) = [⟨0, 1⟩, ⟨2, 2⟩] := by decide +kernel
  have hbroken : (heuristic escapedInString.crlf).map (·.range) = [⟨0, 0⟩, ⟨2, 2⟩] := by
    decide +kernel
  refine ⟨heuristic_crlf (by decide) breaksUnescaped_template, by decide +kernel, hranges, hbroken,
    ?_⟩
  intro hplain
  rw [heuristic_crlf (by decide) hplain, hranges] at hbroken
  exact absurd hbroken (by decide)

end Outline

end Transplant
