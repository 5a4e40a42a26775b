import Mathlib.Data.List.DropRight
import Transplant.Proofs.DocComments
import Transplant.Proofs.Edits
import Transplant.Proofs.LiveSlots
import Transplant.Proofs.RoundTrip

/-!
# Imports inserted one above the other

A new import goes below the last comment or directive of the prologue, and being code it ends the
prologue there.  So the slot of the text that comes out is where it was, in front of the import, and
the next import goes above it, with no blank line in between.  A run of insertions stacks its
statements, the last one on top, and all of the prologue that is more than blank lines stays above
them.
-/

namespace Transplant

namespace Prologue

variable {lines below : List Text} {line : Text} {index : Nat}

/-! ## Classes of lines -/

theorem classes_take (inBlock : Bool) (first : Nat) (lines : List Text) (index : Nat) :
    classes inBlock first (lines.take index) = (classes inBlock first lines).take index := by
  induction lines generalizing inBlock first index with
  | nil => simp [classes]
  | cons line lines ih =>
      cases index with
      | zero => rfl
      | succ index => simp [classes, ih]

theorem classes_append (inBlock : Bool) (first : Nat) (front rest : List Text) :
    classes inBlock first (front ++ rest) = classes inBlock first front ++
      classes (openAfter inBlock first front) (first + front.length) rest := by
  induction front generalizing inBlock first with
  | nil => rfl
  | cons line front ih =>
      simp [classes, openAfter, ih, Nat.add_assoc, Nat.add_comm 1]

theorem header_isPrefix (lines : List Text) : header lines <+: classes false 0 lines :=
  List.takeWhile_prefix _

/-- The lines above the first code line have the classes of the header. -/
theorem classes_take_of_le (hindex : index ≤ firstCode lines) :
    classes false 0 (lines.take index) = (header lines).take index := by
  have hlength : min index (header lines).length = index := Nat.min_eq_left hindex
  rw [classes_take, List.prefix_iff_eq_take.1 (header_isPrefix lines), List.take_take, hlength]

theorem ne_code_of_mem_header {lineClass : PrologueLine} (hclass : lineClass ∈ header lines) :
    lineClass ≠ .code := by
  simpa using List.mem_takeWhile_imp hclass

/-! ## Imports in a prologue -/

/-- An import is code wherever no block comment is open. -/
theorem step_of_startsImport (himport : startsImport line) (index : Nat) :
    step false index line = (.code, false) := by
  obtain ⟨rest, hstart⟩ : ∃ rest, line.trimStart = 'i' :: rest := by
    simp only [startsImport, Bool.or_eq_true, Text.startsWith_iff] at himport
    obtain ⟨rest, hrest⟩ | ⟨rest, hrest⟩ := himport
    · exact ⟨"mport ".toList ++ rest, hrest⟩
    · exact ⟨"mport\x7b".toList ++ rest, hrest⟩
  exact step_of_isIdentStart hstart (by decide) index

/-- An import below lines of prologue ends the prologue. -/
theorem header_append_import {above : List Text} (hopen : openAfter false 0 above = false)
    (habove : ∀ lineClass ∈ classes false 0 above, lineClass ≠ .code)
    (himport : startsImport line) (below : List Text) :
    header (above ++ line :: below) = classes false 0 above := by
  have hkeep : ∀ lineClass ∈ classes false 0 above, decide (lineClass ≠ .code) = true :=
    fun lineClass hclass => decide_eq_true (habove lineClass hclass)
  rw [header, classes_append, List.takeWhile_append_of_pos hkeep, hopen, classes,
    step_of_startsImport himport, List.takeWhile_cons_of_neg (by simp), List.append_nil]

/-! ## The slot -/

/-- The classes down to the last comment or directive of the prologue. -/
def kept (lines : List Text) : List PrologueLine :=
  (header lines).rdropWhile (· = .blank)

theorem kept_isPrefix (lines : List Text) : kept lines <+: header lines :=
  List.rdropWhile_prefix _ _

theorem slotIndex_eq (lines : List Text) :
    slotIndex lines = if (kept lines).length ≠ 0 then (kept lines).length
      else if firstCode lines < lines.length then firstCode lines else 0 := by
  rw [kept, List.rdropWhile, List.length_reverse]
  rfl

/-- Comments and directives of the prologue stand above the slot. -/
theorem lt_slotIndex {lineClass : PrologueLine} (hclass : (header lines)[index]? = some lineClass)
    (hmark : lineClass ≠ .blank) : index < slotIndex lines := by
  have hkept : index < (kept lines).length := by
    by_contra hlast
    rw [← List.rdropWhile_append_rtakeWhile (p := (· = PrologueLine.blank)) (l := header lines),
      ← kept, List.getElem?_append_right (Nat.not_lt.1 hlast)] at hclass
    have hblank := List.mem_rtakeWhile_imp (List.mem_of_getElem? hclass)
    exact hmark (of_decide_eq_true hblank)
  rw [slotIndex_eq, if_pos (by omega)]
  exact hkept

/-- The lines above the slot hold all of the prologue but blank lines. -/
theorem rdropWhile_take_slotIndex (lines : List Text) :
    ((header lines).take (slotIndex lines)).rdropWhile (· = .blank) = kept lines := by
  by_cases hkept : kept lines = []
  · have hblank : ∀ lineClass ∈ header lines, decide (lineClass = .blank) = true :=
      List.rdropWhile_eq_nil_iff.1 hkept
    rw [hkept, List.rdropWhile_eq_nil_iff]
    exact fun lineClass hclass => hblank lineClass (List.mem_of_mem_take hclass)
  · have hslot : slotIndex lines = (kept lines).length := by
      rw [slotIndex_eq, if_pos (by simpa using hkept)]
    rw [hslot, ← List.prefix_iff_eq_take.1 (kept_isPrefix lines), kept, List.rdropWhile_idempotent]

/-- Behind an import that stands at the slot of some lines, the slot is the same and no blank line
is due. -/
theorem slot_of_import (hopen : openAbove lines (slotIndex lines) = false)
    (himport : startsImport line) (below : List Text) :
    let above := lines.take (slotIndex lines)
    slotIndex (above ++ line :: below) = slotIndex lines ∧
      needsBlank (above ++ line :: below) (slotIndex lines) = false := by
  intro above
  have hslot := slotIndex_le lines
  have hlength : above.length = slotIndex lines := by
    rw [List.length_take, Nat.min_eq_left (Nat.le_trans hslot (firstCode_le lines))]
  have hclasses : classes false 0 above = (header lines).take (slotIndex lines) :=
    classes_take_of_le hslot
  have hheader : header (above ++ line :: below) = (header lines).take (slotIndex lines) := by
    rw [← hclasses]
    apply header_append_import hopen _ himport
    intro lineClass hclass
    rw [hclasses] at hclass
    exact ne_code_of_mem_header (List.mem_of_mem_take hclass)
  have hfirst : firstCode (above ++ line :: below) = slotIndex lines := by
    rw [firstCode, hheader, ← hclasses, length_classes, hlength]
  have hkept : kept (above ++ line :: below) = kept lines := by
    rw [kept, hheader, rdropWhile_take_slotIndex]
  constructor
  · rw [slotIndex_eq, hkept, hfirst, if_pos (c := slotIndex lines < _) (by simp [← hlength])]
    split_ifs with hnone
    · rw [slotIndex_eq, if_pos hnone]
    · rfl
  · have hline : (above ++ line :: below)[slotIndex lines]? = some line := by
      rw [← hlength, List.getElem?_append_right (Nat.le_refl _), Nat.sub_self]
      rfl
    simp [needsBlank, hline, himport]

end Prologue

/-! ## Runs of insertions -/

namespace LinedText

variable {l : LinedText} {statement : Text} {statements : List Text}

/-- Inserts one-line statements below the prologue, one after the other. -/
def insertStatements (l : LinedText) (statements : List Text) : LinedText :=
  statements.foldl (fun l statement => l.insertStatement [statement]) l

theorem insertStatements_cons (l : LinedText) (statement : Text) (rest : List Text) :
    l.insertStatements (statement :: rest) =
      (l.insertStatement [statement]).insertStatements rest := rfl

def stacked (l : LinedText) (statements : List Text) : List Text :=
  l.lines.take l.slot.line ++ (statements ++
    ((if l.slot.blankAfter then [[]] else []) ++ l.lines.drop l.slot.line))

theorem length_take_slot (l : LinedText) : (l.lines.take l.slot.line).length = l.slot.line := by
  rw [List.length_take]
  exact Nat.min_eq_left (Nat.le_trans (Prologue.slotIndex_le _) (Prologue.firstCode_le _))

theorem take_stacked (l : LinedText) (statements : List Text) :
    (l.stacked statements).take l.slot.line = l.lines.take l.slot.line :=
  List.take_left' l.length_take_slot

theorem drop_stacked (l : LinedText) (statements : List Text) :
    (l.stacked statements).drop l.slot.line =
      statements ++ ((if l.slot.blankAfter then [[]] else []) ++ l.lines.drop l.slot.line) :=
  List.drop_left' l.length_take_slot

theorem insertStatement_eq (l : LinedText) (statement : Text) :
    l.insertStatement [statement] = ⟨l.stacked [statement], l.lineBreak⟩ := by
  simp [insertStatement, insertAt, stacked]

/-- An inserted import leaves the slot where it is, right above the import. -/
theorem slot_insertStatement (hopen : Prologue.openAbove l.lines l.slot.line = false)
    (himport : Prologue.startsImport statement) :
    (l.insertStatement [statement]).slot = ⟨l.slot.line, false⟩ := by
  obtain ⟨hslot, hblank⟩ := Prologue.slot_of_import hopen himport
    ((if l.slot.blankAfter then [[]] else []) ++ l.lines.drop l.slot.line)
  have hlines : (l.insertStatement [statement]).lines =
      l.lines.take (Prologue.slotIndex l.lines) ++ statement ::
        ((if l.slot.blankAfter then [[]] else []) ++ l.lines.drop l.slot.line) := by
    rw [insertStatement_eq]
    rfl
  rw [slot, hlines, hslot, hblank]
  rfl

/-- Statements that come after an import go on top of it. -/
theorem stacked_insertStatement (hopen : Prologue.openAbove l.lines l.slot.line = false)
    (himport : Prologue.startsImport statement) (statements : List Text) :
    (l.insertStatement [statement]).stacked statements = l.stacked (statements ++ [statement]) := by
  rw [stacked, slot_insertStatement hopen himport, insertStatement_eq, take_stacked, drop_stacked]
  simp [stacked]

theorem lineBreak_insertStatement (l : LinedText) (statement : List Text) :
    (l.insertStatement statement).lineBreak = l.lineBreak := rfl

/-- A run of inserted imports stacks them at the slot that the text had before, the last one on
top. -/
theorem insertStatements_eq (hopen : Prologue.openAbove l.lines l.slot.line = false)
    (hne : statements ≠ []) (himports : ∀ statement ∈ statements, Prologue.startsImport statement) :
    l.insertStatements statements = ⟨l.stacked statements.reverse, l.lineBreak⟩ := by
  obtain ⟨statement, rest, rfl⟩ := List.exists_cons_of_ne_nil hne
  induction rest generalizing l statement with
  | nil => exact insertStatement_eq l statement
  | cons next rest ih =>
      rw [List.forall_mem_cons] at himports
      have hslot := slot_insertStatement hopen himports.1
      have hopen' : Prologue.openAbove (l.insertStatement [statement]).lines
          (l.insertStatement [statement]).slot.line = false := by
        rw [hslot, insertStatement_eq, Prologue.openAbove, take_stacked]
        exact hopen
      calc
        l.insertStatements (statement :: next :: rest) =
            (l.insertStatement [statement]).insertStatements (next :: rest) :=
              insertStatements_cons l statement (next :: rest)
        _ = ⟨(l.insertStatement [statement]).stacked (next :: rest).reverse, l.lineBreak⟩ := by
            rw [ih hopen' next (by simp) himports.2, lineBreak_insertStatement]
        _ = ⟨l.stacked (statement :: next :: rest).reverse, l.lineBreak⟩ := by
            rw [stacked_insertStatement hopen himports.1, ← List.reverse_cons]

theorem Settled.insertStatement (hl : l.Settled) (hbreak : '\n' ∉ statement)
    (hreturn : statement.getLast? ≠ some '\r') : (l.insertStatement [statement]).Settled := by
  have hblank : ∀ line ∈ (if l.slot.blankAfter then [[]] else [] : List Text), line = [] := by
    split <;> simp
  have hnew : ∀ line ∈ [statement] ++ (if l.slot.blankAfter then [[]] else []),
      line = statement ∨ line = [] := by
    intro line hline
    exact (List.mem_append.1 hline).imp List.mem_singleton.1 (hblank line)
  have hsplit : Settled
      ⟨l.lines.take l.slot.line ++ none.toList ++ l.lines.drop l.slot.line, l.lineBreak⟩ := by
    simpa using hl
  apply hsplit.splice
  · simp
  · intro line hline
    obtain rfl | rfl := hnew line hline
    · exact hbreak
    · simp
  · intro _ line hline
    obtain rfl | rfl := hnew line hline
    · exact hreturn
    · simp

end LinedText

/-- Inserting a statement looks at the lines of a text only. -/
theorem insertBelowPrologue_ofText {source : Text} (hreturn : source.getLast? ≠ some '\r')
    (statement : Text) :
    insertBelowPrologue (LinedText.ofText source).toText statement =
      insertBelowPrologue source statement := by
  simp only [insertBelowPrologue, LinedText.ofText_toText (LinedText.settled_ofText hreturn)]

/-- A run of insertions into a settled text is one into its lines. -/
theorem foldl_insertBelowPrologue {l : LinedText} {statements : List Text} (hl : l.Settled)
    (hbreak : ∀ statement ∈ statements, '\n' ∉ statement)
    (hreturn : ∀ statement ∈ statements, statement.getLast? ≠ some '\r') :
    statements.foldl insertBelowPrologue l.toText = (l.insertStatements statements).toText ∧
      (l.insertStatements statements).Settled := by
  induction statements generalizing l with
  | nil => exact ⟨rfl, hl⟩
  | cons statement rest ih =>
      rw [List.forall_mem_cons] at hbreak hreturn
      have hinsert : insertBelowPrologue l.toText statement =
          (l.insertStatement [statement]).toText := by
        rw [insertBelowPrologue, LinedText.ofText_toText hl,
          splitLines_statement hbreak.1 hreturn.1]
      rw [List.foldl_cons, hinsert]
      exact ih (hl.insertStatement hbreak.1 hreturn.1) hbreak.2 hreturn.2

theorem NamedImport.startsImport_statement (name path : Text) :
    Prologue.startsImport (statement name path) := by
  have hstart : (statement name path).trimStart = statement name path := by
    rw [statement_eq]
    exact Text.trimStart_cons (by decide) _
  rw [Prologue.startsImport, Bool.or_eq_true, hstart, Text.startsWith_iff]
  exact .inl ⟨_, statement_eq name path⟩

section Imports

variable {source : Text} {imports : List (Identifier × Text)}

def importLine (i : Identifier × Text) : Text :=
  NamedImport.statement i.1.text i.2

/-- A run of inserted imports stacks them at the slot that the source had at first, the last one on
top, above the blank line that the first one asked for.  The lines above stay prologue, with the
classes they had, and no comment or directive of the prologue stands below. -/
theorem imports_stack (hreturn : source.getLast? ≠ some '\r')
    (hopen : Prologue.openAbove (LinedText.splitLines source) (LinedText.ofText source).slot.line =
      false)
    (hne : imports ≠ []) (hpaths : ∀ i ∈ imports, '\n' ∉ i.2) :
    let lines := LinedText.splitLines source
    let slot := (LinedText.ofText source).slot
    let result := (imports.map importLine).foldl insertBelowPrologue source
    let stacked := lines.take slot.line ++ (imports.map importLine).reverse ++
      (if slot.blankAfter then [[]] else []) ++ lines.drop slot.line
    result = LinedText.toText ⟨stacked, .ofText source⟩ ∧
      LinedText.ofText result = ⟨stacked, .ofText source⟩ ∧
      (Prologue.classes false 0 stacked).take slot.line =
        (Prologue.classes false 0 lines).take slot.line ∧
      (∀ lineClass ∈ (Prologue.classes false 0 stacked).take slot.line, lineClass ≠ .code) ∧
      ∀ index lineClass, (Prologue.header lines)[index]? = some lineClass → lineClass ≠ .blank →
        index < slot.line := by
  intro lines slot result stacked
  have hstatements : ∀ statement ∈ imports.map importLine, '\n' ∉ statement ∧
      statement.getLast? ≠ some '\r' ∧ Prologue.startsImport statement := by
    intro statement hstatement
    obtain ⟨i, hi, rfl⟩ := List.mem_map.1 hstatement
    exact ⟨NamedImport.not_mem_statement (i.1.isWord.not_mem (by decide)) (hpaths i hi),
      getLast?_statement _, NamedImport.startsImport_statement _ _⟩
  have hstacked : (LinedText.ofText source).stacked (imports.map importLine).reverse = stacked := by
    simp [LinedText.stacked, stacked, lines, slot, LinedText.ofText]
  have hsource := LinedText.settled_ofText hreturn
  have hrun := LinedText.insertStatements_eq (l := .ofText source) hopen (by simpa using hne)
    fun statement hstatement => (hstatements statement hstatement).2.2
  rw [hstacked] at hrun
  have hfirst : result =
      (imports.map importLine).foldl insertBelowPrologue (LinedText.ofText source).toText := by
    obtain ⟨first, rest, rfl⟩ := List.exists_cons_of_ne_nil hne
    simp only [result, List.map_cons, List.foldl_cons, insertBelowPrologue_ofText hreturn]
  obtain ⟨hresult, hsettled⟩ := foldl_insertBelowPrologue hsource
    (fun statement hstatement => (hstatements statement hstatement).1)
    (fun statement hstatement => (hstatements statement hstatement).2.1)
  rw [hrun] at hresult hsettled
  rw [← hfirst] at hresult
  have habove : (Prologue.classes false 0 stacked).take slot.line =
      (Prologue.classes false 0 lines).take slot.line := by
    rw [← Prologue.classes_take, ← hstacked, LinedText.take_stacked, Prologue.classes_take]
    rfl
  refine ⟨hresult, ?_, habove, ?_, fun index lineClass => Prologue.lt_slotIndex⟩
  · rw [hresult]
    exact LinedText.ofText_toText hsettled
  · intro lineClass hclass
    have hslot : slot.line ≤ Prologue.firstCode lines := Prologue.slotIndex_le lines
    rw [habove, ← Prologue.classes_take, Prologue.classes_take_of_le hslot] at hclass
    exact Prologue.ne_code_of_mem_header (List.mem_of_mem_take hclass)

/-- Two imports below comments that ask for a blank line, in a text with `crlf` breaks. -/
theorem imports_stack_belowComments :
    let source := "/* h\r\n */\r\n// note\r\nlet x;\r\n".toList
    let imports : List (Identifier × Text) :=
      [(⟨"a".toList, by decide⟩, "./m".toList), (⟨"B".toList, by decide⟩, "./n".toList)]
    source.getLast? ≠ some '\r' ∧
      Prologue.openAbove (LinedText.splitLines source) (LinedText.ofText source).slot.line = false ∧
      (∀ i ∈ imports, '\n' ∉ i.2) ∧
      (imports.map importLine).foldl insertBelowPrologue source =
        ("/* h\r\n */\r\n// note\r\nimport \x7b B \x7d from './n';\r\n".toList ++
          "import \x7b a \x7d from './m';\r\n\r\nlet x;\r\n".toList) := by
  intro source imports
  have hreturn : source.getLast? ≠ some '\r' := by decide
  have hopen : Prologue.openAbove (LinedText.splitLines source)
      (LinedText.ofText source).slot.line = false := by decide +kernel
  have hpaths : ∀ i ∈ imports, '\n' ∉ i.2 := by decide
  obtain ⟨hresult, -⟩ := imports_stack hreturn hopen (by decide) hpaths
  exact ⟨hreturn, hopen, hpaths, hresult.trans (by decide +kernel)⟩

end Imports

end Transplant
