import Transplant.Proofs.TargetLinks

/-!
# Imports of a moved symbol

When a symbol moves into a file that imported it, the file must not go on importing it from where it
came from.  The cleanup looks at the first import of the module only, and takes one occurrence of
the name off its list.  So the target of a move still imports the symbol exactly if that list had
the name twice, if a later import of the module has it, or if the moved lines brought such an import
along.
-/

namespace Transplant

variable {source path name : Text}

/-- The names that the imports of the module at a path list, import by import. -/
def listsFrom (path : Text) : LineView (List Text) :=
  importView.bind fun entry => if entry.1 = path then some entry.2 else none

theorem listsFrom_read {line : Text} {i : NamedImport} (hread : NamedImport.parse? line = some i) :
    (listsFrom path).read line = if i.origin.path = path then some i.names else none := by
  simp [listsFrom, LineView.bind, importView_read hread]

theorem listsFrom_of_noImportOf {lines : List Text} (hnone : NoImportOf path lines) :
    (listsFrom path).of lines = [] := by
  rw [LineView.of, List.filterMap_eq_nil_iff]
  intro line hline
  cases hread : NamedImport.parse? line with
  | none => simp [listsFrom, LineView.bind, importView, hread]
  | some i => rw [listsFrom_read hread, if_neg (hnone line hline i hread)]

theorem importsFrom_iff_lists {t : Text} :
    ImportsFrom t path name ↔ name ∈ ((listsFrom path).of t.lines).flatten := by
  rw [List.mem_flatten]
  constructor
  · rintro ⟨line, hline, i, hread, hpath, hname⟩
    refine ⟨i.names, List.mem_filterMap.2 ⟨line, hline, ?_⟩, hname⟩
    rw [listsFrom_read hread, if_pos hpath]
  · rintro ⟨names, hnames, hname⟩
    obtain ⟨line, hline, hlist⟩ := List.mem_filterMap.1 hnames
    obtain ⟨entry, hentry, hsome⟩ := Option.bind_eq_some_iff.1 hlist
    obtain ⟨i, hread, rfl⟩ := Option.map_eq_some_iff.1 hentry
    split at hsome
    · rename_i hpath
      cases hsome
      exact ⟨line, hline, i, hread, hpath, hname⟩
    · cases hsome

/-- The lists without one occurrence of a name in the first of them. -/
def eraseFromFirst (name : Text) : List (List Text) → List Text
  | [] => []
  | first :: rest => first.erase name ++ rest.flatten

/-- The cleanup takes one occurrence of the name off the first list. -/
theorem flatten_removeImport (source path name : Text) :
    ((listsFrom path).of (removeImport source path name).lines).flatten =
      eraseFromFirst name ((listsFrom path).of source.lines) := by
  obtain ⟨hnone, hsame⟩ | ⟨above, line, below, i, hlines, habove, hread, hpath, hedit⟩ :=
    removeImport_spec source path name
  · rw [hsame, ← LineView.of_splitLines, listsFrom_of_noImportOf hnone]
    rfl
  · have hbreak : '\n' ∉ line := LinedText.not_mem_of_mem_splitLines (by rw [hlines]; simp)
    obtain ⟨hempty, hnew⟩ := NamedImport.removeFrom_spec hbreak hread name
    have hlines : LinedText.splitLines source = above ++ [line] ++ below := by simpa using hlines
    have hnewBreak : ∀ new ∈ (NamedImport.removeFrom line name).toList, '\n' ∉ new := by
      intro new hmem
      obtain ⟨j, -, -, -, hnewline, -⟩ := hnew new (Option.mem_toList.1 hmem)
      exact hnewline
    obtain ⟨hbefore, hafter⟩ := (listsFrom path).of_splice (.ofText source) hlines hnewBreak
    have hold : (listsFrom path).of [line] = [i.names] := by
      simp [LineView.of, listsFrom_read hread, hpath]
    -- A list that is left empty goes with its line, which the flattened lists do not show.
    have hleft : ((listsFrom path).of (NamedImport.removeFrom line name).toList).flatten =
        i.names.erase name := by
      cases hremove : NamedImport.removeFrom line name with
      | none => simpa [LineView.of] using (hempty hremove).symm
      | some new =>
          obtain ⟨j, hj, horigin, hnames, -⟩ := hnew new hremove
          simp [LineView.of, listsFrom_read hj, horigin, hpath, hnames]
    rw [hedit, hafter, hbefore, listsFrom_of_noImportOf habove, hold]
    simp [hleft, eraseFromFirst]

/-- The first list has the name twice, or a later one has it. -/
def StillListed (name : Text) (lists : List (List Text)) : Prop :=
  ∃ first rest, lists = first :: rest ∧ (2 ≤ first.count name ∨ name ∈ rest.flatten)

theorem mem_eraseFromFirst_iff {lists : List (List Text)} :
    name ∈ eraseFromFirst name lists ↔ StillListed name lists := by
  cases lists with
  | nil => simp [eraseFromFirst, StillListed]
  | cons first rest =>
      have htwice : name ∈ first.erase name ↔ 2 ≤ first.count name := by
        rw [← List.count_pos_iff, List.count_erase_self]
        omega
      rw [eraseFromFirst, List.mem_append, htwice]
      simp [StillListed]

/-- What remains of the imports of a name after the cleanup. -/
theorem importsFrom_removeImport_iff :
    ImportsFrom (removeImport source path name) path name ↔
      StillListed name ((listsFrom path).of source.lines) := by
  rw [importsFrom_iff_lists, flatten_removeImport, mem_eraseFromFirst_iff]

theorem StillListed.importsFrom
    (hlisted : StillListed name ((listsFrom path).of source.lines)) :
    ImportsFrom source path name :=
  (importsFrom_removeImport_iff.2 hlisted).of_removeImport

/-- A path that a statement imports from has no quotation mark and no line break. -/
theorem ImportsFrom.plain (himports : ImportsFrom source path name) : Move.PlainPath path := by
  rw [importsFrom_iff, ← importView.of_splitLines, listedFrom_of] at himports
  obtain ⟨line, hline, i, hread, rfl, -⟩ := himports
  have hline := NamedImport.oneLine_of_parse? (LinedText.not_mem_of_mem_splitLines hline) hread
  have hwell := (NamedImport.wellFormed_of_parse? hread).origin
  intro c hc
  refine ⟨hwell.path c hc, ?_⟩
  rintro rfl
  exact hline.path hc

namespace Move

variable {move : Move} {policies : MovePolicies} {outline : Outliner} {confirm : Text → Bool}

/-- A move leaves its target importing the moved symbol from the source exactly if the first import
of the source listed it twice, if a later one lists it, or if the moved lines import it. -/
theorem importsFrom_symbol_perform {moved : Moved} {symbol : Text}
    (hmove : perform move policies outline confirm = .ok moved)
    (hsymbol : moved.record.symbol = some symbol) :
    ImportsFrom moved.target moved.record.paths.targetToSource symbol ↔
      ImportsFrom (selectedText move moved.record) moved.record.paths.targetToSource symbol ∨
        StillListed symbol
          ((listsFrom moved.record.paths.targetToSource).of move.target.lines) := by
  obtain ⟨s, kind, declared, clash, hs, -, rfl, rfl⟩ := exists_performLinked hmove hsymbol
  have htext : selectedText move (performLinked move policies.reexport s declared.text
      clash).record = s.excerpt.text := hs.text.symm
  rw [htext]
  have hpaths : (performLinked move policies.reexport s declared.text clash).record.paths =
      s.paths := rfl
  rw [hpaths]
  by_cases hplain : PlainPath s.paths.targetToSource
  · have hcarried : declared.text ∉
        (linked move policies.reexport s declared.text clash).carried :=
      fun hmem => (mem_carried_iff.1 hmem).2.1 rfl
    rw [performLinked_eq, importsFrom_target hs hplain, importsFrom_pastedTarget hs declared.isWord,
      importsFrom_removeImport_iff, or_iff_left (fun h => hcarried h.2), or_comm]
  · -- No import can name such a path.
    refine iff_of_false (fun himports => hplain himports.plain) ?_
    rintro (himports | hlisted)
    · exact hplain himports.plain
    · exact hplain hlisted.importsFrom.plain

/-- A move into a file that imports two names of the source by two statements. -/
def splitImportMove : Move :=
  { sourcePath := "a.ts".toList
    targetPath := "b.ts".toList
    source := "export const a = 1;\nexport const c = 2;\n".toList
    target := ("import \x7b c \x7d from './a';\nimport \x7b a \x7d from './a';\n" ++
      "let y = a + c;\n").toList
    selection := .range 1 1 }

def splitImportMoved : Moved :=
  { sourcePath := "a.ts".toList
    targetPath := "b.ts".toList
    source := "export const c = 2;\nexport \x7b a \x7d from './b';\n".toList
    target := ("import \x7b c \x7d from './a';\nimport \x7b a \x7d from './a';\n" ++
      "let y = a + c;\n\nexport const a = 1;\n").toList
    record :=
      { stage := .linked
        symbol := some "a".toList
        kind := some .variableDecl
        movedLines := (1, 1)
        clash := false
        exported := true
        forwarded := true
        sourceImported := false
        carried := []
        paths := { sourceToTarget := "./b".toList, targetToSource := "./a".toList } } }

/-- The second of two imports survives: the target imports what it declares. -/
theorem importsFrom_symbol_perform_split :
    perform splitImportMove { } (fun _ => []) (fun _ => false) = .ok splitImportMoved ∧
      namesImported (selectedText splitImportMove splitImportMoved.record) = [] ∧
      ImportsFrom splitImportMoved.target "./a".toList "a".toList := by
  have hperform : perform splitImportMove { } (fun _ => []) (fun _ => false) =
      .ok splitImportMoved := by decide +kernel
  refine ⟨hperform, by decide +kernel, ?_⟩
  apply (importsFrom_symbol_perform hperform rfl).2
  exact .inr ⟨["c".toList], [["a".toList]], by decide +kernel, .inr (by decide)⟩

end Move

end Transplant
