import Transplant.Proofs.Names

/-!
# Edits of imports and export lists

Each edit of linking statements touches lines of one sort only.  The sort is a parameter: it has to
hold of the statements that the edit looks for and of the new statement that it may write.  What an
edit establishes shows in the view of the statements: once a name is forwarded, it is found.
-/

namespace Transplant

variable {p : Text → Bool} {source name path : Text}

/-! ## New statements -/

/-- The parts of a new statement stand on one line if the name and the path do. -/
theorem not_mem_statement {before between after : Text} {c : Char} (hname : c ∉ name)
    (hpath : c ∉ path) (hbefore : c ∉ before) (hbetween : c ∉ between) (hafter : c ∉ after) :
    c ∉ before ++ name ++ between ++ path ++ after := by
  simp only [List.mem_append, not_or]
  exact ⟨⟨⟨⟨hbefore, hname⟩, hbetween⟩, hpath⟩, hafter⟩

theorem getLast?_statement (front : Text) : (front ++ "';".toList).getLast? ≠ some '\r' := by
  have hlast : (front ++ "';".toList).getLast? = some ';' := by
    rw [List.getLast?_append]
    rfl
  rw [hlast]
  decide

theorem NamedImport.not_mem_statement (hname : '\n' ∉ name) (hpath : '\n' ∉ path) :
    '\n' ∉ statement name path :=
  Transplant.not_mem_statement hname hpath (by decide) (by decide) (by decide)

theorem ExportList.not_mem_statement (hname : '\n' ∉ name) (hpath : '\n' ∉ path) :
    '\n' ∉ statement name path :=
  Transplant.not_mem_statement hname hpath (by decide) (by decide) (by decide)

theorem splitLines_statement {statement : Text} (hbreak : '\n' ∉ statement)
    (hreturn : statement.getLast? ≠ some '\r') :
    LinedText.splitLines statement = [statement] := by
  rw [LinedText.splitLines_of_not_mem hbreak, Text.dropReturn_of_ne hreturn]

theorem relined_insertBelowPrologue {statement : Text} (hp : p statement) (hblank : p [])
    (hbreak : '\n' ∉ statement) (hreturn : statement.getLast? ≠ some '\r') :
    Relined p source (insertBelowPrologue source statement) := by
  have hnew : ∀ (blankAfter : Bool) (q : Text → Prop), q statement → q [] →
      ∀ line ∈ [statement] ++ (if blankAfter then [[]] else []), q line := by
    intro blankAfter q hstatement hnil
    cases blankAfter <;> simp [hstatement, hnil]
  rw [insertBelowPrologue, LinedText.insertStatement, splitLines_statement hbreak hreturn]
  apply Relined.insertAt
  · exact hnew _ (p ·) hp hblank
  · exact hnew _ ('\n' ∉ ·) hbreak (by simp)
  · exact hnew _ (·.getLast? ≠ some '\r') hreturn (by simp)

/-! ## Views of edited texts -/

namespace LineView

variable {β : Type*} (v : LineView β)

/-- What a text shows before and after some of its lines were replaced. -/
theorem of_splice {above old below new : List Text} (lineBreak : LineBreak)
    (hlines : LinedText.splitLines source = above ++ old ++ below)
    (hbreak : ∀ line ∈ new, '\n' ∉ line) :
    v.of source.lines = v.of above ++ v.of old ++ v.of below ∧
      v.of (LinedText.mk (above ++ new ++ below) lineBreak).toText.lines =
        v.of above ++ v.of new ++ v.of below := by
  have hkept : ∀ line, line ∈ above ∨ line ∈ below → '\n' ∉ line := by
    intro line hline
    apply LinedText.not_mem_of_mem_splitLines (t := source)
    rw [hlines]
    obtain habove | hbelow := hline
    · simp [habove]
    · simp [hbelow]
  constructor
  · rw [← v.of_splitLines, hlines, v.of_append, v.of_append]
  · rw [v.of_toText, v.of_append, v.of_append]
    intro line hline
    simp only [List.mem_append] at hline
    obtain (habove | hnew) | hbelow := hline
    · exact hkept line (.inl habove)
    · exact hbreak line hnew
    · exact hkept line (.inr hbelow)

/-- What a text shows before and after one of its lines was replaced. -/
theorem of_set {index : Nat} {old new : Text}
    (hindex : (LinedText.splitLines source)[index]? = some old) (hbreak : '\n' ∉ new) :
    ∃ above below, v.of source.lines = above ++ (v.read old).toList ++ below ∧
      v.of ((LinedText.ofText source).set index new).toText.lines =
        above ++ (v.read new).toList ++ below := by
  obtain ⟨above, below, hlines, hlength⟩ := exists_append_of_getElem? hindex
  have hset : (LinedText.splitLines source).set index new = above ++ [new] ++ below := by
    rw [hlines, List.set_append_right _ _ (by omega), hlength]
    simp
  have hone : ∀ line, v.of [line] = (v.read line).toList := by
    intro line
    rw [v.of_cons]
    exact List.append_nil _
  refine ⟨v.of above, v.of below, ?_⟩
  rw [LinedText.set, LinedText.ofText, hset, ← hone, ← hone]
  exact v.of_splice _ (by simpa using hlines) (List.forall_mem_singleton.2 hbreak)

/-- What a text shows before and after lines were inserted. -/
theorem of_insertAt (source : Text) (index : Nat) {new : List Text}
    (hbreak : ∀ line ∈ new, '\n' ∉ line) :
    ∃ above below, v.of source.lines = above ++ below ∧
      v.of ((LinedText.ofText source).insertAt index new).toText.lines =
        above ++ v.of new ++ below := by
  have hlines : LinedText.splitLines source = (LinedText.splitLines source).take index ++ [] ++
      (LinedText.splitLines source).drop index := by simp
  obtain ⟨hbefore, hafter⟩ := v.of_splice (.ofText source) hlines hbreak
  refine ⟨_, _, ?_, hafter⟩
  rw [hbefore, List.append_assoc]
  rfl

end LineView

/-! ## Imports -/

def NoImportOf (path : Text) (lines : List Text) : Prop :=
  ∀ line ∈ lines, ∀ i, NamedImport.parse? line = some i → i.origin.path ≠ path

theorem findImport?_eq_none_iff {index : Nat} {lines : List Text} :
    findImport? path index lines = none ↔ NoImportOf path lines := by
  induction lines generalizing index with
  | nil => simp [findImport?, NoImportOf]
  | cons line rest ih =>
      rw [findImport?, NoImportOf, List.forall_mem_cons, ← NoImportOf, ← @ih (index + 1)]
      cases hread : NamedImport.parse? line with
      | none => simp
      | some i => by_cases hpath : i.origin.path = path <;> simp [hpath]

/-- Lines that are no imports of the module are passed over. -/
theorem findImport?_append {above : List Text} (habove : NoImportOf path above) (index : Nat)
    (rest : List Text) :
    findImport? path index (above ++ rest) = findImport? path (index + above.length) rest := by
  induction above generalizing index with
  | nil => rfl
  | cons line above ih =>
      obtain ⟨hline, habove⟩ := List.forall_mem_cons.1 habove
      have hrest := ih habove (index + 1)
      rw [Nat.add_assoc, Nat.add_comm 1] at hrest
      rw [List.cons_append, findImport?, List.length_cons, ← hrest]
      cases hread : NamedImport.parse? line with
      | none => rfl
      | some i => simp [hline i hread]

/-- The import that is found stands below lines that are none. -/
theorem findImport?_spec {index : Nat} {lines : List Text} {found : ImportLine}
    (hfind : findImport? path index lines = some found) :
    ∃ above below, lines = above ++ found.line :: below ∧ found.index = index + above.length ∧
      NoImportOf path above ∧ NamedImport.parse? found.line = some found.statement ∧
      found.statement.origin.path = path := by
  induction lines generalizing index with
  | nil => cases hfind
  | cons line rest ih =>
      have hlater : (∀ i, NamedImport.parse? line = some i → i.origin.path ≠ path) →
          findImport? path (index + 1) rest = some found →
          ∃ above below, line :: rest = above ++ found.line :: below ∧
            found.index = index + above.length ∧ NoImportOf path above ∧
            NamedImport.parse? found.line = some found.statement ∧
            found.statement.origin.path = path := by
        intro hline hfind
        obtain ⟨above, below, rfl, hindex, habove, hfound⟩ := ih hfind
        refine ⟨line :: above, below, rfl, ?_, List.forall_mem_cons.2 ⟨hline, habove⟩, hfound⟩
        rw [hindex, List.length_cons]
        omega
      rw [findImport?] at hfind
      split at hfind
      · rename_i statement hread
        split at hfind
        · rename_i hpath
          cases hfind
          exact ⟨[], rest, rfl, rfl, by simp [NoImportOf], hread, hpath⟩
        · rename_i hpath
          apply hlater _ hfind
          intro i hi
          cases hread.symm.trans hi
          exact hpath
      · rename_i hread
        exact hlater (by simp [hread]) hfind

theorem importOf?_spec {found : ImportLine}
    (hfind : (LinedText.ofText source).importOf? path = some found) :
    (LinedText.splitLines source)[found.index]? = some found.line ∧
      NamedImport.parse? found.line = some found.statement ∧
      found.statement.origin.path = path := by
  obtain ⟨above, below, hlines, hindex, -, hread⟩ := findImport?_spec hfind
  have hlines : LinedText.splitLines source = above ++ found.line :: below := hlines
  rw [hindex, hlines, Nat.zero_add, List.getElem?_append_right (Nat.le_refl _), Nat.sub_self]
  exact ⟨rfl, hread⟩

/-- What writing a changed import in the place of a line needs. -/
theorem NamedImport.rewritten {line : Text} {i j : NamedImport} (hread : parse? line = some i)
    (hj : j.WellFormed) (hline : j.OneLine) (htrailing : j.trailing = i.trailing) :
    parse? j.render = some j ∧ '\n' ∉ j.render ∧
      (line.getLast? ≠ some '\r' → j.render.getLast? ≠ some '\r') := by
  refine ⟨parse?_render hj, not_mem_render hj hline, ?_⟩
  intro hlast
  apply getLast?_render hj
  obtain ⟨front, hfront⟩ := suffix_of_parse? hread
  rw [htrailing]
  exact Text.getLast?_ne_of_append (by rwa [hfront])

/-- What becomes of an import when a name is added to it. -/
theorem NamedImport.mergeInto_spec {line : Text} {i : NamedImport} (hbreak : '\n' ∉ line)
    (hread : parse? line = some i) (hname : IsWord name) :
    ∃ j, parse? (mergeInto line name) = some j ∧ j.origin = i.origin ∧
      (∀ other, other ∈ j.names ↔ other ∈ i.names ∨ other = name) ∧
      '\n' ∉ mergeInto line name ∧
      (line.getLast? ≠ some '\r' → (mergeInto line name).getLast? ≠ some '\r') := by
  have hnamebreak : '\n' ∉ name := hname.not_mem (by decide)
  simp only [mergeInto, hread]
  split
  · rename_i hlisted
    refine ⟨i, hread, rfl, ?_, hbreak, id⟩
    intro other
    constructor
    · exact .inl
    · rintro (hother | rfl)
      · exact hother
      · exact hlisted
  · obtain ⟨hparse, hnewline, hreturn⟩ := rewritten hread
      (wellFormed_insert (wellFormed_of_parse? hread) hname.isEntry)
      (oneLine_insert (oneLine_of_parse? hbreak hread) hnamebreak) rfl
    refine ⟨i.insert name, hparse, rfl, ?_, hnewline, hreturn⟩
    intro other
    simp [insert, (inNameOrder_perm _).mem_iff]

/-- What becomes of an import when a name is removed from it. -/
theorem NamedImport.removeFrom_spec {line : Text} {i : NamedImport} (hbreak : '\n' ∉ line)
    (hread : parse? line = some i) (name : Text) :
    (removeFrom line name = none → i.names.erase name = []) ∧
      ∀ new ∈ removeFrom line name, ∃ j, parse? new = some j ∧ j.origin = i.origin ∧
        j.names = i.names.erase name ∧ '\n' ∉ new ∧
        (line.getLast? ≠ some '\r' → new.getLast? ≠ some '\r') := by
  simp only [removeFrom, hread]
  split
  · split
    · rename_i hempty
      exact ⟨fun _ => by simpa [erase] using hempty, by simp⟩
    · obtain ⟨hparse, hnewline, hreturn⟩ := rewritten hread
        (wellFormed_erase (wellFormed_of_parse? hread) name)
        (oneLine_erase (oneLine_of_parse? hbreak hread) name) rfl
      refine ⟨by simp, ?_⟩
      rintro new hnew
      cases hnew
      exact ⟨i.erase name, hparse, rfl, rfl, hnewline, hreturn⟩
  · rename_i hname
    refine ⟨by simp, ?_⟩
    rintro new hnew
    cases hnew
    exact ⟨i, hread, rfl, (List.erase_of_not_mem hname).symm, hbreak, id⟩

theorem not_mem_of_getElem? {index : Nat} {line : Text}
    (hindex : (LinedText.splitLines source)[index]? = some line) : '\n' ∉ line :=
  LinedText.not_mem_of_mem_splitLines (List.mem_of_getElem? hindex)

/-- Removing a name touches the first import of the module only. -/
theorem removeImport_spec (source path name : Text) :
    NoImportOf path (LinedText.splitLines source) ∧ removeImport source path name = source ∨
      ∃ above line below i, LinedText.splitLines source = above ++ line :: below ∧
        NoImportOf path above ∧ NamedImport.parse? line = some i ∧ i.origin.path = path ∧
        removeImport source path name =
          (LinedText.mk (above ++ (NamedImport.removeFrom line name).toList ++ below)
            (.ofText source)).toText := by
  simp only [removeImport]
  split
  · rename_i hfind
    exact .inl ⟨findImport?_eq_none_iff.1 hfind, rfl⟩
  · rename_i found hfind
    obtain ⟨above, below, hlines, hindex, habove, hread, hpath⟩ := findImport?_spec hfind
    refine .inr ⟨above, found.line, below, found.statement, hlines, habove, hread, hpath, ?_⟩
    have hlines : LinedText.splitLines source = above ++ found.line :: below := hlines
    rw [Nat.zero_add] at hindex
    split
    · rename_i hnone
      rw [hnone, LinedText.eraseIdx, LinedText.ofText, hlines,
        List.eraseIdx_append_of_length_le (by omega), hindex, Nat.sub_self]
      simp
    · rename_i new hsome
      rw [hsome, LinedText.set, LinedText.ofText, hlines, List.set_append_right _ _ (by omega),
        hindex, Nat.sub_self]
      simp

theorem relined_removeImport
    (himport : ∀ line i, NamedImport.parse? line = some i → i.origin.path = path → p line) :
    Relined p source (removeImport source path name) := by
  obtain ⟨-, hsame⟩ | ⟨above, line, below, i, hlines, -, hread, hpath, hedit⟩ :=
    removeImport_spec source path name
  · rw [hsame]
    exact .same
  · have hbreak : '\n' ∉ line := LinedText.not_mem_of_mem_splitLines (by rw [hlines]; simp)
    have hnew := (NamedImport.removeFrom_spec hbreak hread name).2
    rw [hedit]
    apply Relined.splice [line] _ (by simpa using hlines)
    · simpa using himport line i hread hpath
    · intro new hmem
      obtain ⟨j, hj, horigin, -⟩ := hnew new (Option.mem_toList.1 hmem)
      exact himport new j hj (by rw [horigin, hpath])
    · intro new hmem
      obtain ⟨j, -, -, -, hnewline, -⟩ := hnew new (Option.mem_toList.1 hmem)
      exact hnewline
    · intro hclean new hmem
      obtain ⟨j, -, -, -, -, hreturn⟩ := hnew new (Option.mem_toList.1 hmem)
      exact hreturn (by simpa using hclean)

theorem relined_addImport
    (himport : ∀ line i, NamedImport.parse? line = some i → i.origin.path = path → p line)
    (hstatement : p (NamedImport.statement name path)) (hblank : p []) (hname : IsWord name)
    (hpath : '\n' ∉ path) : Relined p source (addImport source name path) := by
  have hnamebreak : '\n' ∉ name := hname.not_mem (by decide)
  simp only [addImport]
  split
  · rename_i found hfind
    obtain ⟨hindex, hread, hfound⟩ := importOf?_spec hfind
    obtain ⟨j, hj, horigin, -, hbreak, hreturn⟩ :=
      NamedImport.mergeInto_spec (not_mem_of_getElem? hindex) hread hname
    exact Relined.set _ hindex (himport _ _ hread hfound)
      (himport _ _ hj (by rw [horigin, hfound])) hbreak hreturn
  · exact relined_insertBelowPrologue hstatement hblank
      (NamedImport.not_mem_statement hnamebreak hpath) (getLast?_statement _)

/-! ## Export lists -/

theorem findForwarding?_spec {index found : Nat} {lines : List Text} {l : ExportList}
    (hfind : findForwarding? path index lines = some (found, l)) :
    ∃ offset line, found = index + offset ∧ lines[offset]? = some line ∧
      ExportList.parse? line = some l ∧ l.forwards path := by
  induction lines generalizing index with
  | nil => cases hfind
  | cons line rest ih =>
      have hlater : findForwarding? path (index + 1) rest = some (found, l) →
          ∃ offset other, found = index + offset ∧ (line :: rest)[offset]? = some other ∧
            ExportList.parse? other = some l ∧ l.forwards path := by
        intro hfind
        obtain ⟨offset, other, hindex, hother⟩ := ih hfind
        exact ⟨offset + 1, other, by omega, hother⟩
      rw [findForwarding?] at hfind
      split at hfind
      · rename_i first hread
        split at hfind
        · rename_i hforwards
          cases hfind
          exact ⟨0, line, rfl, rfl, hread, hforwards⟩
        · exact hlater hfind
      · exact hlater hfind

/-- What writing a changed list in the place of a line needs. -/
theorem ExportList.rewritten {line : Text} {l m : ExportList} (hread : parse? line = some l)
    (hm : m.WellFormed) (hline : m.OneLine) (htrailing : m.trailing = l.trailing) :
    parse? m.render = some m ∧ '\n' ∉ m.render ∧
      (line.getLast? ≠ some '\r' → m.render.getLast? ≠ some '\r') := by
  refine ⟨parse?_render hm, not_mem_render hm hline, ?_⟩
  intro hlast
  apply getLast?_render hm
  obtain ⟨front, hfront⟩ := suffix_of_parse? hread
  rw [htrailing]
  exact Text.getLast?_ne_of_append (by rwa [hfront])

/-- What becomes of an export list when a name is added to it. -/
theorem ExportList.insert_spec {line : Text} {l : ExportList} (hbreak : '\n' ∉ line)
    (hread : parse? line = some l) (hname : IsWord name) :
    parse? (l.insert name).render = some (l.insert name) ∧ '\n' ∉ (l.insert name).render ∧
      (line.getLast? ≠ some '\r' → (l.insert name).render.getLast? ≠ some '\r') :=
  rewritten hread (wellFormed_insert (wellFormed_of_parse? hread) hname.isEntry)
    (oneLine_insert (oneLine_of_parse? hbreak hread) (hname.not_mem (by decide))) rfl

/-- What becomes of an export list when a name is taken out of it. -/
theorem ExportList.removeFrom_spec {line new : Text} {l : ExportList} (hbreak : '\n' ∉ line)
    (hread : parse? line = some l) (hnew : removeFrom name line = some new) :
    ∃ m, parse? new = some m ∧ m.names.Sublist l.names ∧ '\n' ∉ new ∧
      (line.getLast? ≠ some '\r' → new.getLast? ≠ some '\r') := by
  simp only [removeFrom, hread] at hnew
  split at hnew
  · split at hnew
    · cases hnew
    · cases hnew
      obtain ⟨hparse, hnewline, hreturn⟩ := rewritten hread
        (wellFormed_erase (wellFormed_of_parse? hread) name)
        (oneLine_erase (oneLine_of_parse? hbreak hread) name) rfl
      exact ⟨l.erase name, hparse, List.eraseP_sublist, hnewline, hreturn⟩
  · cases hnew
    exact ⟨l, hread, .refl _, hbreak, id⟩

theorem ExportList.removeFrom_of_parse? {line : Text} (hread : parse? line = none) (name : Text) :
    removeFrom name line = some line := by
  simp [removeFrom, hread]

theorem ExportList.not_mem_removeFrom {line new : Text} (hbreak : '\n' ∉ line)
    (hnew : removeFrom name line = some new) : '\n' ∉ new := by
  cases hread : parse? line with
  | none =>
      rw [removeFrom_of_parse? hread] at hnew
      cases hnew
      exact hbreak
  | some l =>
      obtain ⟨m, -, -, hnewline, -⟩ := removeFrom_spec hbreak hread hnew
      exact hnewline

theorem relined_unlist (hlist : ∀ line l, ExportList.parse? line = some l → p line) :
    Relined p source (unlist source name) := by
  rw [unlist]
  apply Relined.filterMap
  intro line hline
  have hbreak := LinedText.not_mem_of_mem_splitLines hline
  cases hread : ExportList.parse? line with
  | none => exact .inl (ExportList.removeFrom_of_parse? hread name)
  | some l =>
      refine .inr ⟨hlist line l hread, ?_⟩
      intro new hnew
      obtain ⟨m, hparse, -, hnewline, hreturn⟩ := ExportList.removeFrom_spec hbreak hread hnew
      exact ⟨hlist new m hparse, hnewline, hreturn⟩

theorem relined_addForwarding (hlist : ∀ line l, ExportList.parse? line = some l → p line)
    (hstatement : p (ExportList.statement name path)) (hname : IsWord name) (hpath : '\n' ∉ path) :
    Relined p source (addForwarding source name path) := by
  have hnamebreak : '\n' ∉ name := hname.not_mem (by decide)
  simp only [addForwarding]
  split
  · exact .same
  · split
    · rename_i index l hfind
      obtain ⟨offset, line, rfl, hindex, hread, -⟩ := findForwarding?_spec hfind
      rw [Nat.zero_add]
      obtain ⟨hparse, hbreak, hreturn⟩ :=
        ExportList.insert_spec (not_mem_of_getElem? hindex) hread hname
      exact Relined.set _ hindex (hlist line l hread) (hlist _ _ hparse) hbreak hreturn
    · apply Relined.insertAt
      · simpa using hstatement
      · simpa using ExportList.not_mem_statement hnamebreak hpath
      · rintro line hline
        rw [List.mem_singleton] at hline
        subst hline
        exact getLast?_statement _

theorem exportView_read {line : Text} {l : ExportList} (hread : ExportList.parse? line = some l) :
    exportView.read line = some (l.origin.map (·.path), l.names) := by
  simp [exportView, hread]

/-- A text forwards a name if one of its forwarding lists has an entry for it. -/
theorem forwardsFrom_iff : forwardsFrom source name path ↔
    ∃ entry ∈ exportView.of source.lines,
      entry.1 = some path ∧ entry.2.any (ExportList.exportsName name) := by
  have hforwards : ∀ l : ExportList, l.forwards path ↔ l.origin.map (·.path) = some path := by
    intro l
    cases horigin : l.origin <;> simp [ExportList.forwards, horigin]
  have hview : exportView.of source.lines = (source.lines.filterMap ExportList.parse?).map
      fun l => (l.origin.map (·.path), l.names) := by
    rw [List.map_filterMap]
    rfl
  rw [forwardsFrom, List.any_eq_true, hview]
  constructor
  · rintro ⟨l, hl, hboth⟩
    rw [Bool.and_eq_true, hforwards] at hboth
    exact ⟨_, List.mem_map_of_mem hl, hboth⟩
  · rintro ⟨entry, hentry, hpath, hlists⟩
    obtain ⟨l, hl, rfl⟩ := List.mem_map.1 hentry
    exact ⟨l, hl, by rw [Bool.and_eq_true, hforwards]; exact ⟨hpath, hlists⟩⟩

/-- Once a name is forwarded from a module, it is found there. -/
theorem forwardsFrom_addForwarding (hname : IsWord name) (hpath : '\n' ∉ path)
    (hquote : ∀ c ∈ path, Prologue.isQuote c = false) :
    forwardsFrom (addForwarding source name path) name path := by
  have hnamebreak : '\n' ∉ name := hname.not_mem (by decide)
  have hself : ExportList.exportsName name name := by
    simp [ExportList.exportsName, hname.firstWord?]
  simp only [addForwarding]
  split
  · rename_i hforwards
    exact hforwards
  · rw [forwardsFrom_iff]
    split
    · rename_i index l hfind
      obtain ⟨offset, line, rfl, hindex, hread, hforwards⟩ := findForwarding?_spec hfind
      rw [Nat.zero_add]
      obtain ⟨hparse, hbreak, -⟩ :=
        ExportList.insert_spec (not_mem_of_getElem? hindex) hread hname
      obtain ⟨above, below, -, hafter⟩ := exportView.of_set hindex hbreak
      rw [hafter, exportView_read hparse]
      refine ⟨((l.insert name).origin.map (·.path), (l.insert name).names), by simp, ?_, ?_⟩
      · cases horigin : l.origin with
        | none => simp [ExportList.forwards, horigin] at hforwards
        | some origin => simpa [ExportList.forwards, ExportList.insert, horigin] using hforwards
      · rw [List.any_eq_true]
        exact ⟨name, by simp [ExportList.insert, (inNameOrder_perm _).mem_iff], hself⟩
    · have hread := ExportList.parse?_statement hname.isEntry hquote
      have hbreak := ExportList.not_mem_statement hnamebreak hpath
      obtain ⟨above, below, -, hafter⟩ :=
        exportView.of_insertAt source _ (List.forall_mem_singleton.2 hbreak)
      rw [hafter]
      exact ⟨(some path, [name]),
        by simp [LineView.of, exportView_read hread, ExportList.single], rfl, by simp [hself]⟩

end Transplant
