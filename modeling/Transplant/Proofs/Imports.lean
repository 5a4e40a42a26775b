import Transplant.Proofs.Steps

/-!
# The names that a text imports

A text imports a name from a module if one of its named imports does.  Adding an import adds one
name from one module and nothing else, wherever the import is written; so a run of such edits adds
the names of the run.  Removing an import adds nothing.
-/

namespace Transplant

def ImportsFrom (t path name : Text) : Prop :=
  ∃ line ∈ t.lines, ∃ i, NamedImport.parse? line = some i ∧ i.origin.path = path ∧ name ∈ i.names

/-- One of the entries, each a module path with names, lists the name for the path. -/
def ListedFrom (entries : List (Text × List Text)) (path name : Text) : Prop :=
  ∃ entry ∈ entries, entry.1 = path ∧ name ∈ entry.2

variable {source name path module other : Text}

@[simp]
theorem listedFrom_append {above below : List (Text × List Text)} :
    ListedFrom (above ++ below) path name ↔
      ListedFrom above path name ∨ ListedFrom below path name := by
  simp [ListedFrom, or_and_right, exists_or]

@[simp]
theorem listedFrom_singleton {entry : Text × List Text} :
    ListedFrom [entry] path name ↔ entry.1 = path ∧ name ∈ entry.2 := by
  simp [ListedFrom]

theorem importView_read {line : Text} {i : NamedImport}
    (hread : NamedImport.parse? line = some i) :
    importView.read line = some (i.origin.path, i.names) := by
  simp [importView, hread]

theorem listedFrom_of {lines : List Text} :
    ListedFrom (importView.of lines) path name ↔ ∃ line ∈ lines, ∃ i,
      NamedImport.parse? line = some i ∧ i.origin.path = path ∧ name ∈ i.names := by
  constructor
  · rintro ⟨entry, hentry, hpath, hname⟩
    obtain ⟨line, hline, hread⟩ := List.mem_filterMap.1 hentry
    obtain ⟨i, hi, rfl⟩ := Option.map_eq_some_iff.1 hread
    exact ⟨line, hline, i, hi, hpath, hname⟩
  · rintro ⟨line, hline, i, hread, hpath, hname⟩
    exact ⟨_, List.mem_filterMap.2 ⟨line, hline, importView_read hread⟩, hpath, hname⟩

theorem importsFrom_iff {t : Text} :
    ImportsFrom t path name ↔ ListedFrom (importView.of t.lines) path name :=
  listedFrom_of.symm

theorem mem_namesImported_iff {t : Text} :
    name ∈ namesImported t ↔ ∃ path, ImportsFrom t path name := by
  rw [namesImported, List.mem_flatMap]
  constructor
  · rintro ⟨i, hi, hname⟩
    obtain ⟨line, hline, hread⟩ := List.mem_filterMap.1 hi
    exact ⟨i.origin.path, line, hline, i, hread, rfl, hname⟩
  · rintro ⟨path, line, hline, i, hread, -, hname⟩
    exact ⟨i, List.mem_filterMap.2 ⟨line, hline, hread⟩, hname⟩

/-! ## Added and removed imports -/

/-- Writing an import anew so that it lists one name more. -/
theorem importsFrom_set {old new : Text} {index : Nat} {i j : NamedImport}
    (hindex : (LinedText.splitLines source)[index]? = some old) (hbreak : '\n' ∉ new)
    (hold : NamedImport.parse? old = some i) (hnew : NamedImport.parse? new = some j)
    (hi : i.origin.path = path) (hj : j.origin.path = path)
    (hnames : other ∈ j.names ↔ other ∈ i.names ∨ other = name) :
    ImportsFrom ((LinedText.ofText source).set index new).toText module other ↔
      ImportsFrom source module other ∨ path = module ∧ other = name := by
  obtain ⟨above, below, hbefore, hafter⟩ := importView.of_set hindex hbreak
  rw [importView_read hold, hi] at hbefore
  rw [importView_read hnew, hj] at hafter
  rw [importsFrom_iff, importsFrom_iff, hbefore, hafter]
  simp only [Option.toList_some, listedFrom_append, listedFrom_singleton, hnames]
  rw [and_or_left, ← or_assoc, or_right_comm]

/-- An import that is added or merged imports one name from one module. -/
theorem importsFrom_addImport (hname : IsWord name) (hplain : Move.PlainPath path) :
    ImportsFrom (addImport source name path) module other ↔
      ImportsFrom source module other ∨ path = module ∧ other = name := by
  have hnamebreak : '\n' ∉ name := hname.not_mem (by decide)
  simp only [addImport]
  split
  · rename_i found hfind
    obtain ⟨hindex, hread, hpath⟩ := importOf?_spec hfind
    obtain ⟨j, hj, horigin, hnames, hbreak, -⟩ :=
      NamedImport.mergeInto_spec (not_mem_of_getElem? hindex) hread hname
    exact importsFrom_set hindex hbreak hread hj hpath (by rw [horigin, hpath]) (hnames other)
  · have hbreak := NamedImport.not_mem_statement hnamebreak hplain.not_mem
    have hread := NamedImport.parse?_statement hname.isEntry fun c hc => (hplain c hc).1
    rw [insertBelowPrologue, LinedText.insertStatement,
      splitLines_statement hbreak (getLast?_statement _)]
    generalize (LinedText.ofText source).slot.blankAfter = blankAfter
    have hbreaks : ∀ line ∈ [NamedImport.statement name path] ++
        (if blankAfter then [[]] else []), '\n' ∉ line := by
      cases blankAfter <;> simp [hbreak]
    have hview : importView.of ([NamedImport.statement name path] ++
        (if blankAfter then [[]] else [])) = [(path, [name])] := by
      cases blankAfter <;> simp [LineView.of, importView_read hread, NamedImport.single]
    obtain ⟨above, below, hbefore, hafter⟩ := importView.of_insertAt source _ hbreaks
    rw [importsFrom_iff, importsFrom_iff, hbefore, hafter, hview]
    simp only [listedFrom_append, listedFrom_singleton, List.mem_singleton]
    rw [or_right_comm]

/-- A run of added imports imports the names of the run. -/
theorem importsFrom_addImports {names : List Text} (hnames : ∀ name ∈ names, IsWord name)
    (hplain : Move.PlainPath path) :
    ImportsFrom (names.foldl (fun text name => addImport text name path) source) module other ↔
      ImportsFrom source module other ∨ path = module ∧ other ∈ names := by
  induction names generalizing source with
  | nil => simp
  | cons name names ih =>
      rw [List.forall_mem_cons] at hnames
      rw [List.foldl_cons, ih hnames.2, importsFrom_addImport hnames.1 hplain, List.mem_cons,
        and_or_left, or_assoc]

/-- Removing an import imports nothing. -/
theorem ImportsFrom.of_removeImport
    (himports : ImportsFrom (removeImport source path name) module other) :
    ImportsFrom source module other := by
  obtain ⟨-, hsame⟩ | ⟨above, line, below, i, hlines, -, hread, -, hedit⟩ :=
    removeImport_spec source path name
  · rwa [hsame] at himports
  · have hbreak : '\n' ∉ line := LinedText.not_mem_of_mem_splitLines (by rw [hlines]; simp)
    have hnew := (NamedImport.removeFrom_spec hbreak hread name).2
    have hnewBreak : ∀ new ∈ (NamedImport.removeFrom line name).toList, '\n' ∉ new := by
      intro new hmem
      obtain ⟨j, -, -, -, hnewline, -⟩ := hnew new (Option.mem_toList.1 hmem)
      exact hnewline
    have hlines : LinedText.splitLines source = above ++ [line] ++ below := by simpa using hlines
    obtain ⟨hbefore, hafter⟩ := importView.of_splice (.ofText source) hlines hnewBreak
    rw [hedit, importsFrom_iff, hafter, listedFrom_append, listedFrom_append] at himports
    rw [importsFrom_iff, hbefore, listedFrom_append, listedFrom_append]
    refine himports.imp_left (Or.imp_right ?_)
    intro hlisted
    obtain ⟨new, hmem, j, hj, hpath, hother⟩ := listedFrom_of.1 hlisted
    obtain ⟨k, hk, horigin, hnames, -⟩ := hnew new (Option.mem_toList.1 hmem)
    cases hj.symm.trans hk
    refine listedFrom_of.2 ⟨line, List.mem_singleton_self line, i, hread, ?_, ?_⟩
    · rw [← horigin, hpath]
    · exact List.mem_of_mem_erase (hnames ▸ hother)

/-! ## Lines without imports -/

/-- A declaration line is no import. -/
theorem importView_of_head (line : Text) (h : Head) (hread : Head.parse? line = some h) :
    importView.read line = none := by
  simp [importView, Head.import_of_parse? hread]

def isExportList (line : Text) : Bool :=
  (ExportList.parse? line).isSome

theorem importView_of_isExportList (line : Text) (hline : isExportList line) :
    importView.read line = none := by
  obtain ⟨l, hread⟩ := Option.isSome_iff_exists.1 hline
  obtain ⟨list, clause, tail, hstart, -⟩ := ExportList.parse?_eq_some_iff.1 hread
  have hstart : line.trimStart = "export".toList ++ list := Text.after?_eq_some_iff.1 hstart
  have himport : Clause.expect? "import" line = none := by
    rw [Clause.expect?, hstart]
    rfl
  simp [importView, NamedImport.parse?, himport]

/-- Replacing the exports of a name changes no import. -/
theorem importView_replaceByForwarding {source symbol path : Text} (hsymbol : IsWord symbol)
    (hplain : Move.PlainPath path) :
    importView.of (replaceByForwarding source symbol path).lines = importView.of source.lines := by
  have hlist : ∀ line l, ExportList.parse? line = some l → isExportList line := by
    intro line l hread
    rw [isExportList, hread]
    rfl
  have hstatement : isExportList (ExportList.statement symbol path) :=
    hlist _ _ (ExportList.parse?_statement hsymbol.isEntry fun c hc => (hplain c hc).1)
  have hunlist : Relined isExportList source (unlist source symbol) := relined_unlist hlist
  have hforward : Relined isExportList (unlist source symbol)
      (replaceByForwarding source symbol path) :=
    relined_addForwarding hlist hstatement hsymbol hplain.not_mem
  rw [hforward.of_lines _ importView_of_isExportList, hunlist.of_lines _ importView_of_isExportList]

end Transplant
