import Mathlib.Data.List.Dedup
import Transplant.Proofs.Relinking

/-!
# Imports that are added one after the other

A statement that was read is read back from what it is written as, so a second name meets what the
first name left behind.  The list of names stays sorted in a total order, which leaves only one way
to write down a set of names.  Hence a run of added imports depends on the set of its names: not on
their order, and not on how often one of them occurs.
-/

namespace Transplant

open Move (PlainPath)

/-! ## The order of names -/

theorem nameLe_iff {a b : Text} :
    nameLe a b ↔ a.lower = b.lower ∧ a.le b ∨ a.lower ≠ b.lower ∧ a.lower.le b.lower := by
  rw [nameLe]
  split
  · rename_i hlower
    simp [hlower]
  · rename_i hlower
    simp [hlower]

theorem nameLe_total (a b : Text) : nameLe a b || nameLe b a := by
  rw [Bool.or_eq_true, nameLe_iff, nameLe_iff]
  by_cases hlower : a.lower = b.lower
  · exact (Text.le_total a b).imp (fun h => .inl ⟨hlower, h⟩) fun h => .inl ⟨hlower.symm, h⟩
  · exact (Text.le_total a.lower b.lower).imp (fun h => .inr ⟨hlower, h⟩)
      fun h => .inr ⟨Ne.symm hlower, h⟩

theorem nameLe_trans (a b c : Text) (hab : nameLe a b) (hbc : nameLe b c) : nameLe a c := by
  rw [nameLe_iff] at hab hbc ⊢
  obtain ⟨hab, hle⟩ | ⟨hab, hle⟩ := hab
  · obtain ⟨hbc, hle'⟩ | ⟨hbc, hle'⟩ := hbc
    · exact .inl ⟨hab.trans hbc, Text.le_trans hle hle'⟩
    · exact .inr ⟨by rwa [hab], by rwa [hab]⟩
  · obtain ⟨hbc, hle'⟩ | ⟨hbc, hle'⟩ := hbc
    · exact .inr ⟨by rwa [← hbc], by rwa [← hbc]⟩
    · refine .inr ⟨fun hac => ?_, Text.le_trans hle hle'⟩
      rw [hac] at hab hle
      exact hab (Text.le_antisymm hle hle')

theorem nameLe_antisymm {a b : Text} (hab : nameLe a b) (hba : nameLe b a) : a = b := by
  rw [nameLe_iff] at hab hba
  obtain ⟨heq, hle⟩ | ⟨hne, hle⟩ := hab
  · obtain ⟨-, hle'⟩ | ⟨hne, -⟩ := hba
    · exact Text.le_antisymm hle hle'
    · exact absurd heq.symm hne
  · obtain ⟨heq, -⟩ | ⟨-, hle'⟩ := hba
    · exact absurd heq.symm hne
    · exact absurd (Text.le_antisymm hle hle') hne

/-- Names without regard to case in order, and by code points where they differ in case only. -/
def NamesSorted (names : List Text) : Prop :=
  names.Pairwise fun a b => nameLe a b

theorem namesSorted_inNameOrder (names : List Text) : NamesSorted (inNameOrder names) :=
  List.pairwise_mergeSort nameLe_trans nameLe_total names

/-- There is one way to sort names. -/
theorem NamesSorted.eq_of_perm {names names' : List Text} (hnames : NamesSorted names)
    (hnames' : NamesSorted names') (hperm : names.Perm names') : names = names' :=
  hperm.eq_of_pairwise (fun _ _ _ _ => nameLe_antisymm) hnames hnames'

/-! ## Names added to an import -/

namespace NamedImport

variable {i : NamedImport} {line name : Text} {names left right : List Text}

def insertMissing (i : NamedImport) (name : Text) : NamedImport :=
  if i.names.contains name then i else i.insert name

def insertAll (i : NamedImport) (names : List Text) : NamedImport :=
  names.foldl insertMissing i

theorem insertMissing_of_mem (hname : name ∈ i.names) : i.insertMissing name = i :=
  if_pos (List.contains_iff_mem.2 hname)

theorem insertMissing_of_not_mem (hname : name ∉ i.names) : i.insertMissing name = i.insert name :=
  if_neg (mt List.contains_iff_mem.1 hname)

theorem insertAll_cons (i : NamedImport) (name : Text) (names : List Text) :
    i.insertAll (name :: names) = (i.insertMissing name).insertAll names := rfl

theorem insertAll_of_listed (hlisted : ∀ name ∈ names, name ∈ i.names) : i.insertAll names = i := by
  induction names with
  | nil => rfl
  | cons name names ih =>
      rw [List.forall_mem_cons] at hlisted
      rw [insertAll_cons, insertMissing_of_mem hlisted.1, ih hlisted.2]

/-- Only the list of names changes. -/
theorem insertAll_eq (i : NamedImport) (names : List Text) :
    i.insertAll names = { i with names := (i.insertAll names).names } := by
  induction names generalizing i with
  | nil => rfl
  | cons name names ih =>
      rw [insertAll_cons, ih]
      by_cases hname : name ∈ i.names
      · rw [insertMissing_of_mem hname]
      · rw [insertMissing_of_not_mem hname]
        rfl

/-- The names of the list that an import lacks, each once. -/
def missing (i : NamedImport) (names : List Text) : List Text :=
  (names.filter (!i.names.contains ·)).dedup

theorem missing_eq (i : NamedImport) (names : List Text) :
    i.missing names = (names.filter (· ∉ i.names)).dedup := by
  simp [missing]

theorem mem_missing : name ∈ i.missing names ↔ name ∈ names ∧ name ∉ i.names := by
  simp [missing_eq]

theorem nodup_missing (i : NamedImport) (names : List Text) : (i.missing names).Nodup :=
  List.nodup_dedup _

theorem missing_perm (hsame : ∀ name, name ∈ left ↔ name ∈ right) :
    (i.missing left).Perm (i.missing right) := by
  apply (List.perm_ext_iff_of_nodup (nodup_missing i left) (nodup_missing i right)).2
  intro name
  rw [mem_missing, mem_missing, hsame]

theorem missing_eq_nil_iff : i.missing names = [] ↔ ∀ name ∈ names, name ∈ i.names := by
  simp [List.eq_nil_iff_forall_not_mem, mem_missing]

/-- A new name is one of the missing ones, and the others are missing without it. -/
theorem missing_cons_perm (hname : name ∉ i.names) :
    (i.missing (name :: names)).Perm (name :: (i.insert name).missing names) := by
  have hnodup : (name :: (i.insert name).missing names).Nodup := by
    refine List.nodup_cons.2 ⟨fun hmem => (mem_missing.1 hmem).2 ?_, nodup_missing ..⟩
    simp [insert, (inNameOrder_perm _).mem_iff]
  apply (List.perm_ext_iff_of_nodup (nodup_missing i _) hnodup).2
  intro other
  simp only [mem_missing, List.mem_cons, insert, (inNameOrder_perm _).mem_iff, List.mem_append,
    List.not_mem_nil, or_false, not_or]
  by_cases hother : other = name
  · simp [hother, hname]
  · simp [hother]

/-- What an import lists once names were added: what it listed and the missing names, sorted if
there were any. -/
theorem names_insertAll (i : NamedImport) (names : List Text) :
    (i.insertAll names).names.Perm (i.names ++ i.missing names) ∧
      (i.missing names ≠ [] → NamesSorted (i.insertAll names).names) := by
  induction names generalizing i with
  | nil => exact ⟨by simp [insertAll, missing], fun hne => absurd rfl hne⟩
  | cons name names ih =>
      rw [insertAll_cons]
      by_cases hname : name ∈ i.names
      · have hmissing : i.missing (name :: names) = i.missing names := by simp [missing, hname]
        rw [insertMissing_of_mem hname, hmissing]
        exact ih i
      · rw [insertMissing_of_not_mem hname]
        obtain ⟨hperm, hsorted⟩ := ih (i.insert name)
        constructor
        · calc
            List.Perm ((i.insert name).insertAll names).names
                ((i.insert name).names ++ (i.insert name).missing names) := hperm
            List.Perm _ (i.names ++ [name] ++ (i.insert name).missing names) :=
              (inNameOrder_perm _).append_right _
            List.Perm _ (i.names ++ i.missing (name :: names)) := by
              rw [List.append_assoc]
              exact (missing_cons_perm hname).symm.append_left _
        · intro _
          by_cases hmore : (i.insert name).missing names = []
          · rw [insertAll_of_listed (missing_eq_nil_iff.1 hmore)]
            exact namesSorted_inNameOrder _
          · exact hsorted hmore

/-- Adding names depends on the set of the names. -/
theorem insertAll_congr (hsame : ∀ name, name ∈ left ↔ name ∈ right) :
    i.insertAll left = i.insertAll right := by
  obtain ⟨hleft, hsortedLeft⟩ := names_insertAll i left
  obtain ⟨hright, hsortedRight⟩ := names_insertAll i right
  have hmissing := missing_perm (i := i) hsame
  by_cases hnew : i.missing left = []
  · have hnew' : i.missing right = [] := by rwa [hnew, List.nil_perm] at hmissing
    rw [insertAll_of_listed (missing_eq_nil_iff.1 hnew),
      insertAll_of_listed (missing_eq_nil_iff.1 hnew')]
  · have hnew' : i.missing right ≠ [] := by
      intro hnil
      rw [hnil, List.perm_nil] at hmissing
      exact hnew hmissing
    have hnames : (i.insertAll left).names = (i.insertAll right).names :=
      (hsortedLeft hnew).eq_of_perm (hsortedRight hnew')
        (hleft.trans ((hmissing.append_left _).trans hright.symm))
    rw [insertAll_eq i left, insertAll_eq i right, hnames]

/-! ## Names added to a line -/

/-- A line is read as what was merged into it. -/
theorem parse?_mergeInto (hread : parse? line = some i) (hname : IsWord name) :
    parse? (mergeInto line name) = some (i.insertMissing name) := by
  simp only [mergeInto, hread]
  split
  · rename_i hlisted
    rw [insertMissing_of_mem hlisted, hread]
  · rename_i hnew
    rw [insertMissing_of_not_mem hnew]
    exact parse?_render (wellFormed_insert (wellFormed_of_parse? hread) hname.isEntry)

/-- A line that names are merged into stays as it is if it lists them all, and is written anew
otherwise. -/
theorem foldl_mergeInto (hread : parse? line = some i) (hnames : ∀ name ∈ names, IsWord name) :
    names.foldl mergeInto line =
      if i.missing names = [] then line else (i.insertAll names).render := by
  induction names generalizing line i with
  | nil => rfl
  | cons name names ih =>
      rw [List.forall_mem_cons] at hnames
      rw [List.foldl_cons, ih (parse?_mergeInto hread hnames.1) hnames.2, insertAll_cons]
      by_cases hname : name ∈ i.names
      · have hmissing : i.missing (name :: names) = i.missing names := by simp [missing, hname]
        rw [insertMissing_of_mem hname, hmissing]
        simp [mergeInto, hread, hname]
      · have hmissing : i.missing (name :: names) ≠ [] := fun hnil =>
          hname (missing_eq_nil_iff.1 hnil name List.mem_cons_self)
        rw [insertMissing_of_not_mem hname, if_neg hmissing]
        split
        · rename_i hmore
          rw [insertAll_of_listed (missing_eq_nil_iff.1 hmore)]
          simp [mergeInto, hread, hname]
        · rfl

theorem foldl_mergeInto_congr (hread : parse? line = some i) (hleft : ∀ name ∈ left, IsWord name)
    (hsame : ∀ name, name ∈ left ↔ name ∈ right) :
    left.foldl mergeInto line = right.foldl mergeInto line := by
  have hright : ∀ name ∈ right, IsWord name := fun name hname => hleft name ((hsame name).2 hname)
  have hmissing : i.missing left = [] ↔ i.missing right = [] := by
    simp only [missing_eq_nil_iff, hsame]
  rw [foldl_mergeInto hread hleft, foldl_mergeInto hread hright, insertAll_congr hsame]
  simp only [hmissing]

end NamedImport

/-! ## Names added to a text -/

/-- The first import of a module in a text that is read back as it is written: the lines around it
and what it is read as. -/
structure FirstImport (path : Text) (l : LinedText) (above : List Text) (line : Text)
    (below : List Text) (i : NamedImport) : Prop where
  lines : l.lines = above ++ [line] ++ below
  settled : l.Settled
  first : NoImportOf path above
  read : NamedImport.parse? line = some i
  origin : i.origin.path = path

namespace FirstImport

variable {path line name : Text} {above below names : List Text} {l : LinedText} {i : NamedImport}

theorem importOf? (h : FirstImport path l above line below i) :
    l.importOf? path = some ⟨above.length, line, i⟩ := by
  rw [LinedText.importOf?, h.lines, List.append_assoc, findImport?_append h.first,
    List.singleton_append, findImport?]
  simp [h.read, h.origin]

theorem set_eq (h : FirstImport path l above line below i) (new : Text) :
    l.set above.length new = ⟨above ++ [new] ++ below, l.lineBreak⟩ := by
  rw [LinedText.set, h.lines, List.append_assoc, List.set_append_right _ _ (Nat.le_refl _),
    Nat.sub_self, List.singleton_append, List.set_cons_zero, List.append_assoc,
    List.singleton_append]

/-- An import that a name was merged into is still the first one of its module. -/
theorem mergeInto (h : FirstImport path l above line below i) (hname : IsWord name) :
    FirstImport path (l.set above.length (NamedImport.mergeInto line name)) above
      (NamedImport.mergeInto line name) below (i.insertMissing name) where
  lines := by rw [h.set_eq]
  settled := by
    have hbreak : '\n' ∉ line := h.settled.breaks line (by simp [h.lines])
    obtain ⟨-, -, -, -, hnewBreak, hnewReturn⟩ := NamedImport.mergeInto_spec hbreak h.read hname
    have hsettled := h.settled
    obtain ⟨lines, lineBreak⟩ := l
    obtain rfl : lines = above ++ [line] ++ below := h.lines
    rw [h.set_eq]
    exact hsettled.splice (some line) (by simp) (by simpa using hnewBreak)
      (by simpa using hnewReturn)
  first := h.first
  read := NamedImport.parse?_mergeInto h.read hname
  origin := by
    rw [← h.origin, NamedImport.insertMissing]
    split <;> rfl

theorem addImport_toText (h : FirstImport path l above line below i) (name : Text) :
    addImport l.toText name path =
      (l.set above.length (NamedImport.mergeInto line name)).toText := by
  simp only [addImport, LinedText.ofText_toText h.settled, h.importOf?]

theorem set_line (h : FirstImport path l above line below i) : l.set above.length line = l := by
  rw [h.set_eq, ← h.lines]

end FirstImport

def addImports (source : Text) (names : List Text) (path : Text) : Text :=
  names.foldl (fun text name => addImport text name path) source

theorem addImports_cons (source name path : Text) (names : List Text) :
    addImports source (name :: names) path = addImports (addImport source name path) names path :=
  rfl

def importsIn (path : Text) (lines : List Text) : List NamedImport :=
  (lines.filterMap NamedImport.parse?).filter (·.origin.path = path)

/-- The named imports of a module in a text, in the order of the text. -/
def importsOf (source path : Text) : List NamedImport :=
  importsIn path (LinedText.ofText source).lines

section Lines

variable {path line : Text} {lines above below : List Text} {i : NamedImport}

theorem importsIn_append (path : Text) (above below : List Text) :
    importsIn path (above ++ below) = importsIn path above ++ importsIn path below := by
  rw [importsIn, List.filterMap_append, List.filter_append, importsIn, importsIn]

theorem importsIn_singleton (hread : NamedImport.parse? line = some i)
    (hpath : i.origin.path = path) : importsIn path [line] = [i] := by
  simp [importsIn, hread, hpath]

theorem importsIn_of_noImportOf (hnone : NoImportOf path lines) : importsIn path lines = [] := by
  rw [importsIn, List.filter_eq_nil_iff]
  intro i hi
  obtain ⟨line, hline, hread⟩ := List.mem_filterMap.1 hi
  simpa using hnone line hline i hread

end Lines

namespace FirstImport

variable {path line : Text} {above below names : List Text} {l : LinedText} {i : NamedImport}

theorem importsIn_lines (h : FirstImport path l above line below i) :
    importsIn path l.lines = i :: importsIn path below := by
  rw [h.lines, importsIn_append, importsIn_append, importsIn_of_noImportOf h.first,
    importsIn_singleton h.read h.origin]
  rfl

theorem importsOf_toText (h : FirstImport path l above line below i) :
    importsOf l.toText path = i :: importsIn path below := by
  rw [importsOf, LinedText.ofText_toText h.settled, h.importsIn_lines]

/-- A run of added imports ends with all names merged into the first import of the module. -/
theorem addImports_toText (h : FirstImport path l above line below i)
    (hnames : ∀ name ∈ names, IsWord name) :
    addImports l.toText names path =
        (l.set above.length (names.foldl NamedImport.mergeInto line)).toText ∧
      FirstImport path (l.set above.length (names.foldl NamedImport.mergeInto line)) above
        (names.foldl NamedImport.mergeInto line) below (i.insertAll names) := by
  induction names generalizing l line i with
  | nil =>
      rw [List.foldl_nil, h.set_line]
      exact ⟨rfl, h⟩
  | cons name names ih =>
      rw [List.forall_mem_cons] at hnames
      have hset : ∀ new new' : Text,
          (l.set above.length new).set above.length new' = l.set above.length new' := by
        simp [LinedText.set]
      have hrest := ih (h.mergeInto hnames.1) hnames.2
      rw [hset] at hrest
      rw [addImports_cons, h.addImport_toText name, List.foldl_cons]
      exact hrest

end FirstImport

/-! ## The first name of a run -/

section Run

variable {source path name : Text} {names left right : List Text}

/-- Adding an import looks at the lines of a text only. -/
theorem addImport_ofText (hreturn : source.getLast? ≠ some '\r') (name path : Text) :
    addImport (LinedText.ofText source).toText name path = addImport source name path := by
  have hread := LinedText.ofText_toText (LinedText.settled_ofText hreturn)
  simp only [addImport, insertBelowPrologue, hread]

theorem addImports_ofText (hreturn : source.getLast? ≠ some '\r') (hne : names ≠ []) :
    addImports (LinedText.ofText source).toText names path = addImports source names path := by
  obtain ⟨name, rest, rfl⟩ := List.exists_cons_of_ne_nil hne
  rw [addImports_cons, addImports_cons, addImport_ofText hreturn]

theorem exists_firstImport {found : ImportLine} (hreturn : source.getLast? ≠ some '\r')
    (hfind : (LinedText.ofText source).importOf? path = some found) :
    ∃ above below, FirstImport path (LinedText.ofText source) above found.line below
      found.statement := by
  obtain ⟨above, below, hlines, -, habove, hread, hpath⟩ := findImport?_spec hfind
  exact ⟨above, below, by simpa using hlines, LinedText.settled_ofText hreturn, habove, hread,
    hpath⟩

/-- An import of nothing, with the marks of a new statement. -/
def NamedImport.bare (path : Text) : NamedImport :=
  { NamedImport.single [] path with names := [] }

theorem NamedImport.insertMissing_bare (name path : Text) :
    (bare path).insertMissing name = single name path := by
  rw [insertMissing_of_not_mem (by simp [bare])]
  simp [bare, insert, single, inNameOrder]

/-- A new import of one name, with more names merged into it, is the import of all of them. -/
theorem NamedImport.foldl_mergeInto_statement (hname : IsWord name)
    (hnames : ∀ name ∈ names, IsWord name) (hplain : PlainPath path) :
    names.foldl mergeInto (statement name path) =
      ((bare path).insertAll (name :: names)).render := by
  have hread := parse?_statement hname.isEntry fun c hc => (hplain c hc).1
  rw [foldl_mergeInto hread hnames, insertAll_cons, insertMissing_bare]
  split
  · rename_i hmissing
    rw [insertAll_of_listed (missing_eq_nil_iff.1 hmissing), render_single]
  · rfl

/-- What stands below a statement that is inserted in front of a line. -/
def belowInserted (source : Text) : List Text :=
  (if (LinedText.ofText source).slot.blankAfter then [[]] else []) ++
    (LinedText.splitLines source).drop (LinedText.ofText source).slot.line

theorem insertStatement_singleton (source line : Text) :
    (LinedText.ofText source).insertStatement [line] =
      ⟨(LinedText.splitLines source).take (LinedText.ofText source).slot.line ++ [line] ++
        belowInserted source, .ofText source⟩ := by
  simp [LinedText.insertStatement, LinedText.insertAt, belowInserted, LinedText.ofText]

/-- A new import is the first one of its module. -/
theorem firstImport_statement (hreturn : source.getLast? ≠ some '\r')
    (hnone : NoImportOf path (LinedText.splitLines source)) (hname : IsWord name)
    (hplain : PlainPath path) :
    FirstImport path
      ((LinedText.ofText source).insertStatement [NamedImport.statement name path])
      ((LinedText.splitLines source).take (LinedText.ofText source).slot.line)
      (NamedImport.statement name path) (belowInserted source) (NamedImport.single name path) where
  lines := by rw [insertStatement_singleton]
  settled := by
    have hbreak := NamedImport.not_mem_statement (hname.not_mem (by decide)) hplain.not_mem
    have hsettled := (settled_inserted hreturn hnone hname hplain).1
    rwa [splitLines_statement hbreak (getLast?_statement _)] at hsettled
  first := fun line hline => hnone line (List.mem_of_mem_take hline)
  read := NamedImport.parse?_statement hname.isEntry fun c hc => (hplain c hc).1
  origin := rfl

theorem importsIn_belowInserted (hnone : NoImportOf path (LinedText.splitLines source)) :
    importsIn path (belowInserted source) = [] := by
  apply importsIn_of_noImportOf
  intro line hline i hread
  rw [belowInserted, List.mem_append] at hline
  obtain hblank | hline := hline
  · obtain rfl : line = [] := by
      split at hblank
      · simpa using hblank
      · cases hblank
    rw [NamedImport.parse?_of_blank rfl] at hread
    cases hread
  · exact hnone line (List.mem_of_mem_drop hline) i hread

/-- A run of imports from a module that the text does not import from yet writes one statement. -/
theorem addImports_fresh (hreturn : source.getLast? ≠ some '\r')
    (hnone : NoImportOf path (LinedText.splitLines source)) (hne : names ≠ [])
    (hnames : ∀ name ∈ names, IsWord name) (hplain : PlainPath path) :
    let l := (LinedText.ofText source).insertStatement
      [((NamedImport.bare path).insertAll names).render]
    addImports source names path = l.toText ∧
      FirstImport path l ((LinedText.splitLines source).take (LinedText.ofText source).slot.line)
        ((NamedImport.bare path).insertAll names).render (belowInserted source)
        ((NamedImport.bare path).insertAll names) := by
  obtain ⟨name, rest, rfl⟩ := List.exists_cons_of_ne_nil hne
  rw [List.forall_mem_cons] at hnames
  have hfirst := firstImport_statement hreturn hnone hnames.1 hplain
  have hbreak := NamedImport.not_mem_statement (hnames.1.not_mem (by decide)) hplain.not_mem
  have hadd : addImport source name path =
      ((LinedText.ofText source).insertStatement [NamedImport.statement name path]).toText := by
    have hfind : (LinedText.ofText source).importOf? path = none := findImport?_eq_none_iff.2 hnone
    simp only [addImport, hfind, insertBelowPrologue,
      splitLines_statement hbreak (getLast?_statement _)]
  have hrun := hfirst.addImports_toText hnames.2
  rw [NamedImport.foldl_mergeInto_statement hnames.1 hnames.2 hplain, hfirst.set_eq,
    ← NamedImport.insertMissing_bare, ← NamedImport.insertAll_cons] at hrun
  rw [addImports_cons, hadd]
  simpa only [insertStatement_singleton] using hrun

/-! ## A run of imports and the set of its names -/

/-- The names that the first import of a module lists; none if there is no such import. -/
def firstListed (source path : Text) : List Text :=
  (importsOf source path).head?.elim [] (·.names)

/-- A run of imports and one with the same names lead to the same text, in which the names are added
to what was the first import of the module. -/
theorem exists_addImports (hreturn : source.getLast? ≠ some '\r') (hplain : PlainPath path)
    (hne : left ≠ []) (hwords : ∀ name ∈ left, IsWord name)
    (hsame : ∀ name, name ∈ left ↔ name ∈ right) :
    ∃ (i : NamedImport) (l : LinedText) (above : List Text) (line : Text) (below : List Text),
      i.names = firstListed source path ∧
      importsIn path below = (importsOf source path).tail ∧
      addImports source left path = l.toText ∧ addImports source right path = l.toText ∧
      FirstImport path l above line below (i.insertAll left) := by
  have hwords' : ∀ name ∈ right, IsWord name := fun name hname => hwords name ((hsame name).2 hname)
  have hne' : right ≠ [] := by
    obtain ⟨name, hname⟩ := List.exists_mem_of_ne_nil left hne
    exact List.ne_nil_of_mem ((hsame name).1 hname)
  cases hfind : (LinedText.ofText source).importOf? path with
  | some found =>
      obtain ⟨above, below, hfirst⟩ := exists_firstImport hreturn hfind
      have hbefore : importsOf source path = found.statement :: importsIn path below :=
        hfirst.importsIn_lines
      obtain ⟨hleft, hmerged⟩ := hfirst.addImports_toText hwords
      have hright := (hfirst.addImports_toText hwords').1
      rw [addImports_ofText hreturn hne] at hleft
      rw [addImports_ofText hreturn hne',
        ← NamedImport.foldl_mergeInto_congr hfirst.read hwords hsame] at hright
      exact ⟨found.statement, _, above, _, below, by simp [firstListed, hbefore], by simp [hbefore],
        hleft, hright, hmerged⟩
  | none =>
      have hnone : NoImportOf path (LinedText.splitLines source) := findImport?_eq_none_iff.1 hfind
      have hbefore : importsOf source path = [] := importsIn_of_noImportOf hnone
      obtain ⟨hleft, hwritten⟩ := addImports_fresh hreturn hnone hne hwords hplain
      have hright := (addImports_fresh hreturn hnone hne' hwords' hplain).1
      rw [← NamedImport.insertAll_congr hsame] at hright
      refine ⟨.bare path, _, _, _, _, ?_, ?_, hleft, hright, hwritten⟩
      · simp [firstListed, hbefore, NamedImport.bare]
      · rw [importsIn_belowInserted hnone, hbefore]
        rfl

/-- Adding imports depends on the set of the names only.  The first import of the module lists what
it listed before and, once each, the names that were new; it is sorted if there was a new one.  All
other imports of the module stay, and one is written if there was none. -/
theorem addImports_sameNames (hreturn : source.getLast? ≠ some '\r') (hplain : PlainPath path)
    (hne : left ≠ []) (hwords : ∀ name ∈ left, IsWord name)
    (hsame : ∀ name, name ∈ left ↔ name ∈ right) :
    addImports source left path = addImports source right path ∧
      ∃ first, importsOf (addImports source left path) path =
          first :: (importsOf source path).tail ∧
        first.names.Perm (firstListed source path ++
          (left.filter (· ∉ firstListed source path)).dedup) ∧
        ((∃ name ∈ left, name ∉ firstListed source path) → NamesSorted first.names) ∧
        (importsOf (addImports source left path) path).length =
          max 1 (importsOf source path).length := by
  obtain ⟨i, l, above, line, below, hold, htail, hleft, hright, hfirst⟩ :=
    exists_addImports hreturn hplain hne hwords hsame
  obtain ⟨hperm, hsorted⟩ := i.names_insertAll left
  have hafter : importsOf (addImports source left path) path =
      i.insertAll left :: (importsOf source path).tail := by
    rw [hleft, hfirst.importsOf_toText, htail]
  refine ⟨hleft.trans hright.symm, i.insertAll left, hafter, ?_, ?_, ?_⟩
  · rwa [← hold, ← NamedImport.missing_eq]
  · rintro ⟨name, hname, hnew⟩
    rw [← hold] at hnew
    exact hsorted (List.ne_nil_of_mem (NamedImport.mem_missing.2 ⟨hname, hnew⟩))
  · rw [hafter, List.length_cons, List.length_tail]
    omega

/-- Names in two orders, some of them twice and one listed already, below an import of another
module and above a second import of the same one. -/
theorem addImports_sameNames_shuffled :
    let source := "import \x7b z \x7d from './n';\r\n".toList ++
      "import \x7b b \x7d from \"./m\" // m\r\nimport \x7b d \x7d from './m';\r\n".toList
    let left := ["c".toList, "B".toList, "b".toList, "c".toList]
    let right := ["b".toList, "B".toList, "c".toList]
    addImports source left "./m".toList = addImports source right "./m".toList ∧
      ∃ first, importsOf (addImports source left "./m".toList) "./m".toList =
          first :: (importsOf source "./m".toList).tail ∧
        first.names.Perm (firstListed source "./m".toList ++
          (left.filter (· ∉ firstListed source "./m".toList)).dedup) ∧
        ((∃ name ∈ left, name ∉ firstListed source "./m".toList) → NamesSorted first.names) ∧
        (importsOf (addImports source left "./m".toList) "./m".toList).length =
          max 1 (importsOf source "./m".toList).length :=
  addImports_sameNames (by decide) (by decide) (by decide)
    (by
      have hword : ∀ name : Identifier, IsWord name.text := Identifier.isWord
      intro name hname
      simp only [List.mem_cons, List.not_mem_nil, or_false] at hname
      obtain rfl | rfl | rfl | rfl := hname
      · exact hword ⟨"c".toList, by decide⟩
      · exact hword ⟨"B".toList, by decide⟩
      · exact hword ⟨"b".toList, by decide⟩
      · exact hword ⟨"c".toList, by decide⟩)
    (by
      intro name
      simp only [List.mem_cons, List.not_mem_nil, or_false]
      constructor
      · rintro (h | h | h | h) <;> simp [h]
      · rintro (h | h | h) <;> simp [h])

end Run

end Transplant
