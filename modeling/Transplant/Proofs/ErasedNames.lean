import Transplant.Proofs.AddedImports

/-!
# Names merged into an import and taken out of it

Merging a name into an import sorts the list, and taking a name out keeps the order of the others.
A sorted list is known by its names, so a name that is merged in and taken out again, or taken out
and merged in again, leaves the import as it was but for the order of its list.
-/

namespace Transplant

variable {name : Text} {names left right : List Text}

/-! ## Sorted lists of names -/

theorem NamesSorted.inNameOrder_eq (hsorted : NamesSorted names) : inNameOrder names = names :=
  (namesSorted_inNameOrder names).eq_of_perm hsorted (inNameOrder_perm names)

/-- Sorting forgets the order that the names were given in. -/
theorem inNameOrder_congr (hperm : left.Perm right) : inNameOrder left = inNameOrder right := by
  apply (namesSorted_inNameOrder left).eq_of_perm (namesSorted_inNameOrder right)
  calc
    List.Perm (inNameOrder left) left := inNameOrder_perm left
    List.Perm _ right := hperm
    List.Perm _ (inNameOrder right) := (inNameOrder_perm right).symm

/-- A list stays sorted when a name is taken out of it. -/
theorem NamesSorted.erase (hsorted : NamesSorted names) (name : Text) :
    NamesSorted (names.erase name) :=
  hsorted.sublist List.erase_sublist

theorem erase_inNameOrder_concat (names : List Text) (name : Text) :
    (inNameOrder (names ++ [name])).erase name = inNameOrder names := by
  apply ((namesSorted_inNameOrder _).erase name).eq_of_perm (namesSorted_inNameOrder names)
  calc
    List.Perm ((inNameOrder (names ++ [name])).erase name) ((names ++ [name]).erase name) :=
      (inNameOrder_perm _).erase name
    List.Perm _ ((name :: names).erase name) := (List.perm_append_singleton name names).erase name
    _ = names := List.erase_cons_head name names
    List.Perm _ (inNameOrder names) := (inNameOrder_perm names).symm

theorem inNameOrder_erase_concat (hname : name ∈ names) :
    inNameOrder (names.erase name ++ [name]) = inNameOrder names := by
  apply inNameOrder_congr
  calc
    List.Perm (names.erase name ++ [name]) (name :: names.erase name) :=
      List.perm_append_singleton name _
    List.Perm _ names := (List.perm_cons_erase hname).symm

/-! ## Imports -/

namespace NamedImport

variable {line : Text} {i : NamedImport}

def sorted (i : NamedImport) : NamedImport :=
  { i with names := inNameOrder i.names }

theorem sorted_of_namesSorted (hsorted : NamesSorted i.names) : i.sorted = i := by
  rw [sorted, hsorted.inNameOrder_eq]

theorem erase_insert (i : NamedImport) (name : Text) : (i.insert name).erase name = i.sorted := by
  simp only [insert, erase, sorted, erase_inNameOrder_concat]

theorem insert_erase (hname : name ∈ i.names) : (i.erase name).insert name = i.sorted := by
  simp only [insert, erase, sorted, inNameOrder_erase_concat hname]

theorem mergeInto_of_not_mem (hread : parse? line = some i) (hnew : name ∉ i.names) :
    mergeInto line name = (i.insert name).render := by
  simp only [mergeInto, hread, if_neg hnew]

theorem removeFrom_of_mem (hread : parse? line = some i) (hname : name ∈ i.names)
    (hrest : (i.erase name).names ≠ []) :
    removeFrom line name = some (i.erase name).render := by
  simp [removeFrom, hread, hname, hrest]

/-- A new name that is merged in and taken out again leaves the list sorted. -/
theorem removeFrom_mergeInto (hread : parse? line = some i) (hne : i.names ≠ [])
    (hword : IsWord name) (hnew : name ∉ i.names) :
    removeFrom (mergeInto line name) name = some i.sorted.render := by
  have hmerged : parse? (mergeInto line name) = some (i.insert name) := by
    rw [parse?_mergeInto hread hword, insertMissing_of_not_mem hnew]
  have hlisted : name ∈ (i.insert name).names := by
    simp [insert, (inNameOrder_perm _).mem_iff]
  have hrest : ((i.insert name).erase name).names ≠ [] := by
    intro hnil
    rw [erase_insert] at hnil
    have hperm : i.sorted.names.Perm i.names := inNameOrder_perm i.names
    rw [hnil, List.nil_perm] at hperm
    exact hne hperm
  rw [removeFrom_of_mem hmerged hlisted hrest, erase_insert]

/-- A name that is taken out and merged in again leaves the list sorted, if it was listed once and
not alone. -/
theorem mergeInto_removeFrom (hread : parse? line = some i) (honce : i.names.count name = 1)
    (hmore : 2 ≤ i.names.length) :
    ∃ rest, removeFrom line name = some rest ∧ mergeInto rest name = i.sorted.render := by
  have hlisted : name ∈ i.names := List.count_pos_iff.1 (by omega)
  have hrest : (i.erase name).names ≠ [] := by
    intro hnil
    have hlength : (i.erase name).names.length = i.names.length - 1 :=
      List.length_erase_of_mem hlisted
    rw [hnil, List.length_nil] at hlength
    omega
  have hgone : name ∉ (i.erase name).names := by
    have hcount : (i.erase name).names.count name = i.names.count name - 1 :=
      List.count_erase_self
    exact List.count_eq_zero.1 (by omega)
  have hread' : parse? (i.erase name).render = some (i.erase name) :=
    parse?_render (wellFormed_erase (wellFormed_of_parse? hread) name)
  refine ⟨(i.erase name).render, removeFrom_of_mem hread hlisted hrest, ?_⟩
  rw [mergeInto_of_not_mem hread' hgone, insert_erase hlisted]

/-- Merging a name in and taking it out undo each other up to the order of the list: a new name that
goes in and out again, and a name that was listed once and not alone and goes out and in again, both
leave the import with its names in order.  On a line that is written so already nothing changes. -/
theorem mergeInto_removeFrom_inverse (hread : parse? line = some i) (hne : i.names ≠ [])
    (hword : IsWord name) :
    (name ∉ i.names → removeFrom (mergeInto line name) name = some i.sorted.render) ∧
    (i.names.count name = 1 → 2 ≤ i.names.length →
      ∃ rest, removeFrom line name = some rest ∧ mergeInto rest name = i.sorted.render) ∧
    (line = i.render → NamesSorted i.names →
      (name ∉ i.names → removeFrom (mergeInto line name) name = some line) ∧
      (i.names.count name = 1 → 2 ≤ i.names.length →
        ∃ rest, removeFrom line name = some rest ∧ mergeInto rest name = line)) := by
  have hinOut := removeFrom_mergeInto hread hne hword
  have houtIn : i.names.count name = 1 → 2 ≤ i.names.length →
      ∃ rest, removeFrom line name = some rest ∧ mergeInto rest name = i.sorted.render :=
    mergeInto_removeFrom hread
  refine ⟨hinOut, houtIn, fun hwritten hsorted => ?_⟩
  have hline : i.sorted.render = line := by rw [sorted_of_namesSorted hsorted, hwritten]
  rw [hline] at hinOut houtIn
  exact ⟨hinOut, houtIn⟩

/-- An import with uneven blanks and marks, an empty entry, an alias that is listed twice, and names
that differ in case only. -/
def unevenImport : NamedImport :=
  { indent := "\t".toList
    names := ["b".toList, "B".toList, "a as c".toList, "a as c".toList]
    origin := { quote := '\x27', path := "./m".toList }, semicolon := false
    trailing := " // b".toList }

/-- On a line with this import a new name goes in and out, and a listed name out and in. -/
theorem mergeInto_removeFrom_uneven :
    let line := "\timport\x7bb ,,B, a as c,a as c\x7dfrom'./m\" // b".toList
    parse? line = some unevenImport ∧
      removeFrom (mergeInto line "A".toList) "A".toList = some unevenImport.sorted.render ∧
      ∃ rest, removeFrom line "B".toList = some rest ∧
        mergeInto rest "B".toList = unevenImport.sorted.render := by
  intro line
  have hread : parse? line = some unevenImport := by decide +kernel
  have hword : ∀ name : Identifier, IsWord name.text := Identifier.isWord
  obtain ⟨hinOut, -⟩ :=
    mergeInto_removeFrom_inverse hread (by decide) (hword ⟨"A".toList, by decide⟩)
  obtain ⟨-, houtIn, -⟩ :=
    mergeInto_removeFrom_inverse hread (by decide) (hword ⟨"B".toList, by decide⟩)
  exact ⟨hread, hinOut (by decide), houtIn (by decide) (by decide)⟩

end NamedImport

end Transplant
