import Transplant.Proofs.Browsing
import Transplant.Proofs.FileChanges

/-!
# Destinations lead where they say

A listing offers the directory above, the entries of the listed directory and a new file in it, each
by the way to it from the directory of the current file.  A move takes such a way as its
destination, and the two agree: what a destination stands for is where it leads.  The name of a new
file is what was typed, so the way to it can hold `..`, and it can start at the root.
-/

namespace Transplant

namespace Path

variable {path above : Path}

/-! ## Normal paths -/

theorem IsNormal.normalize_eq (hpath : path.IsNormal) : path.normalize = path := by
  obtain ⟨front, names, rfl, rfl | ⟨steps, rfl⟩⟩ := hpath
  · exact normalize_ofLocation names
  · have hup : (List.replicate steps Component.parent).foldl push [] =
        List.replicate steps .parent := by
      induction steps with
      | zero => rfl
      | succ steps ih =>
          rw [List.replicate_succ', List.foldl_concat, ih]
          cases steps <;> simp [push, List.replicate_succ']
    rw [normalize, List.foldl_append, hup, foldl_push_names]

theorem IsNormal.append_name (hpath : path.IsNormal) (name : Text) :
    IsNormal (path ++ [.name name]) := by
  obtain ⟨front, names, rfl, hfront⟩ := hpath
  exact ⟨front, names ++ [name], by simp, hfront⟩

theorem parent?_eq_some_iff :
    path.parent? = some above ↔ ∃ component, component ≠ .root ∧ path = above ++ [component] := by
  obtain rfl | ⟨front, last, rfl⟩ := List.eq_nil_or_concat path
  · simp [parent?]
  · rw [List.concat_eq_append, parent?, List.getLast?_concat, List.dropLast_concat]
    cases last <;> simp [eq_comm]

theorem IsNormal.parent (hpath : path.IsNormal) (habove : path.parent? = some above) :
    above.IsNormal := by
  obtain ⟨component, hroot, rfl⟩ := parent?_eq_some_iff.1 habove
  obtain ⟨front, names, hsplit, hfront⟩ := hpath
  have hfirst := congrArg List.dropLast hsplit
  rw [List.dropLast_concat] at hfirst
  obtain rfl | ⟨names, last, rfl⟩ := List.eq_nil_or_concat names
  · rw [List.map_nil, List.append_nil] at hsplit hfirst
    obtain rfl | ⟨steps, rfl⟩ := hfront
    · have hlast := congrArg List.getLast? hsplit
      rw [List.getLast?_concat] at hlast
      exact absurd (Option.some.inj hlast) hroot
    · rw [List.dropLast_replicate] at hfirst
      exact ⟨_, [], by rw [hfirst]; simp, .inr ⟨steps - 1, rfl⟩⟩
  · rw [List.concat_eq_append, List.map_append, ← List.append_assoc, List.map_singleton,
      List.dropLast_concat] at hfirst
    exact ⟨front, names, hfirst, hfront⟩

theorem Spelled.parent (hpath : path.Spelled) (habove : path.parent? = some above) :
    above.Spelled := by
  obtain ⟨component, -, rfl⟩ := parent?_eq_some_iff.1 habove
  simpa using hpath.dropLast

theorem isAbsolute_parent (hpath : path.isAbsolute) (habove : path.parent? = some above) :
    above.isAbsolute := by
  obtain ⟨component, hroot, rfl⟩ := parent?_eq_some_iff.1 habove
  obtain ⟨rest, hrest⟩ := isAbsolute_iff.1 hpath
  cases above with
  | nil =>
      rw [List.nil_append, List.cons.injEq] at hrest
      exact absurd hrest.1 hroot
  | cons head above =>
      rw [List.cons_append, List.cons.injEq] at hrest
      exact isAbsolute_iff.2 ⟨above, by rw [hrest.1]⟩

theorem fileName?_eq_some_iff {name : Text} :
    path.fileName? = some name ↔ ∃ above : Path, path = above ++ [.name name] := by
  obtain rfl | ⟨front, last, rfl⟩ := List.eq_nil_or_concat path
  · simp [fileName?]
  · rw [List.concat_eq_append, fileName?, List.getLast?_concat]
    cases last <;> simp

theorem normalize_append_name (path : Path) (name : Text) :
    normalize (path ++ [.name name]) = path.normalize ++ [.name name] := by
  rw [normalize, List.foldl_append]
  rfl

/-- Joining a path goes on from where its directory leads. -/
theorem normalize_join (base : Path) {target : Path} (hrelative : target.isAbsolute = false) :
    (join base target).normalize = target.foldl push base.normalize := by
  rw [join, if_neg (by simp [hrelative])]
  split
  · rename_i hempty
    rw [List.isEmpty_iff.1 hempty]
    rfl
  · rw [normalize, List.foldl_append, ← normalize, foldl_push_filter]

/-- What is seen from a directory does not depend on whether its path was normalised before. -/
theorem normalize_join_normalize (hspelled : path.Spelled) (target : Path) :
    (join path.normalize target).normalize = (join path target).normalize := by
  by_cases habsolute : target.isAbsolute
  · rw [join, join, if_pos habsolute, if_pos habsolute]
  · have hrelative : target.isAbsolute = false := Bool.eq_false_iff.2 habsolute
    rw [normalize_join _ hrelative, normalize_join _ hrelative,
      (isNormal_normalize hspelled).normalize_eq]

end Path

namespace Browse

variable {tree : Tree} {cwd : Location} {q : Query} {d : Destination} {path : Path}

/-- What a destination stands for: the directory above the listed one, an entry of the listed
directory, or a new file in it. -/
def Query.meant? (q : Query) (cwd : Location) (d : Destination) : Option Path :=
  let p := q.places cwd
  match d.kind with
  | .parent => p.listed.parent?
  | .directory | .file => some (p.listed ++ [.name d.label])
  | .new => some (Path.join p.listed
      (.ofText (freshName q.search q.defaultTarget q.extensions))).normalize

/-- Where a way leads from the directory of the current file. -/
def Query.follow (q : Query) (cwd : Location) (way : Text) : Path :=
  (Path.join (q.places cwd).fileDirectory (.ofText way)).normalize

/-! ## The directories of a query -/

theorem spelled_fileDirectory (hfile : (Path.ofText q.file).isAbsolute) :
    (q.places cwd).fileDirectory.Spelled := by
  obtain hnone | ⟨folder, hnames, hfolder⟩ := fileDirectory_eq cwd hfile
  · rw [hnone]
    exact Path.spelled_nil
  · rw [hfolder]
    exact hnames.spelled_ofNames true

theorem spelled_follow (hfile : (Path.ofText q.file).isAbsolute) (way : Text) :
    (Path.join (q.places cwd).fileDirectory (.ofText way)).Spelled :=
  (spelled_fileDirectory hfile).join (Path.spelled_ofText way)

/-- A way from the directory of the current file leads where it was taken to. -/
theorem follow_wayTo (hfile : (Path.ofText q.file).isAbsolute) (hspelled : path.Spelled)
    (hpath : (q.places cwd).fileDirectory.isAbsolute → path.isAbsolute) :
    q.follow cwd (Path.wayTo (q.places cwd).fileDirectory path) = path.normalize := by
  rw [Query.follow]
  obtain hnone | ⟨folder, hnames, hfolder⟩ := fileDirectory_eq cwd hfile
  · rw [hnone, Path.ofText_wayTo_nil hspelled, Path.join]
    split <;> rfl
  · rw [hfolder] at hpath ⊢
    exact Path.normalize_join_wayTo folder hspelled (hpath rfl)

/-- A destination is seen from the directory of a file that has a name, however the file is
spelled. -/
theorem destinationPath_eq_follow (hfile : (Path.ofText q.file).isAbsolute) {name : Text}
    (hname : (Path.ofText q.file).fileName? = some name) (way : Text) :
    Command.destinationPath q.file way = q.follow cwd way ∧ (q.follow cwd way).isAbsolute := by
  obtain ⟨folder, hpath⟩ := Path.fileName?_eq_some_iff.1 hname
  have habove : (Path.ofText q.file).parent? = some folder :=
    Path.parent?_eq_some_iff.2 ⟨.name name, by simp, hpath⟩
  have hspelled : folder.Spelled := (Path.spelled_ofText q.file).parent habove
  have hfolder : folder.isAbsolute := Path.isAbsolute_parent hfile habove
  have hdirectory : (q.places cwd).fileDirectory = folder.normalize := by
    have hnormal : absolutePath cwd q.file = folder.normalize ++ [.name name] := by
      rw [absolutePath, Path.join, if_pos hfile, hpath, Path.normalize_append_name]
    have hparent : (absolutePath cwd q.file).parent? = some folder.normalize :=
      Path.parent?_eq_some_iff.2 ⟨.name name, by simp, hnormal⟩
    calc
      (q.places cwd).fileDirectory = (absolutePath cwd q.file).parent?.getD [] := rfl
      _ = folder.normalize := by rw [hparent, Option.getD_some]
  constructor
  · rw [Command.destinationPath, habove, Option.getD_some, Query.follow, hdirectory,
      Path.normalize_join_normalize hspelled]
  · have habsolute : (q.places cwd).fileDirectory.isAbsolute := by
      rw [hdirectory]
      exact Path.isAbsolute_normalize hspelled hfolder
    exact Path.isAbsolute_normalize (spelled_follow hfile way) (Path.isAbsolute_join habsolute _)

/-! ## What a listing offers -/

theorem mem_list_new (hd : d ∈ list tree cwd q) (hkind : d.kind = .new) :
    d = freshDestination q (q.places cwd) := by
  simp only [list, List.mem_append, List.mem_map, List.mem_singleton] at hd
  obtain ((hd | ⟨name, -, rfl⟩) | ⟨name, -, rfl⟩) | hd := hd
  · rw [(mem_parentDestinations hd).1] at hkind
    cases hkind
  · cases hkind
  · cases hkind
  · exact hd

/-- A destination leads to what it stands for. -/
theorem meant?_eq_follow (htree : tree.Named) (hfile : (Path.ofText q.file).isAbsolute)
    (hd : d ∈ list tree cwd q) : q.meant? cwd d = some (q.follow cwd d.relativePath) := by
  have hjoined : (Path.join (q.places cwd).fileDirectory (.ofText q.directory)).Spelled :=
    spelled_follow hfile q.directory
  have hspelled : (q.places cwd).listed.Spelled := hjoined.normalize
  have hnormal : (q.places cwd).listed.IsNormal := Path.isNormal_normalize hjoined
  have habsolute (hdirectory : (q.places cwd).fileDirectory.isAbsolute) :
      (q.places cwd).listed.isAbsolute :=
    Path.isAbsolute_normalize hjoined (Path.isAbsolute_join hdirectory _)
  have hentry (name : Text) : q.follow cwd ((q.places cwd).toEntry name) =
      (Path.join (q.places cwd).listed (.ofText name)).normalize :=
    follow_wayTo hfile (hspelled.join (Path.spelled_ofText name))
      fun hdirectory => Path.isAbsolute_join (habsolute hdirectory) _
  have hlisted (hkind : d.kind = .directory ∨ d.kind = .file) :
      q.follow cwd d.relativePath = (q.places cwd).listed ++ [.name d.label] := by
    obtain ⟨hne, hway, entry, hmem, -⟩ := mem_list_entry hd hkind
    have hname : (Component.name d.label).IsSegment := htree _ hmem d.label (by simp)
    rw [hway, hentry, Path.join_name hne hname, (hnormal.append_name d.label).normalize_eq]
  rw [Query.meant?]
  cases hkind : d.kind with
  | parent =>
      obtain ⟨-, above, habove, hway⟩ := mem_list_parent hd hkind
      have hup := follow_wayTo hfile (hspelled.parent habove)
        fun hdirectory => Path.isAbsolute_parent (habsolute hdirectory) habove
      rw [hway, hup, (hnormal.parent habove).normalize_eq]
      exact habove
  | directory => rw [hlisted (.inl hkind)]
  | file => rw [hlisted (.inr hkind)]
  | new =>
      rw [mem_list_new hd hkind]
      exact congrArg some (hentry _).symm

/-- Every destination of a listing leads to what it stands for: the directory above, an entry of the
listed directory that is there, or the new file.  A move that takes it as its destination goes to
this place, if the current file has a name. -/
theorem list_leads_to_meant (htree : tree.Named) (hfile : (Path.ofText q.file).isAbsolute)
    (hd : d ∈ list tree cwd q) :
    q.meant? cwd d = some (q.follow cwd d.relativePath) ∧
    (d.kind = .directory ∨ d.kind = .file →
      ∃ entry, (Tree.locate cwd (q.follow cwd d.relativePath), entry) ∈ tree.entries ∧
        (entry = .directory ↔ d.kind = .directory)) ∧
    ∀ name, (Path.ofText q.file).fileName? = some name →
      Command.destinationPath q.file d.relativePath = q.follow cwd d.relativePath ∧
        (q.follow cwd d.relativePath).isAbsolute := by
  have hmeant := meant?_eq_follow htree hfile hd
  refine ⟨hmeant, fun hkind => ?_, fun name hname => destinationPath_eq_follow hfile hname _⟩
  obtain ⟨-, -, entry, hentry, hsort⟩ := mem_list_entry hd hkind
  have hlisted : q.follow cwd d.relativePath = (q.places cwd).listed ++ [.name d.label] := by
    obtain hkind | hkind := hkind <;> simpa [Query.meant?, hkind, eq_comm] using hmeant
  refine ⟨entry, ?_, hsort⟩
  rwa [hlisted, Tree.locate_append, Tree.locate_name, Tree.locate_nil]

/-- A query for a new file outside the directory that is listed. -/
def outsideQuery : Query :=
  { siblingQuery with directory := "../lib".toList, search := "..//new/./x.md".toList }

def outsideFile : Destination where
  kind := .new
  label := "New File".toList
  description := "Create '..//new/./x.ts' in ../lib".toList
  relativePath := "../lib/../new/x.ts".toList

/-- The way to the new file goes into the listed directory and out of it again. -/
theorem list_leads_to_meant_outside : siblingTree.Named ∧
    (Path.ofText outsideQuery.file).isAbsolute ∧ outsideFile ∈ list siblingTree [] outsideQuery ∧
    outsideQuery.meant? [] outsideFile = some (.ofText "/ws/new/x.ts".toList) ∧
    Command.destinationPath outsideQuery.file outsideFile.relativePath =
      .ofText "/ws/new/x.ts".toList := by
  have htree : siblingTree.Named := by
    unfold Tree.Named Path.AreNames Component.IsSegment
    decide +kernel
  have hfile : (Path.ofText outsideQuery.file).isAbsolute := by decide +kernel
  have hmem : outsideFile ∈ list siblingTree [] outsideQuery := by decide +kernel
  obtain ⟨hmeant, -, hmove⟩ := list_leads_to_meant htree hfile hmem
  have hplace : outsideQuery.follow [] outsideFile.relativePath =
      .ofText "/ws/new/x.ts".toList := by
    decide +kernel
  rw [hplace] at hmeant
  exact ⟨htree, hfile, hmem, hmeant, (hmove "a.ts".toList (by decide +kernel)).1.trans hplace⟩

end Browse

end Transplant
