import Transplant.Proofs.Ways

/-!
# Browsing

A listing is asked for a directory by the way to it from the directory of the current file, and it
offers the directory above and the directories below by such ways.  A way leads to where it was
taken for: the steps up take back just what the two paths do not share.  So a run of listings goes
through the directories that it is shown, and none of them lies outside the limit.
-/

namespace Transplant

namespace Path

/-! ## Paths of places -/

theorem ofLocation_append (location below : Location) :
    ofLocation (location ++ below) = ofLocation location ++ below.map .name := by
  simp [ofLocation]

theorem ofLocation_concat (location : Location) (name : Text) :
    ofLocation (location ++ [name]) = ofLocation location ++ [.name name] :=
  ofLocation_append location [name]

theorem ofLocation_prefix_iff {above below : Location} :
    ofLocation above <+: ofLocation below ↔ above <+: below := by
  have hname : Function.Injective Component.name := fun _ _ => Component.name.inj
  rw [ofLocation, ofLocation, List.prefix_cons_inj, List.prefix_map_iff_of_injective hname]

theorem parent?_ofLocation_concat (location : Location) (name : Text) :
    (ofLocation (location ++ [name])).parent? = some (ofLocation location) := by
  rw [ofLocation_concat, parent?, List.getLast?_concat, List.dropLast_concat]

/-- From a directory, the empty path leads nowhere else. -/
theorem normalize_join_nil (folder : Location) :
    (Path.join (ofLocation folder) (.ofText [])).normalize = ofLocation folder := by
  rw [Path.join, if_neg (by simp [ofText, Text.pieces, component?, isAbsolute]),
    if_neg (by simp [ofLocation])]
  simpa [ofText, Text.pieces, component?] using normalize_ofLocation folder

theorem join_name {base : Path} (hbase : base ≠ []) {name : Text}
    (hname : (Component.name name).IsSegment) :
    Path.join base (.ofText name) = base ++ [.name name] := by
  have hread : Path.ofText name = [.name name] := by
    have hspelled : Spelled ([] ++ [.name name]) :=
      spelled_nil.append (List.forall_mem_singleton.2 ⟨hname, by simp [Component.IsStep]⟩)
    simpa [toText, Text.join, Component.text, List.intercalate] using ofText_toText hspelled
  rw [hread, Path.join, if_neg (by simp [isAbsolute]), if_neg (by simpa using hbase)]
  simp

end Path

/-- Every entry of a tree has names that can stand between the slashes of a path. -/
def Tree.Named (tree : Tree) : Prop :=
  ∀ entry ∈ tree.entries, Path.AreNames entry.1

namespace Browse

variable {tree : Tree} {cwd : Location} {q : Query} {d : Destination}

/-! ## The directories of a query -/

theorem absolutePath_eq (cwd : Location) (path : Text) :
    absolutePath cwd path = Path.ofLocation (Tree.locate cwd (.ofText path)) :=
  Path.absolute_eq cwd (Path.spelled_ofText path)

/-- The directory of an absolute file is a place; above the root there is none. -/
theorem fileDirectory_eq (cwd : Location) (hfile : (Path.ofText q.file).isAbsolute) :
    (q.places cwd).fileDirectory = [] ∨
      ∃ folder, Path.AreNames folder ∧ (q.places cwd).fileDirectory = Path.ofLocation folder := by
  have hspelled : (absolutePath cwd q.file).Spelled := by
    rw [absolutePath, Path.join, if_pos hfile]
    exact (Path.spelled_ofText q.file).normalize
  have hdirectory : (q.places cwd).fileDirectory = (absolutePath cwd q.file).parent?.getD [] := rfl
  rw [absolutePath_eq] at hdirectory hspelled
  rw [hdirectory]
  obtain hroot | ⟨folder, name, hplace⟩ :=
    List.eq_nil_or_concat (Tree.locate cwd (.ofText q.file))
  · rw [hroot]
    exact .inl rfl
  · refine .inr ⟨folder, ?_, ?_⟩
    · intro name hname
      apply hspelled.segments
      simp [Path.ofLocation, hplace, hname]
    · rw [hplace, List.concat_eq_append, Path.parent?_ofLocation_concat]
      rfl

/-- The limit is the directory of the file, or a place that was named. -/
theorem limit_cases
    (hroot : ∀ root ∈ q.root, absolutePath cwd root <+: (q.places cwd).fileDirectory) :
    (q.places cwd).limit = (q.places cwd).fileDirectory ∨
      ∃ limit, (q.places cwd).limit = Path.ofLocation limit ∧
        (q.places cwd).limit <+: (q.places cwd).fileDirectory := by
  cases hq : q.root with
  | none => exact .inl (by simp [Query.places, hq])
  | some root =>
      have hlimit : (q.places cwd).limit = absolutePath cwd root := by simp [Query.places, hq]
      exact .inr ⟨_, hlimit.trans (absolutePath_eq cwd root), by rw [hlimit]; exact hroot root hq⟩

theorem listed_of_root (hfolder : (q.places cwd).fileDirectory = []) :
    (({ q with directory := [] } : Query).places cwd).listed = [] := by
  have hlisted : (({ q with directory := [] } : Query).places cwd).listed =
      (Path.join (q.places cwd).fileDirectory (.ofText [])).normalize := rfl
  rw [hlisted, hfolder]
  rfl

/-! ## What a listing offers -/

theorem mem_parentDestinations {p : Places} (hd : d ∈ parentDestinations p) :
    d.kind = .parent ∧ p.listed ≠ p.limit ∧ ∃ parent, p.listed.parent? = some parent ∧
      d.relativePath = Path.wayTo p.fileDirectory parent := by
  rw [parentDestinations] at hd
  split at hd
  · cases hd
  · rename_i hlimit
    split at hd
    · cases hd
    · rename_i parent hparent
      rw [List.mem_singleton] at hd
      rw [hd]
      exact ⟨rfl, hlimit, parent, hparent, rfl⟩

/-- An entry that is shown is one of the tree, in a directory that has a name. -/
theorem mem_shownEntries {p : Places} {search : Text} {shown : Text × Entry}
    (hshown : shown ∈ shownEntries tree cwd p search) :
    p.listed ≠ [] ∧ (Tree.locate cwd p.listed ++ [shown.1], shown.2) ∈ tree.entries := by
  rw [shownEntries] at hshown
  split at hshown
  · rename_i hlisted
    have hchild := List.mem_of_mem_filter hshown
    rw [Tree.children, List.mem_filterMap] at hchild
    obtain ⟨⟨place, entry⟩, hentry, hchild⟩ := hchild
    refine ⟨hlisted.1, ?_⟩
    cases hlast : place.getLast? with
    | none => simp [hlast] at hchild
    | some last =>
        simp only [hlast, Option.ite_none_right_eq_some, Option.some.injEq] at hchild
        obtain ⟨hplace, rfl⟩ := hchild
        rwa [← hplace, List.dropLast_append_getLast? last hlast]
  · cases hshown

/-- The step up is offered below the limit. -/
theorem mem_list_parent (hd : d ∈ list tree cwd q) (hkind : d.kind = .parent) :
    (q.places cwd).listed ≠ (q.places cwd).limit ∧
      ∃ parent, (q.places cwd).listed.parent? = some parent ∧
        d.relativePath = Path.wayTo (q.places cwd).fileDirectory parent := by
  simp only [list, List.mem_append, List.mem_map, List.mem_singleton] at hd
  obtain ((hd | ⟨name, -, rfl⟩) | ⟨name, -, rfl⟩) | rfl := hd
  · exact (mem_parentDestinations hd).2
  · cases hkind
  · cases hkind
  · cases hkind

/-- A directory or a file that is offered is an entry of the listed directory, which has a name. -/
theorem mem_list_entry (hd : d ∈ list tree cwd q) (hkind : d.kind = .directory ∨ d.kind = .file) :
    (q.places cwd).listed ≠ [] ∧ d.relativePath = (q.places cwd).toEntry d.label ∧
      ∃ entry, (Tree.locate cwd (q.places cwd).listed ++ [d.label], entry) ∈ tree.entries ∧
        (entry = .directory ↔ d.kind = .directory) := by
  simp only [list, List.mem_append, List.mem_map, List.mem_singleton] at hd
  obtain ((hd | ⟨name, hname, rfl⟩) | ⟨name, hname, rfl⟩) | rfl := hd
  · simp [(mem_parentDestinations hd).1] at hkind
  · rw [directoryNames, (inNameOrder_perm _).mem_iff, List.mem_map] at hname
    obtain ⟨shown, hshown, rfl⟩ := hname
    obtain ⟨hshown, hdirectory⟩ := List.mem_filter.1 hshown
    obtain ⟨hlisted, hentry⟩ := mem_shownEntries hshown
    exact ⟨hlisted, rfl, shown.2, hentry, iff_of_true (by simpa using hdirectory) rfl⟩
  · rw [fileNames, (inNameOrder_perm _).mem_iff, List.mem_map] at hname
    obtain ⟨shown, hshown, rfl⟩ := hname
    obtain ⟨hshown, hoffered⟩ := List.mem_filter.1 hshown
    obtain ⟨hlisted, hentry⟩ := mem_shownEntries hshown
    simp only [Bool.and_eq_true] at hoffered
    exact ⟨hlisted, rfl, shown.2, hentry, iff_of_false (of_decide_eq_true hoffered.1.1) (by simp)⟩
  · obtain hkind | hkind := hkind
    · cases hkind
    · cases hkind

/-! ## Runs of listings -/

/-- One listing leads to the next.  Below the limit, both a step up and a directory that is offered
lead to a place that is still below the limit. -/
theorem exists_place_of_mem_list {folder limit place : Location} (htree : tree.Named)
    (hfolder : (q.places cwd).fileDirectory = Path.ofLocation folder)
    (hlimit : (q.places cwd).limit = Path.ofLocation limit)
    (hlisted : (q.places cwd).listed = Path.ofLocation place) (hplace : Path.AreNames place)
    (hbelow : limit <+: place) (hd : d ∈ list tree cwd q)
    (hkind : d.kind = .parent ∨ d.kind = .directory) :
    ∃ next, Path.AreNames next ∧ limit <+: next ∧
      d.relativePath = Path.wayTo (Path.ofLocation folder) (Path.ofLocation next) := by
  obtain hkind | hkind := hkind
  · obtain ⟨hne, parent, hparent, hway⟩ := mem_list_parent hd hkind
    rw [hlisted, hlimit] at hne
    rw [hlisted] at hparent
    obtain rfl | ⟨above, name, rfl⟩ := List.eq_nil_or_concat place
    · cases hparent
    · rw [List.concat_eq_append] at hne hparent hplace hbelow
      rw [Path.parent?_ofLocation_concat, Option.some.injEq] at hparent
      refine ⟨above, fun name hname => hplace name (List.mem_append_left _ hname), ?_, ?_⟩
      · obtain heq | habove := List.prefix_concat_iff.1 hbelow
        · exact absurd (congrArg Path.ofLocation heq).symm hne
        · exact habove
      · rw [hway, hfolder, hparent]
  · obtain ⟨hne, hway, entry, hentry, -⟩ := mem_list_entry hd (.inl hkind)
    have hname : (Component.name d.label).IsSegment := htree _ hentry d.label (by simp)
    refine ⟨place ++ [d.label], ?_, hbelow.trans (List.prefix_append _ _), ?_⟩
    · exact List.forall_mem_append.2 ⟨hplace, List.forall_mem_singleton.2 hname⟩
    · rw [hway, Places.toEntry, Path.join_name hne hname, hfolder, hlisted, Path.ofLocation_concat]

/-- The directories that browsing comes to, as they are handed to the next listing.  It starts in
the directory of the current file and goes on with a step up or a directory that the last listing
offered, whatever was searched for there. -/
inductive Reached (tree : Tree) (cwd : Location) (q : Query) : Text → Prop
  | start : Reached tree cwd q []
  | next {directory : Text} {d : Destination} (search : Text) :
      Reached tree cwd q directory → d ∈ list tree cwd { q with directory, search } →
      d.kind = .parent ∨ d.kind = .directory → Reached tree cwd q d.relativePath

/-- The directories that browsing comes to are the limit and places below it, if browsing starts
there. -/
theorem Reached.exists_place {folder limit : Location} {directory : Text} (htree : tree.Named)
    (hfolder : (q.places cwd).fileDirectory = Path.ofLocation folder)
    (hlimit : (q.places cwd).limit = Path.ofLocation limit) (hnames : Path.AreNames folder)
    (hstart : limit <+: folder) (hreached : Reached tree cwd q directory) :
    ∃ place, Path.AreNames place ∧ limit <+: place ∧
      (({ q with directory } : Query).places cwd).listed = Path.ofLocation place := by
  have hlisted : ∀ directory : Text, (({ q with directory } : Query).places cwd).listed =
      (Path.join (Path.ofLocation folder) (.ofText directory)).normalize := by
    intro directory
    rw [← hfolder]
    rfl
  induction hreached with
  | start => exact ⟨folder, hnames, hstart, by rw [hlisted, Path.normalize_join_nil]⟩
  | @next here d search hreached hd hkind ih =>
      obtain ⟨place, hplace, hbelow, hhere⟩ := ih
      obtain ⟨next, hnext, hbelow, hway⟩ :=
        exists_place_of_mem_list (q := { q with directory := here, search }) htree hfolder hlimit
          hhere hplace hbelow hd hkind
      refine ⟨next, hnext, hbelow, ?_⟩
      rw [hlisted, hway, Path.normalize_join_wayTo_ofLocation folder hnext]

/-- Above the root there is nothing to go to. -/
theorem Reached.eq_nil {directory : Text} (hfolder : (q.places cwd).fileDirectory = [])
    (hlimit : (q.places cwd).limit = []) (hreached : Reached tree cwd q directory) :
    directory = [] := by
  have hlisted := listed_of_root hfolder
  induction hreached with
  | start => rfl
  | next search hreached hd hkind ih =>
      subst ih
      obtain hkind | hkind := hkind
      · exact absurd (hlisted.trans hlimit.symm) (mem_list_parent hd hkind).1
      · exact absurd hlisted (mem_list_entry hd (.inl hkind)).1

/-- Browsing never leaves the limit.  The listed directory is the limit or a place below it, in any
run of listings that starts in the directory of an absolute file, if the limit is that directory or
one above it. -/
theorem listed_eq_limit_append {directory : Text} (htree : tree.Named)
    (hfile : (Path.ofText q.file).isAbsolute)
    (hroot : ∀ root ∈ q.root, absolutePath cwd root <+: (q.places cwd).fileDirectory)
    (hreached : Reached tree cwd q directory) :
    ∃ below : List Text, (({ q with directory } : Query).places cwd).listed =
      (q.places cwd).limit ++ below.map .name := by
  obtain hnone | ⟨folder, hnames, hfolder⟩ := fileDirectory_eq cwd hfile
  · have hlimit : (q.places cwd).limit = [] := by
      obtain hlimit | ⟨limit, hlimit, hprefix⟩ := limit_cases hroot
      · rw [hlimit, hnone]
      · rw [hnone, List.prefix_nil, hlimit] at hprefix
        cases hprefix
    obtain rfl := hreached.eq_nil hnone hlimit
    exact ⟨[], by rw [listed_of_root hnone, hlimit, List.map_nil, List.append_nil]⟩
  · obtain ⟨limit, hlimit, hbelow⟩ :
        ∃ limit, (q.places cwd).limit = Path.ofLocation limit ∧ limit <+: folder := by
      obtain hlimit | ⟨limit, hlimit, hprefix⟩ := limit_cases hroot
      · exact ⟨folder, hlimit.trans hfolder, List.prefix_rfl⟩
      · rw [hfolder, hlimit] at hprefix
        exact ⟨limit, hlimit, Path.ofLocation_prefix_iff.1 hprefix⟩
    obtain ⟨place, -, ⟨below, rfl⟩, hlisted⟩ :=
      hreached.exists_place htree hfolder hlimit hnames hbelow
    exact ⟨below, by rw [hlisted, hlimit, Path.ofLocation_append]⟩

/-- Two directories beside each other, one of them with a directory in it. -/
def siblingTree : Tree where
  entries := [(["ws".toList], .directory), (["ws".toList, "src".toList], .directory),
    (["ws".toList, "src".toList, "a.ts".toList], .file (.text [])),
    (["ws".toList, "lib".toList], .directory),
    (["ws".toList, "lib".toList, "deep".toList], .directory)]

/-- Browsing from a file in one of the directories, up to the directory of both. -/
def siblingQuery : Query where
  file := "/ws/src/a.ts".toList
  directory := []
  search := []
  root := some "/ws".toList
  extensions := ["ts".toList]
  defaultTarget := "new.ts".toList

/-- A run goes up to the limit and down beside the directory that it started in. -/
theorem listed_eq_limit_append_siblings : siblingTree.Named ∧
    (Path.ofText siblingQuery.file).isAbsolute ∧
    (∀ root ∈ siblingQuery.root, absolutePath [] root <+: (siblingQuery.places []).fileDirectory) ∧
    Reached siblingTree [] siblingQuery "../lib/deep".toList ∧
    ∃ below : List Text,
      (({ siblingQuery with directory := "../lib/deep".toList } : Query).places []).listed =
        (siblingQuery.places []).limit ++ below.map .name := by
  have htree : siblingTree.Named := by
    unfold Tree.Named Path.AreNames Component.IsSegment
    decide +kernel
  have hfile : (Path.ofText siblingQuery.file).isAbsolute := by decide +kernel
  have hroot : ∀ root ∈ siblingQuery.root,
      absolutePath [] root <+: (siblingQuery.places []).fileDirectory := by
    rintro root ⟨⟩
    decide +kernel
  have hreached : Reached siblingTree [] siblingQuery "../lib/deep".toList := by
    have hup : Reached siblingTree [] siblingQuery "..".toList :=
      .next (d := ⟨.parent, "..".toList, "Go to ws".toList, "..".toList⟩) [] .start
        (by decide +kernel) (.inl rfl)
    have hlib : Reached siblingTree [] siblingQuery "../lib".toList :=
      .next (d := ⟨.directory, "lib".toList, "Directory".toList, "../lib".toList⟩) "l".toList hup
        (by decide +kernel) (.inr rfl)
    exact .next (d := ⟨.directory, "deep".toList, "Directory".toList, "../lib/deep".toList⟩) [] hlib
      (by decide +kernel) (.inr rfl)
  exact ⟨htree, hfile, hroot, hreached, listed_eq_limit_append htree hfile hroot hreached⟩

end Browse

end Transplant
