import Transplant.Proofs.Directories

/-!
# Well-formed trees

In a well-formed tree every entry stands in a directory.  So whatever is there is found along its
names, and a normalised path leads to every entry that it stands for.  Making directories and
putting files into directories keeps a tree well-formed.
-/

namespace Transplant

namespace Path

/-- A path that goes up or to the root first, and then down along names. -/
def IsNormal (path : Path) : Prop :=
  ∃ (front : Path) (names : List Text), path = front ++ names.map .name ∧
    (front = [.root] ∨ ∃ n, front = List.replicate n .parent)

theorem isNormal_foldl_push {rest : Path} (hrest : .root ∉ rest) (n : Nat) (names : List Text) :
    (rest.foldl push (List.replicate n .parent ++ names.map .name)).IsNormal := by
  induction rest generalizing n names with
  | nil => exact ⟨_, names, rfl, .inr ⟨n, rfl⟩⟩
  | cons component rest ih =>
      rw [List.mem_cons, not_or] at hrest
      obtain ⟨hroot, hrest⟩ := hrest
      rw [List.foldl_cons]
      cases component with
      | root => exact absurd rfl hroot
      | current => exact ih hrest n names
      | parent =>
          obtain rfl | ⟨above, last, rfl⟩ := List.eq_nil_or_concat names
          · have hpush : push (List.replicate n .parent ++ ([] : List Text).map .name) .parent =
                List.replicate (n + 1) .parent ++ ([] : List Text).map .name := by
              cases n <;> simp [push, List.replicate_succ']
            rw [hpush]
            exact ih hrest (n + 1) []
          · have hpush : push (List.replicate n .parent ++
                (above ++ [last]).map .name) .parent =
                  List.replicate n .parent ++ above.map .name := by
              rw [List.map_append, ← List.append_assoc]
              simp [push]
            rw [List.concat_eq_append, hpush]
            exact ih hrest n above
      | name text =>
          have hpush : push (List.replicate n .parent ++ names.map .name) (.name text) =
              List.replicate n .parent ++ (names ++ [text]).map .name := by
            simp [push]
          rw [hpush]
          exact ih hrest n (names ++ [text])

theorem isNormal_normalize {path : Path} (hpath : path.Spelled) : path.normalize.IsNormal := by
  by_cases habsolute : path.isAbsolute
  · obtain ⟨rest, rfl⟩ := List.head?_eq_some_iff.1 (of_decide_eq_true habsolute)
    have hroot : .root ∉ rest := fun hroot => (hpath.steps .root hroot).1 rfl
    rw [normalize_root hroot]
    exact ⟨[.root], _, rfl, .inl rfl⟩
  · have hroot := not_mem_root hpath (Bool.eq_false_iff.2 habsolute)
    exact isNormal_foldl_push hroot 0 []

theorem toText_of_not_mem {path : Path} (hroot : .root ∉ path) :
    path.toText = Text.join ['/'] (path.map Component.text) := by
  cases path with
  | nil => rfl
  | cons head rest =>
      cases head with
      | root => exact absurd List.mem_cons_self hroot
      | current => rfl
      | parent => rfl
      | name text => rfl

/-! ## Absolute paths -/

section Absolute

variable {path base : Path}

theorem isAbsolute_iff : path.isAbsolute ↔ ∃ rest, path = .root :: rest := by
  rw [isAbsolute, decide_eq_true_iff, List.head?_eq_some_iff]

theorem isAbsolute_join (hbase : base.isAbsolute) (path : Path) : (join base path).isAbsolute := by
  obtain ⟨rest, rfl⟩ := isAbsolute_iff.1 hbase
  rw [join]
  split
  · assumption
  · exact isAbsolute_iff.2 ⟨_, rfl⟩

theorem isAbsolute_normalize (hpath : path.Spelled) (habsolute : path.isAbsolute) :
    path.normalize.isAbsolute := by
  obtain ⟨rest, rfl⟩ := isAbsolute_iff.1 habsolute
  have hroot : .root ∉ rest := fun hroot => (hpath.steps .root hroot).1 rfl
  rw [normalize_root hroot]
  exact isAbsolute_iff.2 ⟨_, rfl⟩

end Absolute

end Path

namespace Tree

/-- Every entry stands in a directory, under a name that a directory can hold. -/
structure WellFormed (tree : Tree) : Prop where
  parents : ∀ location name, (tree.get? (location ++ [name])).isSome →
    tree.get? location = some .directory
  names : ∀ location name, (tree.get? (location ++ [name])).isSome → isLongName name = false

variable {tree : Tree} {location : Location} {name : Text}

/-- A tree is well-formed if every entry that is listed stands in a directory. -/
theorem wellFormed_of_entries
    (hentries : ∀ listed ∈ tree.entries, tree.get? listed.1.dropLast = some .directory ∧
      ∀ name ∈ listed.1.getLast?, isLongName name = false) : tree.WellFormed := by
  have hlisted : ∀ location name, (tree.get? (location ++ [name])).isSome →
      tree.get? location = some .directory ∧ isLongName name = false := by
    intro location name hthere
    rw [get?, if_neg (by simp)] at hthere
    obtain ⟨entry, hentry⟩ := Option.isSome_iff_exists.1 hthere
    obtain ⟨before, after, hsplit, -⟩ := List.lookup_eq_some_iff.1 hentry
    obtain ⟨hparent, hname⟩ := hentries (location ++ [name], entry) (by simp [hsplit])
    rw [List.dropLast_concat] at hparent
    exact ⟨hparent, hname name (by simp)⟩
  exact ⟨fun location name hthere => (hlisted location name hthere).1,
    fun location name hthere => (hlisted location name hthere).2⟩

theorem locate_append (cwd : Location) (front back : Path) :
    locate cwd (front ++ back) = locate (locate cwd front) back :=
  List.foldl_append ..

/-- A written path starts at the root exactly if the path does. -/
theorem startOf_toText {path : Path} (hpath : path.Spelled) (hroot : .root ∉ path)
    (cwd : Location) : startOf cwd path.toText = cwd := by
  apply if_neg
  intro hhead
  obtain ⟨rest, htext⟩ := List.head?_eq_some_iff.1 hhead
  have hread := Path.ofText_toText hpath
  rw [htext, Path.ofText_root] at hread
  rw [← hread] at hroot
  exact hroot List.mem_cons_self

theorem get?_nil (tree : Tree) : tree.get? [] = some .directory := rfl

namespace WellFormed

variable (htree : tree.WellFormed)
include htree

/-- On the way to an entry there are directories only. -/
theorem directory_above {below : List Text}
    (hthere : (tree.get? (location ++ name :: below)).isSome) :
    tree.get? location = some .directory := by
  induction below using List.reverseRecOn with
  | nil => exact htree.parents location name hthere
  | append_singleton front last ih =>
      apply ih
      rw [htree.parents (location ++ name :: front) last (by simpa using hthere)]
      rfl

theorem there_above {below : List Text}
    (hthere : (tree.get? (location ++ name :: below)).isSome) :
    (tree.get? (location ++ [name])).isSome := by
  cases below with
  | nil => exact hthere
  | cons next below =>
      have hbelow : (tree.get? ((location ++ [name]) ++ next :: below)).isSome := by
        simpa using hthere
      rw [htree.directory_above hbelow]
      rfl

theorem directory_dropLast (hdirectory : tree.get? location = some .directory) :
    tree.get? location.dropLast = some .directory := by
  obtain rfl | ⟨above, last, rfl⟩ := List.eq_nil_or_concat location
  · rfl
  · rw [List.concat_eq_append] at hdirectory ⊢
    rw [List.dropLast_concat]
    exact htree.parents above last (by rw [hdirectory]; rfl)

theorem directory_locate_parents (hdirectory : tree.get? location = some .directory) (n : Nat) :
    tree.get? (locate location (.replicate n .parent)) = some .directory := by
  induction n generalizing location with
  | zero => exact hdirectory
  | succ n ih => exact ih (htree.directory_dropLast hdirectory)

/-! ## Walks -/

theorem walk_parents (hdirectory : tree.get? location = some .directory) (n : Nat)
    (rest : List Text) :
    tree.walk location (List.replicate n ['.', '.'] ++ rest) =
      tree.walk (locate location (.replicate n .parent)) rest := by
  induction n generalizing location with
  | zero => rfl
  | succ n ih =>
      rw [List.replicate_succ, List.cons_append, walk_cons hdirectory, if_neg (by decide),
        if_pos rfl]
      exact ih (htree.directory_dropLast hdirectory)

/-- An entry is found along its names. -/
theorem walk_names {names : List Text}
    (hnames : ∀ name ∈ names, Path.component? name = some (.name name))
    (hthere : (tree.get? (location ++ names)).isSome) :
    tree.walk location names = .ok (location ++ names) := by
  induction names generalizing location with
  | nil =>
      rw [List.append_nil]
      rfl
  | cons name names ih =>
      obtain ⟨hname, hnames⟩ := List.forall_mem_cons.1 hnames
      have hfound := htree.there_above hthere
      have hlong := htree.names location name hfound
      have hsegment : ¬(name = [] ∨ name = ['.']) ∧ name ≠ ['.', '.'] := by
        rw [Path.component?] at hname
        split_ifs at hname with hstay hparent
        · cases hname
        · exact ⟨hstay, hparent⟩
      rw [walk_cons (htree.directory_above hthere), if_neg hsegment.1, if_neg hsegment.2, hlong,
        if_neg Bool.false_ne_true, if_pos hfound, ih hnames (by simpa using hthere)]
      simp

/-- A normalised path leads to what stands at its place. -/
theorem resolve_toText {cwd : Location} {path : Path} (hpath : path.Spelled)
    (hnormal : path.IsNormal) (hfault : pathFault? path.toText = none)
    (hstart : tree.get? (startOf cwd path.toText) = some .directory)
    (hthere : (tree.get? (locate cwd path)).isSome) :
    tree.resolve cwd path.toText = .ok (locate cwd path) := by
  obtain ⟨front, names, rfl, hfront⟩ := hnormal
  have hnames : ∀ name ∈ names, Path.component? name = some (.name name) := by
    intro name hname
    exact (hpath.segments (.name name) (by simp [hname])).2
  have hslash : ∀ name ∈ names, '/' ∉ name := by
    intro name hname
    exact (hpath.segments (.name name) (by simp [hname])).1
  have htexts : (names.map Component.name).map Component.text = names := by
    rw [List.map_map]
    exact List.map_id names
  rw [resolve_eq hfault]
  obtain rfl | ⟨n, rfl⟩ := hfront
  · have htext : ([.root] ++ names.map Component.name : Path).toText =
        '/' :: Text.join ['/'] names := by
      rw [List.singleton_append, Path.toText, htexts]
    rw [List.singleton_append, locate_root, locate_names, List.nil_append] at hthere ⊢
    rw [← List.singleton_append, htext, startOf, if_pos List.head?_cons, Text.pieces_cons_sep,
      walk_cons (get?_nil tree), if_pos (.inl rfl)]
    by_cases hnil : names = []
    · rw [hnil]
      rfl
    · rw [Text.pieces_join hnil hslash]
      exact htree.walk_names hnames hthere
  · generalize hwhole : List.replicate n Component.parent ++ names.map .name = path at *
    have hroot : .root ∉ path := by
      rw [← hwhole]
      simp
    have hne : path ≠ [] := by
      rintro rfl
      cases hfault
    have hpieces : (Path.toText path).pieces '/' = List.replicate n ['.', '.'] ++ names := by
      rw [Path.toText_of_not_mem hroot, Path.pieces_steps hne, ← hwhole, List.map_append, htexts,
        List.map_replicate]
      · rfl
      · intro component hcomponent
        exact ⟨hpath.segments component hcomponent, fun heq => hroot (heq ▸ hcomponent)⟩
    have hlocate : locate cwd path = locate cwd (.replicate n .parent) ++ names := by
      rw [← hwhole, locate_append, locate_names]
    rw [startOf_toText hpath hroot] at hstart ⊢
    rw [hpieces, htree.walk_parents hstart, hlocate]
    rw [hlocate] at hthere
    exact htree.walk_names hnames hthere

/-- A normalised path of something other than a directory ends in a name. -/
theorem exists_of_not_directory {cwd : Location} {path : Path} (hpath : path.Spelled)
    (hnormal : path.IsNormal)
    (hstart : tree.get? (startOf cwd path.toText) = some .directory)
    (hplace : tree.get? (locate cwd path) ≠ some .directory) :
    ∃ directory name, path = directory ++ [.name name] := by
  obtain ⟨front, names, rfl, hfront⟩ := hnormal
  obtain rfl | ⟨above, last, rfl⟩ := List.eq_nil_or_concat names
  · rw [List.map_nil, List.append_nil] at hpath hstart hplace
    obtain rfl | ⟨n, rfl⟩ := hfront
    · exact absurd (get?_nil tree) hplace
    · rw [startOf_toText hpath (by simp)] at hstart
      exact absurd (htree.directory_locate_parents hstart n) hplace
  · exact ⟨front ++ above.map .name, last, by simp⟩

/-! ## Entries that are put in -/

/-- A new entry in a directory, where no directory is written over by a file. -/
theorem insert {entry : Entry} (hparent : tree.get? location = some .directory)
    (hname : isLongName name = false)
    (hentry : entry = .directory ∨ tree.get? (location ++ [name]) ≠ some .directory) :
    (tree.insert (location ++ [name]) entry).WellFormed := by
  have hne : location ++ [name] ≠ [] := by simp
  have hcases : ∀ other last,
      ((tree.insert (location ++ [name]) entry).get? (other ++ [last])).isSome →
      (other = location ∧ last = name) ∨ (tree.get? (other ++ [last])).isSome := by
    intro other last hthere
    rw [get?_insert _ _ _ _ hne] at hthere
    split at hthere
    · rename_i hsame
      exact .inl (by simpa using List.append_inj' hsame rfl)
    · exact .inr hthere
  constructor
  · intro other last hthere
    rw [get?_insert _ _ _ _ hne]
    obtain ⟨rfl, rfl⟩ | hold := hcases other last hthere
    · rw [if_neg (by simp), hparent]
    · have hdirectory := htree.parents other last hold
      split
      · rename_i hsame
        obtain rfl | hkept := hentry
        · rfl
        · rw [hsame] at hdirectory
          exact absurd hdirectory hkept
      · exact hdirectory
  · intro other last hthere
    obtain ⟨-, rfl⟩ | hold := hcases other last hthere
    · exact hname
    · exact htree.names other last hold

/-- A file that is written over. -/
theorem insert_file {content content' : Content}
    (hfile : tree.get? location = some (.file content)) :
    (tree.insert location (.file content')).WellFormed := by
  obtain rfl | ⟨above, last, rfl⟩ := List.eq_nil_or_concat location
  · cases hfile
  · rw [List.concat_eq_append] at hfile ⊢
    have hthere : (tree.get? (above ++ [last])).isSome := by
      rw [hfile]
      rfl
    apply htree.insert (htree.parents above last hthere) (htree.names above last hthere)
    rw [hfile]
    exact .inr (by simp)

/-! ## Making directories -/

/-- Directories that can all be made are there afterwards. -/
theorem makeDirectoriesFrom {names : List Text}
    (hdirectory : tree.get? location = some .directory) :
    (tree.makeDirectoriesFrom location names).2.WellFormed ∧
      ((tree.makeDirectoriesFrom location names).1 = none →
        (tree.makeDirectoriesFrom location names).2.get? (location ++ names) =
          some .directory) := by
  induction names generalizing tree location with
  | nil =>
      rw [List.append_nil]
      exact ⟨htree, fun _ => hdirectory⟩
  | cons name rest ih =>
      have hpath : location ++ name :: rest = (location ++ [name]) ++ rest := by simp
      rw [hpath, Tree.makeDirectoriesFrom]
      split
      · rename_i hthere
        exact ih htree hthere
      · exact ⟨htree, by simp⟩
      · split
        · exact ⟨htree, by simp⟩
        · rename_i hlong
          have hne : location ++ [name] ≠ [] := by simp
          have hnew := htree.insert hdirectory (Bool.eq_false_iff.2 hlong) (.inl rfl)
          apply ih hnew
          rw [get?_insert _ _ _ _ hne, if_pos rfl]

theorem makeDirectories (cwd : Location) (directory : Path) :
    (tree.makeDirectories cwd directory).2.WellFormed ∧
      ((tree.makeDirectories cwd directory).1 = none →
        (tree.makeDirectories cwd directory).2.get? (locate cwd directory) = some .directory) := by
  rw [Tree.makeDirectories]
  split
  · exact ⟨htree, by simp⟩
  · exact htree.makeDirectoriesFrom (get?_nil tree)

/-- Where a directory is there, none has to be made. -/
theorem makeDirectoriesFrom_eq {names : List Text}
    (hthere : tree.get? (location ++ names) = some .directory) :
    tree.makeDirectoriesFrom location names = (none, tree) := by
  induction names generalizing location with
  | nil => rfl
  | cons name rest ih =>
      have hpath : location ++ name :: rest = (location ++ [name]) ++ rest := by simp
      rw [hpath] at hthere
      have hnext : tree.get? (location ++ [name]) = some .directory := by
        cases rest with
        | nil => rwa [List.append_nil] at hthere
        | cons next rest => exact htree.directory_above (by rw [hthere]; rfl)
      rw [Tree.makeDirectoriesFrom, hnext]
      exact ih hthere

theorem makeDirectories_eq {cwd : Location} {directory : Path}
    (hthere : tree.get? (locate cwd directory) = some .directory) :
    (tree.makeDirectories cwd directory).2 = tree := by
  rw [Tree.makeDirectories]
  split
  · rfl
  · rw [htree.makeDirectoriesFrom_eq hthere]

end WellFormed

end Tree

end Transplant
