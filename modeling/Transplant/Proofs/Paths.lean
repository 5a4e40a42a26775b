import Transplant.Proofs.Lines
import Transplant.Tree

/-!
# Paths and the places they stand for

A path as it is read has whole segments, and the root or a `.` at its front only.  Such a path is
written and read again without loss, and normalising keeps it such a path.  Following it through a
tree, where that succeeds, ends at the place that its components alone give, and so does following
the absolute and normalised path.
-/

namespace Transplant

open Text

namespace Component

/-- A component that is written as one segment and read back from it. -/
def IsSegment : Component → Prop
  | .name text => '/' ∉ text ∧ Path.component? text = some (.name text)
  | _ => True

/-- A component that can stand below the front of a path. -/
def IsStep (component : Component) : Prop :=
  component ≠ .root ∧ component ≠ .current

variable {component : Component} {segment : Text}

theorem isStep_of_component? (hread : Path.component? segment = some component) :
    component.IsStep := by
  simp only [Path.component?] at hread
  split_ifs at hread <;> cases hread <;> simp [IsStep]

theorem isSegment_of_component? (hsegment : '/' ∉ segment)
    (hread : Path.component? segment = some component) : component.IsSegment := by
  simp only [Path.component?] at hread
  split_ifs at hread with hempty hparent
  · cases hread
    trivial
  · cases hread
    exact ⟨hsegment, by simp [Path.component?, hempty, hparent]⟩

theorem IsSegment.not_mem_text (h : component.IsSegment) (hroot : component ≠ .root) :
    '/' ∉ component.text := by
  cases component with
  | root => exact absurd rfl hroot
  | current => decide
  | parent => decide
  | name text => exact h.1

theorem IsSegment.component?_text (h : component.IsSegment) (hstep : component.IsStep) :
    Path.component? component.text = some component := by
  cases component with
  | root => exact absurd rfl hstep.1
  | current => exact absurd rfl hstep.2
  | parent => rfl
  | name text => exact h.2

end Component

namespace Path

/-- A path as it is read: the root and a `.` stand at the front only. -/
structure Spelled (path : Path) : Prop where
  segments : ∀ component ∈ path, component.IsSegment
  steps : ∀ component ∈ path.tail, component.IsStep

variable {path base rest : Path} {component : Component}

theorem spelled_nil : Spelled [] :=
  ⟨by simp, by simp⟩

theorem Spelled.dropLast (hpath : path.Spelled) : Spelled path.dropLast := by
  refine ⟨fun component hcomponent => ?_, fun component hcomponent => ?_⟩
  · exact hpath.segments component (List.dropLast_subset path hcomponent)
  · rw [List.tail_dropLast] at hcomponent
    exact hpath.steps component (List.dropLast_subset path.tail hcomponent)

/-- A path can be extended by segments that belong below its front. -/
theorem Spelled.append (hbase : base.Spelled)
    (hrest : ∀ component ∈ rest, component.IsSegment ∧ component.IsStep) :
    Spelled (base ++ rest) := by
  refine ⟨fun component hcomponent => ?_, fun component hcomponent => ?_⟩
  · rcases List.mem_append.1 hcomponent with hmem | hmem
    · exact hbase.segments component hmem
    · exact (hrest component hmem).1
  · cases base with
    | nil => exact (hrest component (List.mem_of_mem_tail hcomponent)).2
    | cons head tail =>
        rcases List.mem_append.1 hcomponent with hmem | hmem
        · exact hbase.steps component hmem
        · exact (hrest component hmem).2

/-! ## Reading and writing -/

theorem spelled_ofText (t : Text) : Spelled (ofText t) := by
  apply Spelled.append
  · split <;> exact ⟨by simp [Component.IsSegment], by simp⟩
  · intro component hcomponent
    obtain ⟨segment, hsegment, hread⟩ := List.mem_filterMap.1 hcomponent
    exact ⟨Component.isSegment_of_component? (not_mem_of_mem_pieces hsegment) hread,
      Component.isStep_of_component? hread⟩

/-- Reading the written steps of a path gives the steps. -/
theorem filterMap_component?
    (hrest : ∀ component ∈ rest, component.IsSegment ∧ component.IsStep) :
    (rest.map Component.text).filterMap component? = rest := by
  rw [List.filterMap_map]
  calc
    rest.filterMap (component? ∘ Component.text) = rest.filterMap some := by
      apply List.filterMap_congr
      intro component hcomponent
      exact (hrest component hcomponent).1.component?_text (hrest component hcomponent).2
    _ = rest := List.filterMap_some

theorem pieces_steps (hne : rest ≠ [])
    (hrest : ∀ component ∈ rest, component.IsSegment ∧ component ≠ .root) :
    pieces '/' (Text.join ['/'] (rest.map Component.text)) = rest.map Component.text := by
  apply pieces_join
  · simpa using hne
  · intro segment hsegment
    obtain ⟨component, hcomponent, rfl⟩ := List.mem_map.1 hsegment
    exact (hrest component hcomponent).1.not_mem_text (hrest component hcomponent).2

/-- What reading finds behind the root. -/
theorem ofText_root (t : Text) :
    ofText ('/' :: t) = .root :: (pieces '/' t).filterMap component? := by
  obtain ⟨piece, more, hpieces⟩ := List.exists_cons_of_ne_nil (pieces_ne_nil '/' t)
  rw [ofText, pieces_cons_sep, hpieces]
  rfl

/-- What reading finds in segments that do not start at the root. -/
theorem ofText_of_pieces {t : Text} {first : Component} (hsegment : first.IsSegment)
    (hroot : first ≠ .root) (hpieces : pieces '/' t = first.text :: rest.map Component.text)
    (hrest : ∀ component ∈ rest, component.IsSegment ∧ component.IsStep) :
    ofText t = first :: rest := by
  have hsteps := filterMap_component? hrest
  rw [ofText, hpieces]
  by_cases hcurrent : first = .current
  · subst hcurrent
    show [.current] ++ (['.'] :: rest.map Component.text).filterMap component? = _
    rw [List.filterMap_cons_none rfl, hsteps, List.singleton_append]
  · have hread := hsegment.component?_text ⟨hroot, hcurrent⟩
    simp only [List.filterMap_cons_some hread, hsteps]
    -- neither an empty segment nor a `.` is read as a component
    split
    · rename_i heq
      rw [(List.cons.inj heq).1] at hread
      simp [component?] at hread
    · rename_i heq
      rw [(List.cons.inj heq).1] at hread
      simp [component?] at hread
    · rw [List.nil_append]

/-- A path that is written and read again is the same path. -/
theorem ofText_toText (hpath : path.Spelled) : ofText path.toText = path := by
  cases path with
  | nil => rfl
  | cons head rest =>
      have hrest : ∀ component ∈ rest, component.IsSegment ∧ component.IsStep :=
        fun component hcomponent =>
          ⟨hpath.segments component (List.mem_cons_of_mem _ hcomponent),
            hpath.steps component hcomponent⟩
      have hroots : ∀ component ∈ rest, component.IsSegment ∧ component ≠ .root :=
        fun component hcomponent =>
          ⟨(hrest component hcomponent).1, (hrest component hcomponent).2.1⟩
      by_cases hroot : head = .root
      · subst hroot
        rw [toText, ofText_root]
        by_cases hempty : rest = []
        · subst hempty
          rfl
        · rw [pieces_steps hempty hroots, filterMap_component? hrest]
      · have hsegment := hpath.segments head List.mem_cons_self
        have hwritten : toText (head :: rest) =
            Text.join ['/'] ((head :: rest).map Component.text) := by
          cases head <;> first | rfl | exact absurd rfl hroot
        rw [hwritten]
        apply ofText_of_pieces hsegment hroot _ hrest
        apply pieces_steps (List.cons_ne_nil head rest)
        intro component hcomponent
        rcases List.mem_cons.1 hcomponent with rfl | hmem
        · exact ⟨hsegment, hroot⟩
        · exact hroots component hmem

/-! ## Joining and normalising -/

theorem not_mem_root (hpath : path.Spelled) (hrelative : path.isAbsolute = false) :
    .root ∉ path := by
  intro hroot
  cases path with
  | nil => cases hroot
  | cons head rest =>
      rcases List.mem_cons.1 hroot with rfl | hmem
      · simp [isAbsolute] at hrelative
      · exact (hpath.steps .root hmem).1 rfl

theorem Spelled.join (hbase : base.Spelled) (hpath : path.Spelled) :
    (Path.join base path).Spelled := by
  rw [Path.join]
  split_ifs with habsolute hempty
  · exact hpath
  · exact hpath
  · apply hbase.append
    intro component hcomponent
    obtain ⟨hmem, hcurrent⟩ := List.mem_filter.1 hcomponent
    have hroot := not_mem_root hpath (Bool.eq_false_iff.2 habsolute)
    refine ⟨hpath.segments component hmem, ?_, of_decide_eq_true hcurrent⟩
    rintro rfl
    exact hroot hmem

theorem Spelled.push (hpath : path.Spelled) (hsegment : component.IsSegment)
    (hroot : component = .root → path = []) : (path.push component).Spelled := by
  have happend (hstep : component.IsStep) : Spelled (path ++ [component]) := by
    apply hpath.append
    simpa using ⟨hsegment, hstep⟩
  cases component with
  | root =>
      rw [hroot rfl]
      exact ⟨by simp [Path.push, Component.IsSegment], by simp [Path.push]⟩
  | current => exact hpath
  | parent =>
      rw [Path.push]
      split
      · exact happend (by simp [Component.IsStep])
      · exact happend (by simp [Component.IsStep])
      · exact hpath
      · exact hpath.dropLast
  | name text => exact happend (by simp [Component.IsStep])

theorem Spelled.foldl_push (hbase : base.Spelled)
    (hrest : ∀ component ∈ rest, component.IsSegment ∧ component ≠ .root) :
    Spelled (rest.foldl Path.push base) := by
  induction rest generalizing base with
  | nil => exact hbase
  | cons component rest ih =>
      obtain ⟨⟨hsegment, hroot⟩, hrest⟩ := List.forall_mem_cons.1 hrest
      exact ih (hbase.push hsegment fun heq => absurd heq hroot) hrest

theorem Spelled.normalize (hpath : path.Spelled) : path.normalize.Spelled := by
  cases path with
  | nil => exact spelled_nil
  | cons head rest =>
      rw [Path.normalize, List.foldl_cons]
      apply Spelled.foldl_push
      · exact spelled_nil.push (hpath.segments head List.mem_cons_self) fun _ => rfl
      · intro component hcomponent
        exact ⟨hpath.segments component (List.mem_cons_of_mem _ hcomponent),
          (hpath.steps component hcomponent).1⟩

def ofLocation (location : Location) : Path :=
  .root :: location.map .name

/-- A path made absolute in a working directory, and normalised. -/
def absolute (cwd : Location) (path : Path) : Path :=
  (Path.join (ofLocation cwd) path).normalize

theorem ofLocation_injective : Function.Injective ofLocation := by
  intro left right heq
  apply List.map_injective_iff.2 _ (List.cons.inj heq).2
  intro name other hname
  exact Component.name.inj hname

end Path

namespace Tree

/-! ## Places -/

@[simp]
theorem locate_nil (cwd : Location) : locate cwd [] = cwd := rfl

@[simp]
theorem locate_root (cwd : Location) (path : Path) :
    locate cwd (.root :: path) = locate [] path := rfl

@[simp]
theorem locate_current (cwd : Location) (path : Path) :
    locate cwd (.current :: path) = locate cwd path := rfl

@[simp]
theorem locate_parent (cwd : Location) (path : Path) :
    locate cwd (.parent :: path) = locate cwd.dropLast path := rfl

@[simp]
theorem locate_name (cwd : Location) (text : Text) (path : Path) :
    locate cwd (.name text :: path) = locate (cwd ++ [text]) path := rfl

theorem locate_names (cwd : Location) (names : List Text) :
    locate cwd (names.map .name) = cwd ++ names := by
  induction names generalizing cwd with
  | nil => simp
  | cons name names ih => simp [ih]

theorem locate_filter_current (cwd : Location) (path : Path) :
    locate cwd (path.filter (· ≠ .current)) = locate cwd path := by
  induction path generalizing cwd with
  | nil => rfl
  | cons component path ih =>
      simp only [ne_eq, decide_not] at ih
      cases component <;> simp [ih]

end Tree

namespace Path

theorem push_parent_ofLocation (cwd : Location) :
    push (ofLocation cwd) .parent = ofLocation cwd.dropLast := by
  rcases List.eq_nil_or_concat cwd with rfl | ⟨above, last, rfl⟩
  · rfl
  · have hpath : ofLocation (above ++ [last]) = ofLocation above ++ [.name last] := by
      simp [ofLocation]
    rw [List.concat_eq_append, hpath]
    simp [push]

/-- Normalising the steps of a path behind a location walks from the location. -/
theorem foldl_push_ofLocation (cwd : Location) {rest : Path} (hrest : .root ∉ rest) :
    rest.foldl push (ofLocation cwd) = ofLocation (Tree.locate cwd rest) := by
  induction rest generalizing cwd with
  | nil => rfl
  | cons component rest ih =>
      rw [List.mem_cons, not_or] at hrest
      obtain ⟨hroot, hrest⟩ := hrest
      rw [List.foldl_cons]
      cases component with
      | root => exact absurd rfl hroot
      | current => exact ih cwd hrest
      | parent => rw [push_parent_ofLocation, ih _ hrest, Tree.locate_parent]
      | name text =>
          have hpush : push (ofLocation cwd) (.name text) = ofLocation (cwd ++ [text]) := by
            simp [push, ofLocation]
          rw [hpush, ih _ hrest, Tree.locate_name]

theorem normalize_root {rest : Path} (hrest : .root ∉ rest) :
    normalize (.root :: rest) = ofLocation (Tree.locate [] rest) :=
  foldl_push_ofLocation [] hrest

/-- Made absolute and normalised, a path is that of the place it stands for. -/
theorem absolute_eq (cwd : Location) {path : Path} (hpath : path.Spelled) :
    absolute cwd path = ofLocation (Tree.locate cwd path) := by
  rw [absolute, Path.join]
  split_ifs with habsolute hempty
  · cases path with
    | nil => simp [isAbsolute] at habsolute
    | cons head rest =>
        obtain rfl : head = .root := by simpa [isAbsolute] using habsolute
        apply normalize_root
        intro hroot
        exact (hpath.steps .root hroot).1 rfl
  · simp [ofLocation] at hempty
  · have hcwd : (ofLocation cwd).foldl push [] = ofLocation cwd := by
      have hnames : .root ∉ cwd.map Component.name := by simp
      calc
        (ofLocation cwd).foldl push [] = ofLocation (Tree.locate [] (cwd.map .name)) :=
          normalize_root hnames
        _ = ofLocation cwd := by rw [Tree.locate_names, List.nil_append]
    have hroot : .root ∉ path.filter (· ≠ .current) := fun hmem =>
      not_mem_root hpath (Bool.eq_false_iff.2 habsolute) (List.mem_filter.1 hmem).1
    rw [normalize, List.foldl_append, hcwd, foldl_push_ofLocation cwd hroot,
      Tree.locate_filter_current]

/-- Paths are equal once absolute and normalised when they stand for one place. -/
theorem absolute_eq_iff (cwd : Location) {path other : Path} (hpath : path.Spelled)
    (hother : other.Spelled) :
    absolute cwd path = absolute cwd other ↔ Tree.locate cwd path = Tree.locate cwd other := by
  rw [absolute_eq cwd hpath, absolute_eq cwd hother, ofLocation_injective.eq_iff]

end Path

namespace Tree

/-! ## Following a path -/

variable {tree : Tree} {cwd location place : Location}

theorem locate_of_walk {segments : List Text} (hwalk : tree.walk location segments = .ok place) :
    place = locate location (segments.filterMap Path.component?) := by
  induction segments generalizing location with
  | nil =>
      cases hwalk
      rfl
  | cons segment rest ih =>
      rw [walk] at hwalk
      split at hwalk
      · rw [List.filterMap_cons, Path.component?]
        split_ifs at hwalk with hempty hparent hlong hthere
        · simpa [hempty] using ih hwalk
        · simpa [hempty, hparent] using ih hwalk
        · simpa [hempty, hparent] using ih hwalk
      · cases hwalk
      · cases hwalk

/-- The `.` in front of a path that does not start at the root changes nothing. -/
theorem locate_ofText {path : Text} (hrelative : ∀ rest, path ≠ '/' :: rest) :
    locate cwd (.ofText path) = locate cwd ((pieces '/' path).filterMap Path.component?) := by
  rw [Path.ofText]
  split
  · rename_i second rest hpieces
    have hpath := join_pieces '/' path
    rw [hpieces, join_cons_cons, List.nil_append, List.singleton_append] at hpath
    exact absurd hpath.symm (hrelative _)
  · rw [List.singleton_append, locate_current]
  · rw [List.nil_append]

/-- A path that can be followed leads to the place that it stands for. -/
theorem locate_of_resolve {path : Text} (hresolve : tree.resolve cwd path = .ok place) :
    place = locate cwd (.ofText path) := by
  unfold resolve at hresolve
  split at hresolve
  · cases hresolve
  · rw [pieces_cons_sep] at hresolve
    rw [Path.ofText_root, locate_root]
    exact locate_of_walk hresolve
  · rename_i hrelative _
    rw [locate_ofText fun rest hpath => hrelative rest hpath]
    exact locate_of_walk hresolve

/-- Reading a path gives the text at the place that it leads to. -/
theorem read_eq_ok_iff {path t : Text} :
    tree.read cwd path = .ok t ↔
      ∃ place, tree.resolve cwd path = .ok place ∧ tree.get? place = some (.file (.text t)) := by
  rw [read, readContent]
  cases hresolve : tree.resolve cwd path with
  | error fault => simp
  | ok place =>
      cases hentry : tree.get? place with
      | none => simp [hentry]
      | some entry =>
          cases entry with
          | directory => simp [hentry]
          | file content => cases content <;> simp [hentry]

/-- Whatever leads to the place of a readable file reads the file. -/
theorem read_of_resolve {path t : Text} (hresolve : tree.resolve cwd path = .ok place)
    (hentry : tree.get? place = some (.file (.text t))) : tree.read cwd path = .ok t :=
  read_eq_ok_iff.2 ⟨place, hresolve, hentry⟩

/-! ## Making directories -/

/-- A tree that keeps every entry of another one and adds directories only. -/
def GrownFrom (tree grown : Tree) : Prop :=
  ∀ location, grown.get? location = tree.get? location ∨
    tree.get? location = none ∧ grown.get? location = some .directory

/-- Trees with the same files.  Their directories can differ. -/
def SameFiles (tree other : Tree) : Prop :=
  ∀ location content, tree.get? location = some (.file content) ↔
    other.get? location = some (.file content)

theorem SameFiles.trans {middle other : Tree} (hfirst : tree.SameFiles middle)
    (hsecond : middle.SameFiles other) : tree.SameFiles other :=
  fun location content => (hfirst location content).trans (hsecond location content)

theorem SameFiles.symm {other : Tree} (hsame : tree.SameFiles other) : other.SameFiles tree :=
  fun location content => (hsame location content).symm

theorem GrownFrom.sameFiles {grown : Tree} (hgrown : tree.GrownFrom grown) :
    tree.SameFiles grown := by
  intro location content
  obtain hkept | ⟨hnone, hadded⟩ := hgrown location
  · rw [hkept]
  · rw [hnone, hadded]
    simp

/-- A tree that is grown from another one by directories on the way to a location. -/
def GrownTowards (tree grown : Tree) (goal : Location) : Prop :=
  ∀ location, grown.get? location = tree.get? location ∨
    tree.get? location = none ∧ grown.get? location = some .directory ∧ location <+: goal

section GrownTowards

variable {goal : Location}

theorem GrownTowards.refl (tree : Tree) (goal : Location) : tree.GrownTowards tree goal :=
  fun _ => .inl rfl

theorem GrownTowards.trans {middle grown : Tree} (hfirst : tree.GrownTowards middle goal)
    (hsecond : middle.GrownTowards grown goal) : tree.GrownTowards grown goal := by
  intro location
  obtain hkept | ⟨hnone, hadded, hway⟩ := hfirst location
  · rw [← hkept]
    exact hsecond location
  · obtain hsame | ⟨habsent, -⟩ := hsecond location
    · exact .inr ⟨hnone, hsame.trans hadded, hway⟩
    · rw [hadded] at habsent
      cases habsent

theorem GrownTowards.grownFrom {grown : Tree} (hgrown : tree.GrownTowards grown goal) :
    tree.GrownFrom grown :=
  fun location => (hgrown location).imp id fun ⟨hnone, hadded, _⟩ => ⟨hnone, hadded⟩

theorem grownTowards_insert (hne : location ≠ []) (hnone : tree.get? location = none)
    (hway : location <+: goal) :
    tree.GrownTowards (tree.insert location .directory) goal := by
  intro other
  rw [get?_insert tree location other .directory hne]
  split_ifs with hother
  · subst hother
    exact .inr ⟨hnone, rfl, hway⟩
  · exact .inl rfl

end GrownTowards

/-- Whether or not all directories can be made, nothing but directories on the way is added. -/
theorem grownTowards_makeDirectoriesFrom (tree : Tree) (location : Location) (names : List Text) :
    tree.GrownTowards (tree.makeDirectoriesFrom location names).2 (location ++ names) := by
  induction names generalizing tree location with
  | nil => exact .refl tree _
  | cons name rest ih =>
      have hpath : location ++ name :: rest = (location ++ [name]) ++ rest := by simp
      rw [hpath, makeDirectoriesFrom]
      split
      · exact ih tree (location ++ [name])
      · exact .refl tree _
      · rename_i hnone
        split
        · exact .refl tree _
        · exact (grownTowards_insert (by simp) hnone (List.prefix_append ..)).trans (ih _ _)

theorem grownTowards_makeDirectories (tree : Tree) (cwd : Location) (directory : Path) :
    tree.GrownTowards (tree.makeDirectories cwd directory).2 (locate cwd directory) := by
  rw [makeDirectories]
  split
  · exact .refl tree _
  · exact grownTowards_makeDirectoriesFrom tree [] _

end Tree

end Transplant
