import Transplant.Proofs.ModulePaths
import Transplant.Proofs.Paths

/-!
# Following a module path

A module path is followed from the directory of the importing file: `.` and `..` are resolved by
looking at the segments only.  The module path from one file to another leads to the other file,
without its extension, except in one place.  The shared segments are counted over the whole paths,
so a directory that is called like the importing file without its extension counts as shared, and
the module path leads past it.
-/

namespace Transplant

namespace Path

/-! ## Paths of names -/

def ofNames (rooted : Bool) (names : List Text) : Path :=
  (if rooted then [.root] else []) ++ names.map .name

/-- A number of steps up, or the mark of the same directory for none. -/
def stepsUp (steps : Nat) : Path :=
  if steps = 0 then [.current] else List.replicate steps .parent

def upAndDown (steps : Nat) (names : List Text) : Path :=
  stepsUp steps ++ names.map .name

/-- Texts that are read as names when they stand between the slashes of a path. -/
def AreNames (names : List Text) : Prop :=
  ∀ name ∈ names, (Component.name name).IsSegment

variable {names folder : List Text} {steps : Nat}

theorem AreNames.ne_nil (hnames : AreNames names) : ∀ name ∈ names, name ≠ [] ∧ '/' ∉ name := by
  intro name hname
  refine ⟨?_, (hnames name hname).1⟩
  rintro rfl
  exact absurd (hnames [] hname).2 (by decide)

theorem AreNames.isStep (hnames : AreNames names) :
    ∀ component ∈ names.map Component.name, component.IsSegment ∧ component.IsStep := by
  intro component hcomponent
  obtain ⟨name, hname, rfl⟩ := List.mem_map.1 hcomponent
  exact ⟨hnames name hname, by simp [Component.IsStep]⟩

theorem AreNames.spelled_ofNames (hnames : AreNames names) (rooted : Bool) :
    (ofNames rooted names).Spelled := by
  apply Spelled.append _ hnames.isStep
  cases rooted <;> exact ⟨by simp [Component.IsSegment], by simp⟩

theorem AreNames.spelled_upAndDown (hnames : AreNames names) (steps : Nat) :
    (upAndDown steps names).Spelled := by
  apply Spelled.append _ hnames.isStep
  rw [stepsUp]
  split
  · exact ⟨by simp [Component.IsSegment], by simp⟩
  · have hparent : ∀ component ∈ List.replicate steps Component.parent, component = .parent :=
      fun component hcomponent => List.eq_of_mem_replicate hcomponent
    refine ⟨fun component hcomponent => ?_, fun component hcomponent => ?_⟩
    · rw [hparent component hcomponent]
      trivial
    · rw [hparent component (List.mem_of_mem_tail hcomponent)]
      simp [Component.IsStep]

/-- Appending names to a path pushes them one by one. -/
theorem foldl_push_names (base : Path) (names : List Text) :
    (names.map Component.name).foldl push base = base ++ names.map Component.name := by
  induction names generalizing base with
  | nil => simp
  | cons name names ih =>
      rw [List.map_cons, List.foldl_cons, ih]
      simp [push]

theorem push_parent_ofNames (rooted : Bool) (folder : List Text) (last : Text) :
    push (ofNames rooted (folder ++ [last])) .parent = ofNames rooted folder := by
  rw [ofNames, List.map_append, ← List.append_assoc]
  simp [push, ofNames]

/-- Steps up take back the last names. -/
theorem foldl_push_parents (rooted : Bool) (hsteps : steps ≤ folder.length) :
    (List.replicate steps Component.parent).foldl push (ofNames rooted folder) =
      ofNames rooted (folder.take (folder.length - steps)) := by
  induction steps generalizing folder with
  | zero => simp
  | succ steps ih =>
      obtain hnil | ⟨above, last, hfolder⟩ := List.eq_nil_or_concat folder
      · simp [hnil] at hsteps
      · rw [hfolder, List.concat_eq_append, List.length_append, List.length_singleton] at hsteps
        rw [hfolder, List.concat_eq_append, List.replicate_succ, List.foldl_cons,
          push_parent_ofNames, ih (by omega), List.length_append, List.length_singleton,
          Nat.add_sub_add_right, List.take_append_of_le_length (Nat.sub_le ..)]

theorem normalize_ofNames (rooted : Bool) (names : List Text) :
    (ofNames rooted names).normalize = ofNames rooted names := by
  rw [normalize, ofNames, List.foldl_append, foldl_push_names]
  cases rooted <;> rfl

/-- From a directory, steps up and names below lead to the names below what is left of it. -/
theorem foldl_push_upAndDown (rooted : Bool) (hsteps : steps ≤ folder.length)
    (names : List Text) :
    (upAndDown steps names).foldl push (ofNames rooted folder) =
      ofNames rooted (folder.take (folder.length - steps) ++ names) := by
  have hup : (stepsUp steps).foldl push (ofNames rooted folder) =
      ofNames rooted (folder.take (folder.length - steps)) := by
    rw [stepsUp]
    split
    · rename_i hzero
      rw [hzero, Nat.sub_zero, List.take_length]
      rfl
    · exact foldl_push_parents rooted hsteps
  rw [upAndDown, List.foldl_append, hup, foldl_push_names, ofNames, ofNames, List.map_append,
    List.append_assoc]

theorem isAbsolute_upAndDown (steps : Nat) (names : List Text) :
    (upAndDown steps names).isAbsolute = false := by
  cases steps <;> rfl

/-- The mark of the same directory leads nowhere. -/
theorem foldl_push_filter (base path : Path) :
    (path.filter (· ≠ .current)).foldl push base = path.foldl push base := by
  induction path generalizing base with
  | nil => rfl
  | cons component path ih =>
      by_cases hcurrent : component = .current
      · subst hcurrent
        rw [List.filter_cons_of_neg (by simp), ih]
        rfl
      · rw [List.filter_cons_of_pos (by simpa using hcurrent), List.foldl_cons, List.foldl_cons, ih]

theorem normalize_join_upAndDown (rooted : Bool) (hsteps : steps ≤ folder.length)
    (names : List Text) :
    (Path.join (ofNames rooted folder) (upAndDown steps names)).normalize =
      ofNames rooted (folder.take (folder.length - steps) ++ names) := by
  rw [Path.join, isAbsolute_upAndDown, if_neg Bool.false_ne_true, ← foldl_push_upAndDown rooted
    hsteps]
  split
  · rename_i hempty
    rw [normalize, List.isEmpty_iff.1 hempty]
  · rw [normalize, List.foldl_append, ← normalize, normalize_ofNames, foldl_push_filter]

/-! ## Paths of names as texts -/

def frontSegments (rooted : Bool) : List Text :=
  if rooted then [[]] else []

theorem map_text_name (names : List Text) :
    (names.map Component.name).map Component.text = names := by
  simp [Function.comp_def, Component.text]

theorem toText_ofNames (rooted : Bool) (hne : names ≠ []) :
    (ofNames rooted names).toText = Text.join ['/'] (frontSegments rooted ++ names) := by
  obtain ⟨name, rest, rfl⟩ := List.exists_cons_of_ne_nil hne
  have htext := map_text_name (name :: rest)
  cases rooted with
  | true =>
      show '/' :: Text.join ['/'] (((name :: rest).map Component.name).map Component.text) = _
      rw [htext]
      simp [frontSegments]
  | false =>
      show Text.join ['/'] (((name :: rest).map Component.name).map Component.text) = _
      rw [htext]
      rfl

theorem toText_upAndDown (steps : Nat) (names : List Text) :
    (upAndDown steps names).toText =
      if names = [] then ModulePath.climb steps
      else ModulePath.climb steps ++ '/' :: Text.join ['/'] names := by
  have hwritten : (upAndDown steps names).toText =
      Text.join ['/'] ((upAndDown steps names).map Component.text) := by
    cases steps <;> rfl
  have hclimb : ModulePath.climb steps =
      Text.join ['/'] ((stepsUp steps).map Component.text) := by
    rw [ModulePath.climb, stepsUp]
    split
    · rfl
    · rw [List.map_replicate]
      rfl
  have hup : (stepsUp steps).map Component.text ≠ [] := by
    cases steps <;> simp [stepsUp]
  rw [hwritten, upAndDown, List.map_append, map_text_name, hclimb]
  split
  · rename_i hnil
    rw [hnil, List.append_nil]
  · rename_i hne
    rw [Text.join_append hup hne, List.append_assoc]
    rfl

end Path

namespace ModulePath

/-! ## File paths -/

def slashed (path : Text) : Text :=
  path.replaceChar '\\' '/'

def isRooted (path : Text) : Bool :=
  (slashed path).head? = some '/'

/-- The segments of a path below the root or below the working directory. -/
def names (path : Text) : List Text :=
  ((slashed path).pieces '/').drop (if isRooted path then 1 else 0)

def IsName (segment : Text) : Prop :=
  segment ≠ [] ∧ segment ≠ ['.'] ∧ segment ≠ ['.', '.']

instance (segment : Text) : Decidable (IsName segment) :=
  inferInstanceAs (Decidable (_ ∧ _))

def IsFilePath (path : Text) : Prop :=
  ∀ segment ∈ names path, IsName segment

instance (path : Text) : Decidable (IsFilePath path) :=
  List.decidableBAll _ (names path)

/-- A path whose last segment is still a name without its extension.  The file `..ts` has none. -/
def NamesModule (path : Text) : Prop :=
  ∀ segment ∈ (segments path).getLast?, IsName segment

instance (path : Text) : Decidable (NamesModule path) :=
  inferInstanceAs (Decidable (∀ segment ∈ (segments path).getLast?, IsName segment))

def withoutExtension (path : Text) : Text :=
  Text.join ['/'] (segments path)

/-- What a module path leads to from the directory of a file. -/
def follow (source modulePath : Text) : Text :=
  (Path.join (Path.ofText (slashed source)).dropLast (Path.ofText modulePath)).normalize.toText

theorem pieces_slashed (path : Text) :
    (slashed path).pieces '/' = Path.frontSegments (isRooted path) ++ names path := by
  rw [names, isRooted]
  cases slashed path with
  | nil => rfl
  | cons c rest =>
      by_cases hc : c = '/'
      · subst hc
        simp [Text.pieces_cons_sep, Path.frontSegments]
      · simp [hc, Path.frontSegments]

/-- A path has a last segment, which names the file. -/
theorem exists_names (path : Text) : ∃ folder file, names path = folder ++ [file] := by
  have hne : names path ≠ [] := by
    rw [names, isRooted]
    cases slashed path with
    | nil => simp [Text.pieces]
    | cons c rest =>
        by_cases hc : c = '/'
        · subst hc
          simpa [Text.pieces_cons_sep] using Text.pieces_ne_nil '/' rest
        · simpa [hc] using Text.pieces_ne_nil '/' (c :: rest)
  obtain hnil | ⟨folder, file, hnames⟩ := List.eq_nil_or_concat (names path)
  · exact absurd hnil hne
  · exact ⟨folder, file, by rw [hnames, List.concat_eq_append]⟩

theorem isSegment_of_isName {segment : Text} (hname : IsName segment) (hslash : '/' ∉ segment) :
    (Component.name segment).IsSegment := by
  refine ⟨hslash, ?_⟩
  rw [Path.component?, if_neg (not_or.2 ⟨hname.1, hname.2.1⟩), if_neg hname.2.2]

section File

variable {path file : Text} {folder : List Text}

theorem IsFilePath.areNames (hpath : IsFilePath path) : Path.AreNames (names path) :=
  fun segment hsegment => isSegment_of_isName (hpath segment hsegment)
    (Text.not_mem_of_mem_pieces (List.mem_of_mem_drop hsegment))

theorem segments_eq (hnames : names path = folder ++ [file]) :
    segments path = Path.frontSegments (isRooted path) ++ (folder ++ [stem file]) := by
  have hpieces : (path.replaceChar '\\' '/').pieces '/' =
      (Path.frontSegments (isRooted path) ++ folder) ++ [file] := by
    rw [List.append_assoc, ← hnames]
    exact pieces_slashed path
  rw [segments, hpieces, List.dropLast_concat, List.getLast?_concat, ← List.append_assoc]
  rfl

/-- The directory of a file. -/
theorem dropLast_ofText (hpath : IsFilePath path) (hnames : names path = folder ++ [file]) :
    (Path.ofText (slashed path)).dropLast = Path.ofNames (isRooted path) folder := by
  have htext : slashed path = (Path.ofNames (isRooted path) (folder ++ [file])).toText := by
    rw [Path.toText_ofNames _ (by simp), ← hnames, ← pieces_slashed, Text.join_pieces]
  have hspelled : (Path.ofNames (isRooted path) (folder ++ [file])).Spelled := by
    rw [← hnames]
    exact hpath.areNames.spelled_ofNames _
  rw [htext, Path.ofText_toText hspelled, Path.ofNames, List.map_append, ← List.append_assoc]
  exact List.dropLast_concat

end File

/-! ## Module paths -/

theorem shared_append (common left right : List Text) :
    shared (common ++ left) (common ++ right) = common.length + shared left right := by
  induction common with
  | nil => simp
  | cons segment common ih =>
      simp only [List.cons_append, shared, if_true, ih, List.length_cons]
      omega

/-- Two paths part behind the segments that they share. -/
theorem exists_shared (left right : List Text) :
    ∃ common left' right', left = common ++ left' ∧ right = common ++ right' ∧
      shared left right = common.length := by
  induction left generalizing right with
  | nil => exact ⟨[], [], right, rfl, rfl, by simp [shared]⟩
  | cons first left ih =>
      cases right with
      | nil => exact ⟨[], first :: left, [], rfl, rfl, by simp [shared]⟩
      | cons second right =>
          by_cases hsame : first = second
          · subst hsame
            obtain ⟨common, left', right', hleft, hright, hcount⟩ := ih right
            exact ⟨first :: common, left', right', by simp [hleft], by simp [hright],
              by simp [shared, hcount]⟩
          · exact ⟨[], first :: left, second :: right, rfl, rfl, by simp [shared, hsame]⟩

theorem shared_eq_length {left right : List Text} (hfront : left <+: right) :
    shared left right = left.length := by
  obtain ⟨rest, rfl⟩ := hfront
  have happend := shared_append left [] rest
  rw [List.append_nil] at happend
  rw [happend]
  simp [shared]

/-- Paths of names are told apart by their texts. -/
theorem names_eq_of_join {rooted : Bool} {left right : List Text} (hleft : Path.AreNames left)
    (hright : Path.AreNames right)
    (hjoin : Text.join ['/'] (Path.frontSegments rooted ++ left) =
      Text.join ['/'] (Path.frontSegments rooted ++ right)) : left = right := by
  refine (Text.join_append_inj ?_ hleft.ne_nil hright.ne_nil).1 hjoin
  cases rooted <;> simp [Path.frontSegments]

section Relative

variable {source target sourceFile targetFile : Text} {sourceFolder targetFolder : List Text}

/-- The module path between two files: the name of the file in its own directory, or else the steps
up and down from where the paths part. -/
theorem relative_eq (hrooted : isRooted source = isRooted target)
    (hsource : names source = sourceFolder ++ [sourceFile])
    (htarget : names target = targetFolder ++ [targetFile])
    (hfolder : Path.AreNames sourceFolder)
    (hgoal : Path.AreNames (targetFolder ++ [stem targetFile])) :
    relative source target =
      if sourceFolder = targetFolder then (Path.upAndDown 0 [stem targetFile]).toText
      else
        let common := shared (sourceFolder ++ [stem sourceFile]) (targetFolder ++ [stem targetFile])
        (Path.upAndDown (sourceFolder.length - common)
          ((targetFolder ++ [stem targetFile]).drop common)).toText := by
  have hdirectory : ∀ (rooted : Bool) (folder : List Text) (file : Text),
      directory (Path.frontSegments rooted ++ (folder ++ [file])) =
        Text.join ['/'] (Path.frontSegments rooted ++ folder) := by
    intro rooted folder file
    rw [directory, ← List.append_assoc, List.dropLast_concat]
  have hlast : (Path.frontSegments (isRooted target) ++
      (targetFolder ++ [stem targetFile])).getLast?.getD [] = stem targetFile := by
    rw [← List.append_assoc, List.getLast?_concat, Option.getD_some]
  rw [relative, segments_eq hsource, segments_eq htarget, hrooted, hdirectory, hdirectory]
  by_cases hsame : sourceFolder = targetFolder
  · rw [if_pos (by rw [hsame]), if_pos hsame, hlast, Path.toText_upAndDown, if_neg (by simp),
      Text.join_singleton]
    rfl
  · have hother : Text.join ['/'] (Path.frontSegments (isRooted target) ++ sourceFolder) ≠
        Text.join ['/'] (Path.frontSegments (isRooted target) ++ targetFolder) := by
      intro hjoin
      have htargetFolder : Path.AreNames targetFolder :=
        fun name hname => hgoal name (List.mem_append_left _ hname)
      exact hsame (names_eq_of_join hfolder htargetFolder hjoin)
    rw [if_neg hother, if_neg hsame]
    simp only [shared_append, List.drop_length_add_append, List.length_append,
      List.length_singleton, Path.toText_upAndDown]
    generalize shared (sourceFolder ++ [stem sourceFile]) (targetFolder ++ [stem targetFile]) =
      common
    generalize targetFolder ++ [stem targetFile] = goal at hgoal
    have hsteps : (Path.frontSegments (isRooted target)).length + (sourceFolder.length + 1) -
        ((Path.frontSegments (isRooted target)).length + common) - 1 =
          sourceFolder.length - common := by
      omega
    have hdown : (Text.join ['/'] (goal.drop common)).isEmpty ↔ goal.drop common = [] := by
      rw [List.isEmpty_iff]
      constructor
      · have hdrop : Path.AreNames (goal.drop common) :=
          fun name hname => hgoal name (List.mem_of_mem_drop hname)
        exact Text.eq_nil_of_join hdrop.ne_nil
      · intro hnil
        rw [hnil, Text.join_nil]
    rw [hsteps]
    exact if_congr hdown rfl rfl

/-- Steps up and down, followed from the directory of a file. -/
theorem follow_upAndDown (hsource : IsFilePath source)
    (hnames : names source = sourceFolder ++ [sourceFile]) {steps : Nat} {down : List Text}
    (hsteps : steps ≤ sourceFolder.length) (hdown : Path.AreNames down)
    (hne : sourceFolder.take (sourceFolder.length - steps) ++ down ≠ []) :
    follow source (Path.upAndDown steps down).toText =
      Text.join ['/'] (Path.frontSegments (isRooted source) ++
        (sourceFolder.take (sourceFolder.length - steps) ++ down)) := by
  rw [follow, dropLast_ofText hsource hnames, Path.ofText_toText (hdown.spelled_upAndDown steps),
    Path.normalize_join_upAndDown _ hsteps, Path.toText_ofNames _ hne]

theorem areNames_folder {path file : Text} {folder : List Text} (hpath : IsFilePath path)
    (hnames : names path = folder ++ [file]) : Path.AreNames folder := by
  intro name hname
  apply hpath.areNames
  rw [hnames]
  exact List.mem_append_left _ hname

theorem areNames_goal {path file : Text} {folder : List Text} (hpath : IsFilePath path)
    (hnames : names path = folder ++ [file]) (hstem : IsName (stem file)) :
    Path.AreNames (folder ++ [stem file]) := by
  have hslash : '/' ∉ file :=
    Text.not_mem_of_mem_pieces (List.mem_of_mem_drop (by rw [← names, hnames]; simp))
  intro name hname
  obtain hfolder | hfile := List.mem_append.1 hname
  · exact areNames_folder hpath hnames name hfolder
  · rw [List.mem_singleton.1 hfile]
    exact isSegment_of_isName hstem fun hmem => hslash (mem_stem hmem)

/-- Where the module path leads, by the names of the two paths.  The paths part either inside the
directories, or behind the whole path of the importing file. -/
theorem follow_relative_names (hsource : IsFilePath source)
    (hrooted : isRooted source = isRooted target)
    (hsourceNames : names source = sourceFolder ++ [sourceFile])
    (htargetNames : names target = targetFolder ++ [targetFile])
    (hgoal : Path.AreNames (targetFolder ++ [stem targetFile])) :
    follow source (relative source target) =
      Text.join ['/'] (Path.frontSegments (isRooted source) ++
        if sourceFolder ++ [stem sourceFile] <+: targetFolder then
          sourceFolder ++
            (targetFolder ++ [stem targetFile]).drop (sourceFolder ++ [stem sourceFile]).length
        else targetFolder ++ [stem targetFile]) := by
  have hfolder := areNames_folder hsource hsourceNames
  rw [relative_eq hrooted hsourceNames htargetNames hfolder hgoal]
  by_cases hsame : sourceFolder = targetFolder
  · have hlonger : ¬ sourceFolder ++ [stem sourceFile] <+: targetFolder := by
      intro hfront
      have hlength := hfront.length_le
      rw [hsame, List.length_append, List.length_singleton] at hlength
      omega
    have hfile : Path.AreNames [stem targetFile] :=
      fun name hname => hgoal name (List.mem_append_right _ hname)
    rw [if_pos hsame, if_neg hlonger, follow_upAndDown hsource hsourceNames (Nat.zero_le _) hfile
      (by simp), Nat.sub_zero, List.take_length, hsame]
  · obtain ⟨common, rest, down, hstart, hend, hcount⟩ :=
      exists_shared (sourceFolder ++ [stem sourceFile]) (targetFolder ++ [stem targetFile])
    have hdown : Path.AreNames down :=
      fun name hname => hgoal name (by rw [hend]; exact List.mem_append_right _ hname)
    simp only [if_neg hsame, hcount]
    rw [hend, List.drop_left]
    obtain rfl | ⟨between, last, rfl⟩ := List.eq_nil_or_concat rest
    · -- The whole path of the importing file is shared.
      rw [List.append_nil] at hstart
      have hdownNe : down ≠ [] := by
        rintro rfl
        rw [List.append_nil, ← hstart] at hend
        exact hsame (List.append_inj_left' hend rfl).symm
      have hfront : sourceFolder ++ [stem sourceFile] <+: targetFolder := by
        rw [hstart]
        obtain hwhole | hfront := List.prefix_concat_iff.1 ⟨down, hend.symm⟩
        · rw [hwhole, List.self_eq_append_right] at hend
          exact absurd hend hdownNe
        · exact hfront
      have hlength : sourceFolder.length - common.length = 0 := by
        rw [← hstart, List.length_append, List.length_singleton]
        omega
      rw [if_pos hfront, hlength, follow_upAndDown hsource hsourceNames (Nat.zero_le _) hdown
        (by simp [hdownNe]), Nat.sub_zero, List.take_length, hstart, List.drop_left]
    · -- They part at a directory, or at the importing file itself.
      rw [List.concat_eq_append, ← List.append_assoc] at hstart
      have hbetween : sourceFolder = common ++ between := List.append_inj_left' hstart rfl
      have hlonger : ¬ sourceFolder ++ [stem sourceFile] <+: targetFolder := by
        intro hfront
        rw [shared_eq_length (hfront.trans (List.prefix_append _ _)), hbetween] at hcount
        simp only [List.length_append, List.length_singleton] at hcount
        omega
      have hleft : sourceFolder.take (sourceFolder.length - between.length) = common := by
        rw [hbetween, List.length_append, Nat.add_sub_cancel, List.take_left]
      have hsteps : sourceFolder.length - common.length = between.length := by
        rw [hbetween, List.length_append, Nat.add_sub_cancel_left]
      have hgoalNe : common ++ down ≠ [] := by
        rw [← hend]
        simp
      rw [if_neg hlonger, hsteps, follow_upAndDown hsource hsourceNames
        (by rw [hbetween, List.length_append]; omega) hdown (by rwa [hleft]), hleft]

/-- The module path leads to the other file, unless the other file lies below a directory that is
called like the importing file without its extension. -/
theorem follow_relative_iff (hsource : IsFilePath source) (htarget : IsFilePath target)
    (hrooted : isRooted source = isRooted target) (hmodule : NamesModule target) :
    follow source (relative source target) = withoutExtension target ↔
      ¬ segments source <+: (segments target).dropLast := by
  obtain ⟨sourceFolder, sourceFile, hsourceNames⟩ := exists_names source
  obtain ⟨targetFolder, targetFile, htargetNames⟩ := exists_names target
  have hstem : IsName (stem targetFile) := by
    apply hmodule
    rw [segments_eq htargetNames, ← List.append_assoc, List.getLast?_concat]
    rfl
  have hgoal := areNames_goal htarget htargetNames hstem
  have hparent : (segments target).dropLast =
      Path.frontSegments (isRooted target) ++ targetFolder := by
    rw [segments_eq htargetNames, ← List.append_assoc, List.dropLast_concat]
  rw [follow_relative_names hsource hrooted hsourceNames htargetNames hgoal, hparent,
    withoutExtension, segments_eq htargetNames, segments_eq hsourceNames, hrooted,
    List.prefix_append_right_inj]
  split
  · rename_i hbelow
    refine iff_of_false (fun hjoin => ?_) (not_not_intro hbelow)
    -- The module path leads to a path that is one segment shorter.
    have hfolder := areNames_folder hsource hsourceNames
    have hled := names_eq_of_join (List.forall_mem_append.2 ⟨hfolder, fun name hname =>
      hgoal name (List.mem_of_mem_drop hname)⟩) hgoal hjoin
    have hlength := congrArg List.length hled
    have hlonger := hbelow.length_le
    simp only [List.length_append, List.length_drop, List.length_singleton] at hlength hlonger
    omega
  · rename_i hbeside
    exact iff_of_true rfl hbeside

end Relative

end ModulePath

open ModulePath

/-- Both module paths between two files lead back to the files, each unless its file lies below a
directory that is called like the importing file without its extension. -/
theorem ModulePaths.follow_ofFiles_iff (source target : Text) (hsource : IsFilePath source)
    (htarget : IsFilePath target) (hrooted : isRooted source = isRooted target)
    (hsourceModule : NamesModule source) (htargetModule : NamesModule target) :
    (follow source (ofFiles source target).sourceToTarget = withoutExtension target ↔
      ¬ segments source <+: (segments target).dropLast) ∧
    (follow target (ofFiles source target).targetToSource = withoutExtension source ↔
      ¬ segments target <+: (segments source).dropLast) :=
  ⟨follow_relative_iff hsource htarget hrooted htargetModule,
    follow_relative_iff htarget hsource hrooted.symm hsourceModule⟩

/-- From `src/a.ts`, the module path of `src/a/b.ts` is `./b`, which leads to `src/b`.  The module
path back is `.`, which leads to `src/a` as it should. -/
theorem ModulePaths.follow_ofFiles_below :
    follow "src/a.ts".toList
        (ofFiles "src/a.ts".toList "src/a/b.ts".toList).sourceToTarget ≠
      withoutExtension "src/a/b.ts".toList ∧
    follow "src/a/b.ts".toList
        (ofFiles "src/a.ts".toList "src/a/b.ts".toList).targetToSource =
      withoutExtension "src/a.ts".toList := by
  have hpaths := follow_ofFiles_iff "src/a.ts".toList "src/a/b.ts".toList (by decide) (by decide)
    (by decide) (by decide) (by decide)
  exact ⟨fun hled => hpaths.1.1 hled (by decide), hpaths.2.2 (by decide)⟩

end Transplant
