import Transplant.Command.Run
import Transplant.Proofs.ImportResolution

/-!
# The directory of a spelled path

Empty segments and `.` segments of a path lead nowhere.  A walk that succeeds also succeeds without
them, and a walk to a directory also succeeds with more of them.  The directory of a path is cut off
its text, so it has all segments that lead on but the last.  Hence the directory of a file that can
be read is found, and it is the same for all spellings of the path that differ in `.` segments.
-/

namespace Transplant

namespace Path

/-- Segments that lead on: all but the empty one and `.`. -/
def leads (segment : Text) : Bool :=
  !(segment = [] ∨ segment = ['.'])

def leading (path : Text) : List Text :=
  (path.pieces '/').filter leads

theorem leads_iff {segment : Text} : leads segment ↔ ¬ (segment = [] ∨ segment = ['.']) := by
  simp [leads]

theorem isSome_component?_eq (segment : Text) : (component? segment).isSome = leads segment := by
  rw [component?, leads]
  split_ifs with hstay hparent <;> simp [hstay]

theorem filterMap_component?_filter (segments : List Text) :
    (segments.filter leads).filterMap component? = segments.filterMap component? := by
  rw [List.filterMap_filter]
  apply List.filterMap_congr
  intro segment _
  split_ifs with hleads
  · rfl
  · rw [← isSome_component?_eq, Bool.not_eq_true, Option.isSome_eq_false_iff,
      Option.isNone_iff_eq_none] at hleads
    exact hleads.symm

theorem leading_join {segments : List Text} (hslash : ∀ segment ∈ segments, '/' ∉ segment) :
    leading (Text.join ['/'] segments) = segments.filter leads := by
  by_cases hne : segments = []
  · rw [hne]
    rfl
  · rw [leading, Text.pieces_join hne hslash]

theorem leading_append_slash (front rest : Text) :
    leading (front ++ '/' :: rest) = leading front ++ leading rest := by
  rw [leading, Text.pieces_append_sep, List.filter_append, leading, leading]

theorem leading_slash (rest : Text) : leading ('/' :: rest) = leading rest :=
  leading_append_slash [] rest

theorem leading_dot_slash (rest : Text) : leading ('.' :: '/' :: rest) = leading rest :=
  leading_append_slash ['.'] rest

/-! ## Starts of a path -/

theorem startsAtComponents_append (front back : List Text) :
    startsAtComponents (front ++ back) =
      startsAtComponents front ++ (startsAtComponents back).map (front ++ ·) := by
  induction front with
  | nil => simp [startsAtComponents]
  | cons segment front ih =>
      rw [List.cons_append, startsAtComponents, ih, startsAtComponents, List.map_append,
        List.map_map, List.append_assoc]
      rfl

theorem startsAtComponents_eq_nil {segments : List Text} (hnone : segments.filter leads = []) :
    startsAtComponents segments = [] := by
  induction segments with
  | nil => rfl
  | cons segment rest ih =>
      have hsegment : ¬ leads segment := List.filter_eq_nil_iff.1 hnone segment (by simp)
      rw [List.filter_cons_of_neg hsegment] at hnone
      rw [startsAtComponents, ih hnone, isSome_component?_eq, if_neg hsegment]
      rfl

/-- The last start of a path ends in the last segment that leads on. -/
theorem exists_startsAtComponents_eq {segments front : List Text} {last : Text}
    (hleading : segments.filter leads = front ++ [last]) :
    ∃ above below, segments = above ++ last :: below ∧ above.filter leads = front ∧
      startsAtComponents segments = startsAtComponents above ++ [above ++ [last]] := by
  obtain ⟨above, rest, rfl, habove, hrest⟩ := List.filter_eq_append_iff.1 hleading
  obtain ⟨gap, below, rfl, hgap, hlast, hbelow⟩ := List.filter_eq_cons_iff.1 hrest
  have hgapnone : gap.filter leads = [] := List.filter_eq_nil_iff.2 hgap
  refine ⟨above ++ gap, below, by simp, by rw [List.filter_append, habove, hgapnone]; simp, ?_⟩
  have hbelownone : startsAtComponents below = [] := startsAtComponents_eq_nil hbelow
  rw [← List.append_assoc, startsAtComponents_append, startsAtComponents, hbelownone,
    isSome_component?_eq, if_pos hlast]
  simp

/-- The innermost directory above a path is a start of it with all leading segments but the last. -/
theorem exists_head?_above {path front body : Text} {init : List Text} {last : Text}
    (hsplit : splitFront path = (front, body)) (hleading : leading body = init ++ [last]) :
    ∃ start, start <+: body.pieces '/' ∧ start.filter leads = init ∧
      (above path).head? = some (front ++ Text.join ['/'] start) := by
  obtain ⟨upper, lower, hbody, hupper, hstarts⟩ := exists_startsAtComponents_eq hleading
  have habove : above path =
      ((startsAtComponents upper).reverse.map fun segments => front ++ Text.join ['/'] segments) ++
        [front] ++ (if front = ['.'] then [[]] else []) := by
    simp [above, hsplit, hstarts]
  rw [habove, hbody]
  obtain rfl | ⟨outer, inner, rfl⟩ := List.eq_nil_or_concat init
  · refine ⟨[], List.nil_prefix, rfl, ?_⟩
    rw [startsAtComponents_eq_nil hupper]
    simp
  · rw [List.concat_eq_append] at hupper ⊢
    obtain ⟨first, second, rfl, houter, hfirst⟩ := exists_startsAtComponents_eq hupper
    have hinner : leads inner := by
      have hmem : inner ∈ (first ++ inner :: second).filter leads := by simp [hupper]
      exact (List.mem_filter.1 hmem).2
    refine ⟨first ++ [inner], ⟨second ++ last :: lower, by simp⟩, ?_, ?_⟩
    · rw [List.filter_append, houter, List.filter_cons_of_pos hinner]
      rfl
    · rw [hfirst]
      simp

/-- The directory that a spelled path is taken to stand in. -/
def directoryText (path : Text) : Text :=
  match (above path).head? with
  | none | some [] => ['.']
  | some directory => directory

theorem join_isPrefix {start segments : List Text} (hstart : start <+: segments) :
    Text.join ['/'] start <+: Text.join ['/'] segments := by
  obtain ⟨rest, rfl⟩ := hstart
  by_cases hnil : start = []
  · rw [hnil]
    exact List.nil_prefix
  · by_cases hrest : rest = []
    · simp [hrest]
    · rw [Text.join_append hnil hrest, List.append_assoc]
      exact List.prefix_append ..

theorem directoryText_eq {path directory : Text} (hhead : (above path).head? = some directory) :
    directoryText path = if directory = [] then ['.'] else directory := by
  rw [directoryText, hhead]
  cases directory <;> rfl

/-- What stands in front of the segments of a path: the root, a `.`, or nothing. -/
theorem splitFront_cases (path : Text) :
    (∃ rest, path = '/' :: rest ∧ splitFront path = (['/'], rest)) ∨
      (path = ['.'] ∧ splitFront path = (['.'], [])) ∨
      (∃ rest, path = '.' :: '/' :: rest ∧ splitFront path = (['.'], '/' :: rest)) ∨
      (path.head? ≠ some '/' ∧ splitFront path = ([], path)) := by
  unfold splitFront
  split
  · exact .inl ⟨_, rfl, rfl⟩
  · exact .inr (.inl ⟨rfl, rfl⟩)
  · exact .inr (.inr (.inl ⟨_, rfl, rfl⟩))
  · rename_i hroot _ _
    refine .inr (.inr (.inr ⟨fun hhead => ?_, rfl⟩))
    obtain ⟨rest, rfl⟩ := List.head?_eq_some_iff.1 hhead
    exact hroot rest rfl

/-- The directory of a path starts where the path starts and has all leading segments but the last.
It is a front of the text of the path, or `.` where that is empty. -/
structure IsDirectoryOf (directory path : Text) (init : List Text) : Prop where
  front : directory = ['.'] ∨ directory <+: path
  ne_nil : directory ≠ []
  leading_eq : leading directory = init
  head?_iff : directory.head? = some '/' ↔ path.head? = some '/'

theorem isDirectoryOf_directoryText {path : Text} {init : List Text} {last : Text}
    (hleading : leading path = init ++ [last]) :
    IsDirectoryOf (directoryText path) path init := by
  have hpieces : ∀ {body : Text} {start : List Text}, start <+: body.pieces '/' →
      Text.join ['/'] start <+: body ∧ leading (Text.join ['/'] start) = start.filter leads := by
    intro body start hstart
    refine ⟨?_, leading_join fun segment hsegment => ?_⟩
    · conv_rhs => rw [← Text.join_pieces '/' body]
      exact join_isPrefix hstart
    · exact Text.not_mem_of_mem_pieces (hstart.subset hsegment)
  obtain ⟨rest, rfl, hsplit⟩ | ⟨rfl, -⟩ | ⟨rest, rfl, hsplit⟩ | ⟨hhead, hsplit⟩ :=
    splitFront_cases path
  · rw [leading_slash] at hleading
    obtain ⟨start, hstart, hinit, habove⟩ := exists_head?_above hsplit hleading
    obtain ⟨hbegins, hjoin⟩ := hpieces hstart
    rw [directoryText_eq habove, if_neg (by simp), List.singleton_append]
    refine ⟨.inr (List.cons_prefix_cons.2 ⟨rfl, hbegins⟩), by simp, ?_, by simp⟩
    rw [leading_slash, hjoin, hinit]
  · cases init <;> cases hleading
  · rw [leading_dot_slash, ← leading_slash] at hleading
    obtain ⟨start, hstart, hinit, habove⟩ := exists_head?_above hsplit hleading
    obtain ⟨hbegins, hjoin⟩ := hpieces hstart
    rw [directoryText_eq habove, if_neg (by simp), List.singleton_append]
    refine ⟨.inr (List.cons_prefix_cons.2 ⟨rfl, hbegins⟩), by simp, ?_, by simp⟩
    rw [← hinit, ← hjoin]
    -- The start is empty, or it begins with the slash behind the dot.
    cases hcons : Text.join ['/'] start with
    | nil => rfl
    | cons c more =>
        rw [hcons, List.cons_prefix_cons] at hbegins
        rw [hbegins.1, leading_dot_slash, leading_slash]
  · obtain ⟨start, hstart, hinit, habove⟩ := exists_head?_above hsplit hleading
    obtain ⟨hbegins, hjoin⟩ := hpieces hstart
    rw [directoryText_eq habove, List.nil_append]
    split_ifs with hnil
    · rw [hnil] at hjoin
      exact ⟨.inl rfl, by simp, by rw [← hinit, ← hjoin]; rfl, by simpa using hhead⟩
    · refine ⟨.inr hbegins, hnil, hjoin.trans hinit, ?_⟩
      obtain ⟨c, tail, hcons⟩ := List.exists_cons_of_ne_nil hnil
      obtain ⟨more, hmore⟩ := hbegins
      rw [← hmore, hcons]
      rfl

end Path

/-! ## Walks -/

namespace Tree

variable {tree : Tree} {cwd location place : Location}

theorem directory_of_walk {segment : Text} {rest : List Text}
    (hwalk : tree.walk location (segment :: rest) = .ok place) :
    tree.get? location = some .directory := by
  rw [walk] at hwalk
  split at hwalk
  · assumption
  · cases hwalk
  · cases hwalk

theorem walk_cons {segment : Text} {rest : List Text}
    (hdirectory : tree.get? location = some .directory) :
    tree.walk location (segment :: rest) =
      if segment = [] ∨ segment = ['.'] then tree.walk location rest
      else if segment = ['.', '.'] then tree.walk location.dropLast rest
      else if isLongName segment then .error .nameTooLong
      else if (tree.get? (location ++ [segment])).isSome then
        tree.walk (location ++ [segment]) rest
      else .error .notFound := by
  rw [walk, hdirectory]

theorem exists_of_walk_append {front back : List Text}
    (hwalk : tree.walk location (front ++ back) = .ok place) :
    ∃ middle, tree.walk location front = .ok middle ∧ tree.walk middle back = .ok place := by
  induction front generalizing location with
  | nil => exact ⟨location, rfl, hwalk⟩
  | cons segment front ih =>
      have hdirectory := directory_of_walk hwalk
      rw [List.cons_append] at hwalk
      rw [walk_cons hdirectory] at hwalk ⊢
      split_ifs at hwalk ⊢
      · exact ih hwalk
      · exact ih hwalk
      · exact ih hwalk

/-- Segments that lead nowhere can be left out. -/
theorem walk_filter_leads {segments : List Text} (hwalk : tree.walk location segments = .ok place) :
    tree.walk location (segments.filter Path.leads) = .ok place := by
  induction segments generalizing location with
  | nil => exact hwalk
  | cons segment rest ih =>
      have hdirectory := directory_of_walk hwalk
      rw [walk_cons hdirectory] at hwalk
      by_cases hleads : Path.leads segment
      · rw [List.filter_cons_of_pos hleads, walk_cons hdirectory]
        rw [Path.leads_iff] at hleads
        rw [if_neg hleads] at hwalk ⊢
        split_ifs at hwalk ⊢
        · exact ih hwalk
        · exact ih hwalk
      · rw [List.filter_cons_of_neg hleads]
        rw [Path.leads_iff, not_not] at hleads
        rw [if_pos hleads] at hwalk
        exact ih hwalk

/-- On the way to a directory segments that lead nowhere can be put in. -/
theorem walk_of_filter_leads {segments : List Text}
    (hwalk : tree.walk location (segments.filter Path.leads) = .ok place)
    (hplace : tree.get? place = some .directory) : tree.walk location segments = .ok place := by
  induction segments generalizing location with
  | nil => exact hwalk
  | cons segment rest ih =>
      by_cases hleads : Path.leads segment
      · rw [List.filter_cons_of_pos hleads] at hwalk
        have hdirectory := directory_of_walk hwalk
        rw [walk_cons hdirectory] at hwalk ⊢
        rw [Path.leads_iff] at hleads
        rw [if_neg hleads] at hwalk ⊢
        split_ifs at hwalk ⊢
        · exact ih hwalk
        · exact ih hwalk
      · rw [List.filter_cons_of_neg hleads] at hwalk
        have hdirectory : tree.get? location = some .directory := by
          cases hrest : rest.filter Path.leads with
          | nil =>
              rw [hrest] at hwalk
              cases hwalk
              exact hplace
          | cons next more =>
              rw [hrest] at hwalk
              exact directory_of_walk hwalk
        rw [Path.leads_iff, not_not] at hleads
        rw [walk_cons hdirectory, if_pos hleads]
        exact ih hwalk

/-- Where a path is followed from. -/
def startOf (cwd : Location) (path : Text) : Location :=
  if path.head? = some '/' then [] else cwd

theorem resolve_eq {path : Text} (hfault : pathFault? path = none) :
    tree.resolve cwd path = tree.walk (startOf cwd path) (path.pieces '/') := by
  unfold resolve startOf
  split
  · rename_i hsome
    rw [hfault] at hsome
    cases hsome
  · rfl
  · rename_i hrelative _
    rw [if_neg]
    intro hhead
    obtain ⟨rest, rfl⟩ := List.head?_eq_some_iff.1 hhead
    exact hrelative rest rfl

theorem pathFault?_of_resolve {path : Text} (hresolve : tree.resolve cwd path = .ok place) :
    pathFault? path = none := by
  unfold resolve at hresolve
  split at hresolve
  · cases hresolve
  · assumption
  · assumption

/-- A path that is followed leads along its leading segments. -/
theorem walk_leading {path : Text} (hresolve : tree.resolve cwd path = .ok place) :
    tree.walk (startOf cwd path) (Path.leading path) = .ok place := by
  rw [resolve_eq (pathFault?_of_resolve hresolve)] at hresolve
  exact walk_filter_leads hresolve

theorem pathFault?_eq_none_iff {path : Text} :
    pathFault? path = none ↔ hasNul path = false ∧ isLongPath path = false ∧ path ≠ [] := by
  unfold pathFault?
  split_ifs <;> simp_all

theorem pathFault?_isPrefix {path front : Text} (hfault : pathFault? path = none)
    (hfront : front <+: path) (hne : front ≠ []) : pathFault? front = none := by
  obtain ⟨rest, rfl⟩ := hfront
  obtain ⟨hnul, hlong, -⟩ := pathFault?_eq_none_iff.1 hfault
  rw [hasNul, List.any_append, Bool.or_eq_false_iff] at hnul
  rw [isLongPath, Text.byteSize_append, decide_eq_false_iff_not] at hlong
  refine pathFault?_eq_none_iff.2 ⟨hnul.1, ?_, hne⟩
  rw [isLongPath, decide_eq_false_iff_not]
  omega

/-- The directory of a file that can be read is found, and only the leading segments of the path
decide where. -/
theorem resolve_directoryText {path t : Text} (hread : tree.read cwd path = .ok t) :
    tree.resolve cwd (Path.directoryText path) =
      .ok (locate (startOf cwd path) ((Path.leading path).dropLast.filterMap Path.component?)) := by
  obtain ⟨place, hresolve, hentry⟩ := read_eq_ok_iff.1 hread
  have hfault := pathFault?_of_resolve hresolve
  have hwalk := walk_leading hresolve
  obtain hnil | ⟨init, last, hconcat⟩ := List.eq_nil_or_concat (Path.leading path)
  · -- Without leading segments the path would stand for a directory.
    obtain ⟨segment, rest, hpieces⟩ := List.exists_cons_of_ne_nil (Text.pieces_ne_nil '/' path)
    rw [resolve_eq hfault, hpieces] at hresolve
    rw [hnil] at hwalk
    cases hwalk
    rw [directory_of_walk hresolve] at hentry
    cases hentry
  · rw [List.concat_eq_append] at hconcat
    obtain ⟨hfront, hne, hleading, hhead⟩ := Path.isDirectoryOf_directoryText hconcat
    rw [hconcat] at hwalk
    obtain ⟨directory, hinit, hlast⟩ := exists_of_walk_append hwalk
    have hdirectory : pathFault? (Path.directoryText path) = none := by
      obtain hdot | hbegins := hfront
      · rw [hdot]
        rfl
      · exact pathFault?_isPrefix hfault hbegins hne
    have hstart : startOf cwd (Path.directoryText path) = startOf cwd path := by
      rw [startOf, startOf]
      exact if_congr hhead rfl rfl
    rw [resolve_eq hdirectory, hstart, hconcat, List.dropLast_concat, ← locate_of_walk hinit]
    apply walk_of_filter_leads _ (directory_of_walk hlast)
    rwa [← Path.leading, hleading]

end Tree

namespace Command

/-- The search for settings starts in the directory of a file that can be read, however the path is
spelled. -/
theorem settingsStart_eq {w : World} {file t : Text} (hread : w.tree.read w.cwd file = .ok t) :
    settingsStart w file = Path.toText (Path.ofLocation (Tree.locate (Tree.startOf w.cwd file)
      ((Path.leading file).dropLast.filterMap Path.component?))) := by
  rw [settingsStart]
  split
  · rename_i location hresolve
    cases hresolve.symm.trans (Tree.resolve_directoryText hread)
    rfl
  · rename_i fault hresolve
    cases hresolve.symm.trans (Tree.resolve_directoryText hread)

end Command

end Transplant
