import Transplant.Proofs.SameFile

/-!
# Moves out of one file under two spellings

The path of the source file can be spelled with more or fewer `.` segments.  The settings, both
texts, the place of the destination and the places that are written are the same for all these
spellings.  Two things are not: whether the source counts as its own destination, and the module
paths between the two files, which are read off the path as it was typed.  So two runs can differ in
their exit codes or in what they write, but only through these.
-/

namespace Transplant

namespace Path

/-- Spellings of a path that differ in `.` segments only. -/
structure SameButDots (path other : Text) : Prop where
  segments : (path.pieces '/').filter (· ≠ ['.']) = (other.pieces '/').filter (· ≠ ['.'])
  root : path.head? = some '/' ↔ other.head? = some '/'

variable {path other : Text}

theorem SameButDots.leading_eq (hsame : SameButDots path other) : leading path = leading other := by
  have hfilter : ∀ segments : List Text,
      (segments.filter (· ≠ ['.'])).filter leads = segments.filter leads := by
    intro segments
    rw [List.filter_filter]
    apply List.filter_congr
    intro segment _
    rw [leads]
    by_cases hdot : segment = ['.'] <;> simp [hdot]
  rw [leading, leading, ← hfilter, hsame.segments, hfilter]

theorem SameButDots.startOf_eq (hsame : SameButDots path other) (cwd : Location) :
    Tree.startOf cwd path = Tree.startOf cwd other :=
  if_congr hsame.root rfl rfl

/-- Of the segments that lead nowhere only a `.` in front is read. -/
theorem ofText_eq_or (hrelative : path.head? ≠ some '/') :
    ofText path = (leading path).filterMap component? ∨
      ofText path = .current :: (leading path).filterMap component? := by
  rw [leading, filterMap_component?_filter, ofText]
  split
  · rename_i second rest hpieces
    have hpath := Text.join_pieces '/' path
    rw [hpieces, Text.join_cons_cons, List.nil_append, List.singleton_append] at hpath
    rw [← hpath] at hrelative
    exact absurd rfl hrelative
  · exact .inr rfl
  · exact .inl rfl

theorem ofText_of_root {rest : Text} :
    ofText ('/' :: rest) = .root :: (leading rest).filterMap component? := by
  rw [ofText_root, leading, filterMap_component?_filter]

/-- A `.` in front of a path does not change what is seen from its directory. -/
theorem normalize_join_current {steps target : Path} (hsteps : .root ∉ steps) :
    (join ((parent? (.current :: steps)).getD []) target).normalize =
      (join ((parent? steps).getD []) target).normalize := by
  obtain rfl | ⟨folder, last, rfl⟩ := List.eq_nil_or_concat steps
  · rfl
  · have hlast : last ≠ .root := by
      rintro rfl
      simp at hsteps
    have hparent : ∀ front : Path, (parent? (front ++ [last])).getD [] = front := by
      intro front
      rw [parent?, List.getLast?_concat]
      cases last with
      | root => exact absurd rfl hlast
      | current => simp
      | parent => simp
      | name text => simp
    rw [List.concat_eq_append, ← List.cons_append, hparent, hparent, join, join]
    by_cases habsolute : target.isAbsolute
    · rw [if_pos habsolute, if_pos habsolute]
    · rw [if_neg habsolute, if_neg habsolute, if_neg (by simp)]
      split
      · rename_i hempty
        rw [List.isEmpty_iff.1 hempty]
        exact foldl_push_filter [] target
      · rfl

end Path

/-! ## What does not depend on the spelling -/

namespace Command

variable {w : World} {file other : Text}

theorem destinationPath_respelled (hsame : Path.SameButDots file other) (target : Text) :
    destinationPath file target = destinationPath other target := by
  have hsteps : Component.root ∉ (Path.leading file).filterMap Path.component? := by
    intro hroot
    obtain ⟨segment, -, hread⟩ := List.mem_filterMap.1 hroot
    exact (Component.isStep_of_component? hread).1 rfl
  rw [destinationPath, destinationPath]
  by_cases hroot : file.head? = some '/'
  · obtain ⟨rest, rfl⟩ := List.head?_eq_some_iff.1 hroot
    obtain ⟨rest', rfl⟩ := List.head?_eq_some_iff.1 (hsame.root.1 hroot)
    have hleading := hsame.leading_eq
    rw [Path.leading_slash, Path.leading_slash] at hleading
    rw [Path.ofText_of_root, Path.ofText_of_root, hleading]
  · have hnormal : ∀ {path : Text}, path.head? ≠ some '/' → Path.leading path = Path.leading file →
        (Path.join ((Path.ofText path).parent?.getD []) (.ofText target)).normalize =
          (Path.join ((Path.parent? ((Path.leading file).filterMap Path.component?)).getD [])
            (.ofText target)).normalize := by
      intro path hrelative hleading
      obtain hplain | hdot := Path.ofText_eq_or hrelative
      · rw [hplain, hleading]
      · rw [hdot, hleading, Path.normalize_join_current hsteps]
    rw [hnormal hroot rfl, hnormal (mt hsame.root.2 hroot) hsame.leading_eq.symm]

theorem resolve_respelled {place place' : Location} (hsame : Path.SameButDots file other)
    (hfile : w.tree.resolve w.cwd file = .ok place)
    (hother : w.tree.resolve w.cwd other = .ok place') : place = place' := by
  have hwalk := Tree.walk_leading hfile
  rw [hsame.startOf_eq, hsame.leading_eq, Tree.walk_leading hother] at hwalk
  exact (Except.ok.inj hwalk).symm

theorem read_respelled {source source' : Text} (hsame : Path.SameButDots file other)
    (hfile : w.tree.read w.cwd file = .ok source)
    (hother : w.tree.read w.cwd other = .ok source') : source = source' := by
  obtain ⟨place, hplace, hentry⟩ := Tree.read_eq_ok_iff.1 hfile
  obtain ⟨place', hplace', hentry'⟩ := Tree.read_eq_ok_iff.1 hother
  rw [← resolve_respelled hsame hplace hplace', hentry] at hentry'
  cases hentry'
  rfl

theorem settingsFor_respelled {source source' : Text} (hsame : Path.SameButDots file other)
    (hfile : w.tree.read w.cwd file = .ok source)
    (hother : w.tree.read w.cwd other = .ok source') (config : Option Text) :
    settingsFor w config file = settingsFor w config other := by
  rw [settingsFor, settingsFor, settingsStart_eq hfile, settingsStart_eq hother,
    hsame.startOf_eq, hsame.leading_eq]

end Command

namespace Move

variable {m : Move} {path : Text} {outline : Outliner}

/-- What is known of a move whose selection is an excerpt of the source. -/
def selected (m : Move) (excerpt : Excerpt) : Selected :=
  { excerpt
    code := .ofText excerpt.text
    paths := .ofFiles m.sourcePath m.targetPath
    remainder := cutOut m.source excerpt.range }

theorem select_of_resolve {excerpt : Excerpt} (hpath : samePath m.sourcePath m.targetPath = false)
    (hresolve : m.selection.resolve m.source outline = .ok excerpt) :
    select m outline = .ok (m.selected excerpt) := by
  simp [select, selected, hpath, hresolve, bind, Except.bind, pure, Except.pure]

theorem select_of_resolve_error {refusal : Refusal}
    (hpath : samePath m.sourcePath m.targetPath = false)
    (hresolve : m.selection.resolve m.source outline = .error refusal) :
    select m outline = .error refusal := by
  simp [select, hpath, hresolve, bind, Except.bind]

/-- With the same module paths a move is linked in the same way. -/
theorem performLinked_respelled {reexport : ForwardPolicy} {excerpt : Excerpt} {symbol : Text}
    {clash : Bool}
    (hpaths : ModulePaths.ofFiles m.sourcePath m.targetPath = .ofFiles path m.targetPath) :
    performLinked { m with sourcePath := path } reexport
        (selected { m with sourcePath := path } excerpt) symbol clash =
      { performLinked m reexport (m.selected excerpt) symbol clash with sourcePath := path } := by
  have hselected : selected { m with sourcePath := path } excerpt = m.selected excerpt := by
    rw [selected, selected, hpaths]
  have hlink : ∀ source target moved, link path m.targetPath symbol source target moved =
      link m.sourcePath m.targetPath symbol source target moved := by
    intro source target moved
    rw [link, link, hpaths]
  rw [hselected, performLinked, hlink]
  rfl

/-- The refusals of a move and the texts that it leads to depend on the path of the source only
through the verdict on the two paths and through the module paths. -/
theorem perform_respelled (m : Move) (policies : MovePolicies) (outline : Outliner)
    (confirm : Text → Bool)
    (hverdict : samePath path m.targetPath = samePath m.sourcePath m.targetPath) :
    (∃ refusal, perform m policies outline confirm = .error refusal ∧
      perform { m with sourcePath := path } policies outline confirm = .error refusal) ∨
    ∃ moved moved', perform m policies outline confirm = .ok moved ∧
      perform { m with sourcePath := path } policies outline confirm = .ok moved' ∧
      (moved.record.paths = moved'.record.paths →
        moved.source = moved'.source ∧ moved.target = moved'.target) := by
  cases hpath : samePath m.sourcePath m.targetPath with
  | true =>
      refine .inl ⟨.sameFile, (perform_sameFile_iff ..).2 hpath, (perform_sameFile_iff ..).2 ?_⟩
      exact hverdict.trans hpath
  | false =>
      rw [hpath] at hverdict
      cases hresolve : m.selection.resolve m.source outline with
      | error refusal =>
          have hselect' : select { m with sourcePath := path } outline = .error refusal :=
            select_of_resolve_error hverdict hresolve
          refine .inl ⟨refusal, ?_, ?_⟩
          · rw [perform, select_of_resolve_error hpath hresolve]
            rfl
          · rw [perform, hselect']
            rfl
      | ok excerpt =>
          have hselect' : select { m with sourcePath := path } outline =
              .ok (selected { m with sourcePath := path } excerpt) :=
            select_of_resolve hverdict hresolve
          simp only [perform, select_of_resolve hpath hresolve, hselect', bind, Except.bind]
          have hcode : (selected { m with sourcePath := path } excerpt).code =
              (m.selected excerpt).code := rfl
          rw [hcode]
          rcases (m.selected excerpt).code.declared with _ | ⟨kind, symbol⟩
          · exact .inr ⟨_, _, rfl, rfl, fun _ => ⟨rfl, rfl⟩⟩
          · dsimp only
            cases checkClash m.target symbol.text (some kind) policies.onClash confirm with
            | noClash =>
                refine .inr ⟨_, _, rfl, rfl, fun hpaths => ?_⟩
                rw [performLinked_respelled hpaths]
                exact ⟨rfl, rfl⟩
            | annotate =>
                refine .inr ⟨_, _, rfl, rfl, fun hpaths => ?_⟩
                rw [performLinked_respelled hpaths]
                exact ⟨rfl, rfl⟩
            | abort => exact .inl ⟨_, rfl, rfl⟩

end Move

/-- Of two entries that are put into a tree one after the other, the first shows unless the second
takes its place. -/
theorem Tree.insert_insert_eq_iff {tree : Tree} {first second : Location}
    {entry entry' last last' : Entry} :
    (tree.insert first entry).insert second last = (tree.insert first entry').insert second last' ↔
      last = last' ∧ (entry = entry' ∨ first = second) := by
  by_cases hplace : first = second <;> simp [insert, hplace]

namespace Command

variable {w : World} {config : Option Text} {args : MoveArguments} {other : Text}

def Readable (w : World) (file : Text) : Prop :=
  ∃ t, w.tree.read w.cwd file = .ok t

theorem Readable.exists_resolve {file : Text} (hfile : Readable w file) :
    ∃ place, w.tree.resolve w.cwd file = .ok place := by
  obtain ⟨t, hread⟩ := hfile
  obtain ⟨place, hplace, -⟩ := Tree.read_eq_ok_iff.1 hread
  exact ⟨place, hplace⟩

/-- Whether a move is refused because its source counts as its own destination. -/
def RefusedAsSame (w : World) (config : Option Text) (args : MoveArguments) : Prop :=
  prepareMove w config args = .error (.refused .sameFile)

/-- Two plans that both fail, or that have the same destination and, unless their module paths
differ, the same texts. -/
def PlansAgree (plan plan' : Except Failure (Moved × Path)) : Prop :=
  (∃ failure failure', plan = .error failure ∧ plan' = .error failure') ∨
    ∃ moved moved' target, plan = .ok (moved, target) ∧ plan' = .ok (moved', target) ∧
      (moved.record.paths = moved'.record.paths →
        moved.source = moved'.source ∧ moved.target = moved'.target)

/-- Plans that start with the same step agree if they agree wherever that step succeeds. -/
theorem PlansAgree.bind {α : Type} {step : Except Failure α}
    {rest rest' : α → Except Failure (Moved × Path)}
    (hrest : ∀ a, step = .ok a → PlansAgree (rest a) (rest' a)) :
    PlansAgree (step.bind rest) (step.bind rest') := by
  cases step with
  | error failure => exact .inl ⟨failure, failure, rfl, rfl⟩
  | ok a => exact hrest a rfl

/-- The plans for one destination agree if the verdicts on the two spellings of the source do. -/
theorem plansAgree_perform {settings : Settings} {source text : Text} {target : Path}
    (hverdict : Move.samePath (shownPath other) (shownPath target.toText) =
      Move.samePath (shownPath args.file) (shownPath target.toText)) :
    PlansAgree
      ((((requested args target source text).perform (policiesFor args settings)
        Outline.heuristic (confirms w args target)).mapError .refused).map (·, target))
      ((((requested { args with file := other } target source text).perform
        (policiesFor args settings) Outline.heuristic
          (confirms w args target)).mapError .refused).map (·, target)) := by
  have hrespelled : requested { args with file := other } target source text =
      { requested args target source text with sourcePath := shownPath other } := rfl
  rw [hrespelled]
  obtain ⟨refusal, hrefused, hrefused'⟩ | ⟨moved, moved', hmoved, hmoved', htexts⟩ :=
    Move.perform_respelled (requested args target source text) (policiesFor args settings)
      Outline.heuristic (confirms w args target) hverdict
  · rw [hrefused, hrefused']
    exact .inl ⟨_, _, rfl, rfl⟩
  · rw [hmoved, hmoved']
    exact .inr ⟨moved, moved', target, rfl, rfl, htexts⟩

/-- The plans of a move under two spellings agree. -/
theorem prepareMove_respelled (hsame : Path.SameButDots args.file other)
    (hfile : Readable w args.file) (hother : Readable w other)
    (hverdict : RefusedAsSame w config args ↔ RefusedAsSame w config { args with file := other }) :
    PlansAgree (prepareMove w config args) (prepareMove w config { args with file := other }) := by
  obtain ⟨source, hsource⟩ := hfile
  obtain ⟨source', hsource'⟩ := hother
  obtain rfl := read_respelled hsame hsource hsource'
  have hsettings' := settingsFor_respelled hsame hsource hsource' config
  cases hsettings : settingsFor w config args.file with
  | error failure =>
      rw [hsettings] at hsettings'
      refine .inl ⟨failure, failure, ?_, ?_⟩
      · rw [prepareMove, hsettings]
        rfl
      · rw [prepareMove, ← hsettings']
        rfl
  | ok settings =>
      rw [hsettings] at hsettings'
      have hplan' : prepareMove w config { args with file := other } = _ :=
        prepareMove_of_read hsettings'.symm hsource'
      have hwanted' : wantedTarget w { args with file := other } settings =
          wantedTarget w args settings := rfl
      rw [hwanted'] at hplan'
      rw [RefusedAsSame, RefusedAsSame, prepareMove_of_read hsettings hsource, hplan'] at hverdict
      rw [prepareMove_of_read hsettings hsource, hplan']
      apply PlansAgree.bind
      intro wanted hwanted
      rw [hwanted] at hverdict
      dsimp only [Except.bind] at hverdict
      dsimp only
      rw [← destinationPath_respelled hsame] at hverdict ⊢
      generalize destinationPath args.file wanted = target at hverdict ⊢
      apply PlansAgree.bind
      intro text htext
      rw [htext] at hverdict
      dsimp only at hverdict
      rw [map_mapError_eq_error_iff, map_mapError_eq_error_iff, Move.perform_sameFile_iff,
        Move.perform_sameFile_iff] at hverdict
      exact plansAgree_perform (Bool.eq_iff_iff.2 hverdict.symm)

theorem readable_of_prepareMove {moved : Moved} {target : Path}
    (hprepare : prepareMove w config args = .ok (moved, target)) : Readable w args.file := by
  obtain ⟨settings, source, wanted, text, -, hsource, -⟩ := exists_of_prepareMove hprepare
  exact ⟨source, hsource⟩

theorem not_refusedAsSame {moved : Moved} {target : Path}
    (hprepare : prepareMove w config args = .ok (moved, target)) :
    ¬ RefusedAsSame w config args := by
  rw [RefusedAsSame, hprepare]
  simp

/-- Moves of two spellings that can both be read, or neither, and that both count as their own
destination, or neither: both succeed, or both fail and leave the same. -/
theorem move_respelled (hsame : Path.SameButDots args.file other)
    (hread : Readable w args.file ↔ Readable w other)
    (hverdict : RefusedAsSame w config args ↔ RefusedAsSame w config { args with file := other }) :
    (∃ stdout stdout', (move w config args).1 = .ok stdout ∧
      (move w config { args with file := other }).1 = .ok stdout') ∨
    ∃ failure failure' tree, move w config args = (.error failure, tree) ∧
      move w config { args with file := other } = (.error failure', tree) := by
  by_cases hfile : Readable w args.file
  · have hother := hread.1 hfile
    obtain ⟨_, _, hfailed, hfailed'⟩ | ⟨moved, moved', target, hprepare, hprepare', -⟩ :=
      prepareMove_respelled hsame hfile hother hverdict
    · exact .inr ⟨_, _, _, move_of_error hfailed, move_of_error hfailed'⟩
    · obtain ⟨place, hplace⟩ := hfile.exists_resolve
      obtain ⟨place', hplace'⟩ := hother.exists_resolve
      rw [move_of_prepareMove hprepare, move_of_prepareMove hprepare', carryOut, carryOut,
        writeBoth_of_resolve hplace, writeBoth_of_resolve hplace']
      cases args.dryRun with
      | true => exact .inl ⟨_, _, rfl, rfl⟩
      | false =>
          cases (readyDestination w target).1 with
          | none => exact .inl ⟨_, _, rfl, rfl⟩
          | some failure => exact .inr ⟨_, _, _, rfl, rfl⟩
  · have hunread : ∀ args : MoveArguments, ¬ Readable w args.file →
        ∃ failure, prepareMove w config args = .error failure := by
      intro args hunread
      cases hprepare : prepareMove w config args with
      | error failure => exact ⟨failure, rfl⟩
      | ok plan => exact absurd (readable_of_prepareMove hprepare) hunread
    obtain ⟨failure, hfailed⟩ := hunread args hfile
    obtain ⟨failure', hfailed'⟩ := hunread { args with file := other } (mt hread.2 hfile)
    exact .inr ⟨_, _, _, move_of_error hfailed, move_of_error hfailed'⟩

/-- Moves that both succeed are planned for one destination. -/
theorem exists_plans_of_moves {stdout stdout' : Text} {tree tree' : Tree}
    (hsame : Path.SameButDots args.file other) (hmove : move w config args = (.ok stdout, tree))
    (hmove' : move w config { args with file := other } = (.ok stdout', tree')) :
    (Readable w args.file ↔ Readable w other) ∧
      (RefusedAsSame w config args ↔ RefusedAsSame w config { args with file := other }) ∧
      ∃ moved moved' target, prepareMove w config args = .ok (moved, target) ∧
        prepareMove w config { args with file := other } = .ok (moved', target) ∧
        (moved.record.paths = moved'.record.paths →
          moved.source = moved'.source ∧ moved.target = moved'.target) := by
  obtain ⟨moved, target, hprepare, -⟩ := exists_of_move hmove
  obtain ⟨moved', target', hprepare', -⟩ := exists_of_move hmove'
  have hfile := readable_of_prepareMove hprepare
  have hother : Readable w other := readable_of_prepareMove hprepare'
  have hverdict : RefusedAsSame w config args ↔
      RefusedAsSame w config { args with file := other } :=
    iff_of_false (not_refusedAsSame hprepare) (not_refusedAsSame hprepare')
  refine ⟨iff_of_true hfile hother, hverdict, ?_⟩
  obtain ⟨failure, failure', hfailed, -⟩ | hplans :=
    prepareMove_respelled hsame hfile hother hverdict
  · rw [hprepare] at hfailed
    cases hfailed
  · exact hplans

/-- What two moves that succeed leave is the same if nothing is written or the same texts are. -/
theorem tree_respelled_iff {moved moved' : Moved} {target : Path} {stdout stdout' : Text}
    {tree tree' : Tree} (hsame : Path.SameButDots args.file other)
    (hprepare : prepareMove w config args = .ok (moved, target))
    (hprepare' : prepareMove w config { args with file := other } = .ok (moved', target))
    (hmove : move w config args = (.ok stdout, tree))
    (hmove' : move w config { args with file := other } = (.ok stdout', tree')) :
    tree = tree' ↔ args.dryRun ∨ moved.source = moved'.source ∧
      (moved.target = moved'.target ∨
        Tree.locate w.cwd target = Tree.locate w.cwd (.ofText args.file)) := by
  obtain ⟨place, hplace⟩ := (readable_of_prepareMove hprepare).exists_resolve
  obtain ⟨place', hplace'⟩ := (readable_of_prepareMove hprepare').exists_resolve
  obtain rfl := resolve_respelled hsame hplace hplace'
  rw [move_of_prepareMove hprepare, carryOut, writeBoth_of_resolve hplace] at hmove
  rw [move_of_prepareMove hprepare', carryOut, writeBoth_of_resolve hplace'] at hmove'
  cases hdry : args.dryRun with
  | true =>
      rw [hdry] at hmove hmove'
      cases hmove
      cases hmove'
      simp
  | false =>
      rw [hdry] at hmove hmove'
      cases hready : (readyDestination w target).1 with
      | some failure =>
          rw [hready] at hmove
          cases hmove
      | none =>
          rw [hready] at hmove hmove'
          cases hmove
          cases hmove'
          rw [Tree.insert_insert_eq_iff, ← Tree.locate_of_resolve hplace]
          simp

/-- A move that fails leaves the files that it found. -/
theorem sameFiles_of_move_error {failure : Failure} {tree : Tree}
    (hmove : move w config args = (.error failure, tree)) : w.tree.SameFiles tree := by
  obtain ⟨-, rfl⟩ | ⟨moved, target, -, -, hwrite⟩ := cases_of_move_error hmove
  · exact fun _ _ => Iff.rfl
  · rw [tree_of_writeBoth hwrite]
    exact (grownTowards_readyDestination w target).grownFrom.sameFiles

/-! ## The runs -/

/-- Two runs of a move whose source is spelled with more or fewer `.` segments.  Their exit codes
agree exactly if both fail, or if both spellings can be read or none, and both count as their own
destination or none.  Failed runs leave the same files, and in the second case the same directories
as well.  Runs that succeed plan for the same destination; they leave the same files exactly if
nothing is written or the planned texts agree, the text of the destination only where it is not
written over; and the texts do agree if the module paths between the two files do. -/
theorem run_respelled {arguments respelled : List Text} {i : Invocation}
    (hparse : parseArguments arguments = .ok { i with action := .move args })
    (hrespelled : parseArguments respelled =
      .ok { i with action := .move { args with file := other } })
    (hsame : Path.SameButDots args.file other) :
    ((run w arguments).exit = (run w respelled).exit ↔
      (run w arguments).exit ≠ 0 ∧ (run w respelled).exit ≠ 0 ∨
        (Readable w args.file ↔ Readable w other) ∧
          (RefusedAsSame w i.config args ↔
            RefusedAsSame w i.config { args with file := other })) ∧
      ((run w arguments).exit ≠ 0 → (run w respelled).exit ≠ 0 →
        (run w arguments).tree.SameFiles (run w respelled).tree ∧
          ((Readable w args.file ↔ Readable w other) →
            (RefusedAsSame w i.config args ↔
              RefusedAsSame w i.config { args with file := other }) →
            (run w arguments).tree = (run w respelled).tree)) ∧
      ((run w arguments).exit = 0 → (run w respelled).exit = 0 →
        ∃ moved moved' target, prepareMove w i.config args = .ok (moved, target) ∧
          prepareMove w i.config { args with file := other } = .ok (moved', target) ∧
          (moved.record.paths = moved'.record.paths →
            moved.source = moved'.source ∧ moved.target = moved'.target) ∧
          ((run w arguments).tree = (run w respelled).tree ↔
            args.dryRun ∨ moved.source = moved'.source ∧
              (moved.target = moved'.target ∨
                Tree.locate w.cwd target = Tree.locate w.cwd (.ofText args.file)))) := by
  obtain ⟨hexit, stdout, hmove⟩ | ⟨hexit, failure, hmove⟩ := run_move_cases (w := w) hparse rfl
  · obtain ⟨hexit', stdout', hmove'⟩ | ⟨hexit', failure', hmove'⟩ :=
      run_move_cases (w := w) hrespelled rfl
    · obtain ⟨hread, hverdict, moved, moved', target, hprepare, hprepare', htexts⟩ :=
        exists_plans_of_moves hsame hmove hmove'
      have htrees := tree_respelled_iff hsame hprepare hprepare' hmove hmove'
      refine ⟨iff_of_true (hexit.trans hexit'.symm) (.inr ⟨hread, hverdict⟩), by simp [hexit], ?_⟩
      exact fun _ _ => ⟨moved, moved', target, hprepare, hprepare', htexts, htrees⟩
    · refine ⟨iff_of_false (by simp [hexit, hexit']) ?_, by simp [hexit], by simp [hexit']⟩
      rintro (⟨hfailed, -⟩ | ⟨hread, hverdict⟩)
      · exact hfailed hexit
      · obtain ⟨_, _, -, hdone⟩ | ⟨_, _, _, hfailed, -⟩ := move_respelled hsame hread hverdict
        · simp [hmove'] at hdone
        · simp [hmove] at hfailed
  · obtain ⟨hexit', stdout', hmove'⟩ | ⟨hexit', failure', hmove'⟩ :=
      run_move_cases (w := w) hrespelled rfl
    · refine ⟨iff_of_false (by simp [hexit, hexit']) ?_, by simp [hexit'], by simp [hexit]⟩
      rintro (⟨-, hfailed⟩ | ⟨hread, hverdict⟩)
      · exact hfailed hexit'
      · obtain ⟨_, _, hdone, -⟩ | ⟨_, _, _, -, hfailed⟩ := move_respelled hsame hread hverdict
        · simp [hmove] at hdone
        · simp [hmove'] at hfailed
    · refine ⟨iff_of_true (hexit.trans hexit'.symm) (.inl (by simp [hexit, hexit'])),
        fun _ _ => ⟨?_, fun hread hverdict => ?_⟩, by simp [hexit]⟩
      · exact (sameFiles_of_move_error hmove).symm.trans (sameFiles_of_move_error hmove')
      · obtain ⟨_, _, hdone, -⟩ | ⟨_, _, tree, hleft, hleft'⟩ :=
          move_respelled hsame hread hverdict
        · simp [hmove] at hdone
        · rw [hmove] at hleft
          rw [hmove'] at hleft'
          exact (congrArg Prod.snd hleft).trans (congrArg Prod.snd hleft').symm

def linkedWorld : World :=
  { respelledWorld with
    tree := { entries := [
      (["w".toList], .directory),
      (["w".toList, "a.ts".toList], .file (.text "type A = string;\nlet x: A;\n".toList))] } }

def linkedMove (file : String) : MoveArguments :=
  { file := file.toList
    selection := .symbol ['A']
    target := some "b.ts".toList
    dryRun := false
    json := false
    onClash := none
    reexport := none
    yes := false }

def linkedArguments (file : String) : List Text :=
  ["move", file, "--symbol", "A", "--to", "b.ts"].map String.toList

/-- The file that is left, with the module path by which it imports the type. -/
def linkedEntry (modulePath : String) : Option Entry :=
  some (.file (.text ("import \x7b A \x7d from '" ++ modulePath ++ "';\n\nlet x: A;\n").toList))

theorem run_respelled_dot :
    (run linkedWorld (linkedArguments "a.ts")).tree.get? ["w".toList, "a.ts".toList] =
        linkedEntry "./b" ∧
      (run linkedWorld (linkedArguments "./a.ts")).tree.get? ["w".toList, "a.ts".toList] =
        linkedEntry "../b" ∧
      ∃ moved moved' target,
        prepareMove linkedWorld none (linkedMove "a.ts") = .ok (moved, target) ∧
          prepareMove linkedWorld none (linkedMove "./a.ts") = .ok (moved', target) ∧
            moved.record.paths ≠ moved'.record.paths := by
  let i : Invocation := ⟨none, 0, .move (linkedMove "a.ts")⟩
  have hparse : parseArguments (linkedArguments "a.ts") = .ok i := by rfl
  have hrespelled : parseArguments (linkedArguments "./a.ts") =
      .ok { i with action := .move (linkedMove "./a.ts") } := by rfl
  have hsame : Path.SameButDots (linkedMove "a.ts").file "./a.ts".toList :=
    ⟨by decide, by decide⟩
  have hfile : (run linkedWorld (linkedArguments "a.ts")).tree.get? ["w".toList, "a.ts".toList] =
      linkedEntry "./b" := by decide +kernel
  have hother : (run linkedWorld (linkedArguments "./a.ts")).tree.get?
      ["w".toList, "a.ts".toList] = linkedEntry "../b" := by decide +kernel
  obtain ⟨-, -, hplans⟩ := run_respelled (w := linkedWorld) hparse hrespelled hsame
  obtain ⟨moved, moved', target, hprepare, hprepare', htexts, htrees⟩ :=
    hplans (by decide +kernel) (by decide +kernel)
  refine ⟨hfile, hother, moved, moved', target, hprepare, hprepare', fun hpaths => ?_⟩
  obtain ⟨hsource, htarget⟩ := htexts hpaths
  rw [htrees.2 (.inr ⟨hsource, .inl htarget⟩), hother] at hfile
  exact absurd hfile (by decide)

end Command

end Transplant
