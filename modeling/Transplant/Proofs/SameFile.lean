import Transplant.Proofs.Trees

/-!
# Moves of a file onto itself

A move whose two paths are spelled the same is refused.  The refusal compares the spellings, one of
them normalised, and not the places that the paths stand for.  A file that is moved onto itself
under another spelling is therefore read twice and written twice, the destination first: what
remains is the source without the moved lines, and the moved lines are gone.
-/

namespace Transplant

theorem Selection.resolve_ne_sameFile (source : Text) (selection : Selection) (outline : Outliner) :
    selection.resolve source outline ≠ .error .sameFile := by
  intro hresolve
  simp only [Selection.resolve, bind, Except.bind] at hresolve
  split at hresolve
  · rename_i hspan
    cases hresolve
    cases selection <;> simp only [Selection.lineSpan] at hspan <;> split at hspan <;> cases hspan
  · simp only [Selection.excerptOf] at hresolve
    split_ifs at hresolve <;> cases hresolve

namespace Path

/-- A path below the root has a parent, which starts at the root as well. -/
theorem isAbsolute_parent? {step : Component} {steps : Path}
    (hpath : Spelled (.root :: step :: steps)) :
    ((parent? (.root :: step :: steps)).getD []).isAbsolute := by
  have hlast : (Component.root :: step :: steps).getLast? ≠ some .root := by
    rw [List.getLast?_cons_cons]
    intro hlast
    exact (hpath.steps .root (List.mem_of_getLast? hlast)).1 rfl
  rw [parent?]
  split
  · rename_i hnone
    simp at hnone
  · rename_i hroot
    exact absurd hroot hlast
  · exact isAbsolute_iff.2 ⟨_, rfl⟩

end Path

namespace Move

/-- A move is refused as a move within one file exactly when its paths are spelled the same. -/
theorem perform_sameFile_iff (move : Move) (policies : MovePolicies) (outline : Outliner)
    (confirm : Text → Bool) :
    perform move policies outline confirm = .error .sameFile ↔
      samePath move.sourcePath move.targetPath := by
  constructor
  · intro hperform
    by_contra hpath
    simp only [perform, select, if_neg hpath, bind, Except.bind, pure, Except.pure] at hperform
    split at hperform
    · rename_i hselect
      cases hperform
      split at hselect
      · rename_i hresolve
        cases hselect
        exact Selection.resolve_ne_sameFile _ _ _ hresolve
      · cases hselect
    · split at hperform
      · cases hperform
      · split at hperform <;> cases hperform
  · intro hpath
    simp [perform, select, hpath, throw, throwThe, MonadExceptOf.throw, bind, Except.bind]

end Move

namespace Command

variable {w : World} {config : Option Text} {args : MoveArguments}

/-! ## The destination -/

theorem spelled_join_parent (file target : Text) :
    (Path.join ((Path.ofText file).parent?.getD []) (.ofText target)).Spelled := by
  apply Path.Spelled.join _ (Path.spelled_ofText target)
  rw [Path.parent?]
  split
  · exact Path.spelled_nil
  · exact Path.spelled_nil
  · exact (Path.spelled_ofText file).dropLast

theorem spelled_destinationPath (file target : Text) : (destinationPath file target).Spelled :=
  (spelled_join_parent file target).normalize

theorem isNormal_destinationPath (file target : Text) : (destinationPath file target).IsNormal :=
  Path.isNormal_normalize (spelled_join_parent file target)

/-- A file that is found below the root has its destinations below the root. -/
theorem isAbsolute_destinationPath {rest : Text}
    (hsource : w.tree.read w.cwd ('/' :: rest) = .ok source) (target : Text) :
    (destinationPath ('/' :: rest) target).isAbsolute := by
  apply Path.isAbsolute_normalize (spelled_join_parent _ target)
  apply Path.isAbsolute_join
  obtain ⟨place, hresolve, hentry⟩ := Tree.read_eq_ok_iff.1 hsource
  have hspelled := Path.spelled_ofText ('/' :: rest)
  have hplace := Tree.locate_of_resolve hresolve
  rw [Path.ofText_root] at hspelled hplace ⊢
  cases hsteps : (rest.pieces '/').filterMap Path.component? with
  | nil =>
      -- The root itself is no file.
      rw [hsteps] at hplace
      rw [hplace] at hentry
      cases hentry
  | cons step steps =>
      rw [hsteps] at hspelled
      exact Path.isAbsolute_parent? hspelled

/-- The destination of a file that can be read is looked for from a directory. -/
theorem directory_startOf_destination (hsource : w.tree.read w.cwd file = .ok source)
    (target : Text) :
    w.tree.get? (Tree.startOf w.cwd (destinationPath file target).toText) = some .directory := by
  obtain ⟨place, hresolve, -⟩ := Tree.read_eq_ok_iff.1 hsource
  obtain ⟨segment, rest, hpieces⟩ := List.exists_cons_of_ne_nil (Text.pieces_ne_nil '/' file)
  rw [Tree.resolve_eq (Tree.pathFault?_of_resolve hresolve), hpieces] at hresolve
  have hstart := Tree.directory_of_walk hresolve
  rw [Tree.startOf]
  split
  · rfl
  · rename_i hrelative
    rwa [Tree.startOf, if_neg] at hstart
    intro hroot
    obtain ⟨rest, rfl⟩ := List.head?_eq_some_iff.1 hroot
    obtain ⟨below, hbelow⟩ := Path.isAbsolute_iff.1 (isAbsolute_destinationPath hsource target)
    rw [hbelow] at hrelative
    exact hrelative rfl

/-- Whether the destination of a move, made absolute and normalised, is the file itself. -/
def OntoItself (w : World) (file target : Text) : Prop :=
  Path.absolute w.cwd (.ofText file) = Path.absolute w.cwd (destinationPath file target)

instance (w : World) (file target : Text) : Decidable (OntoItself w file target) :=
  inferInstanceAs (Decidable (_ = _))

theorem OntoItself.locate_eq {file target : Text} (hsame : OntoItself w file target) :
    Tree.locate w.cwd (destinationPath file target) = Tree.locate w.cwd (.ofText file) :=
  ((Path.absolute_eq_iff w.cwd (Path.spelled_ofText file)
    (spelled_destinationPath file target)).1 hsame).symm

/-- The text of the destination is found if the file can be read: it is the text of the file, unless
the destination is spelled so that nothing is found there. -/
theorem OntoItself.destinationText_eq {file target source : Text}
    (hsame : OntoItself w file target) (hsource : w.tree.read w.cwd file = .ok source) :
    ∃ text, destinationText w (destinationPath file target) = .ok text := by
  rw [destinationText, Tree.pathExists]
  cases hresolve : w.tree.resolve w.cwd (destinationPath file target).toText with
  | error fault => exact ⟨[], rfl⟩
  | ok place =>
      obtain ⟨own, hown, hentry⟩ := Tree.read_eq_ok_iff.1 hsource
      have hplace : place = own := by
        rw [Tree.locate_of_resolve hresolve, Path.ofText_toText (spelled_destinationPath _ _),
          hsame.locate_eq, Tree.locate_of_resolve hown]
      subst hplace
      exact ⟨source, by simp [Tree.read_of_resolve hresolve hentry, Except.mapError]⟩

/-! ## The plan -/

theorem wantedTarget_eq {destination : Text} (hdestination : args.target = some destination)
    (settings : Settings) : wantedTarget w args settings = .ok destination := by
  simp [wantedTarget, hdestination]

/-- What is planned once the settings and the source are known. -/
theorem prepareMove_of_read {settings : Settings} {source : Text}
    (hsettings : settingsFor w config args.file = .ok settings)
    (hsource : w.tree.read w.cwd args.file = .ok source) :
    prepareMove w config args =
      (wantedTarget w args settings).bind fun wanted =>
        let target := destinationPath args.file wanted
        (destinationText w target).bind fun text =>
          (((requested args target source text).perform (policiesFor args settings)
            Outline.heuristic (confirms w args target)).mapError .refused).map (·, target) := by
  simp only [prepareMove, hsettings, hsource, bind, Except.bind, Except.mapError, pure,
    Except.pure, Except.map]

/-- What is planned once the settings and both texts are known. -/
theorem prepareMove_eq {settings : Settings} {destination source text : Text}
    (hdestination : args.target = some destination)
    (hsettings : settingsFor w config args.file = .ok settings)
    (hsource : w.tree.read w.cwd args.file = .ok source)
    (htext : destinationText w (destinationPath args.file destination) = .ok text) :
    prepareMove w config args =
      (((requested args (destinationPath args.file destination) source text).perform
        (policiesFor args settings) Outline.heuristic
          (confirms w args (destinationPath args.file destination))).mapError .refused).map
            (·, destinationPath args.file destination) := by
  simp only [prepareMove_of_read hsettings hsource, wantedTarget_eq hdestination, htext,
    Except.bind]

theorem eq_ok_of_mapError {α ε ε' : Type} {result : Except ε α} {f : ε → ε'} {a : α}
    (hmap : result.mapError f = .ok a) : result = .ok a := by
  cases result with
  | error e => cases hmap
  | ok b =>
      cases hmap
      rfl

theorem exists_of_bind_eq_ok {α β ε : Type} {result : Except ε α} {f : α → Except ε β} {b : β}
    (hbind : (result >>= f) = .ok b) : ∃ a, result = .ok a ∧ f a = .ok b := by
  cases result with
  | error e => cases hbind
  | ok a => exact ⟨a, rfl, hbind⟩

/-- What a plan is made from. -/
theorem exists_of_prepareMove {moved : Moved} {target : Path}
    (hprepare : prepareMove w config args = .ok (moved, target)) :
    ∃ settings source wanted text, settingsFor w config args.file = .ok settings ∧
      w.tree.read w.cwd args.file = .ok source ∧ wantedTarget w args settings = .ok wanted ∧
      target = destinationPath args.file wanted ∧ destinationText w target = .ok text ∧
      (requested args target source text).perform (policiesFor args settings) Outline.heuristic
        (confirms w args target) = .ok moved := by
  obtain ⟨settings, hsettings, hprepare⟩ := exists_of_bind_eq_ok hprepare
  obtain ⟨source, hsource, hprepare⟩ := exists_of_bind_eq_ok hprepare
  obtain ⟨wanted, hwanted, hprepare⟩ := exists_of_bind_eq_ok hprepare
  obtain ⟨text, htext, hprepare⟩ := exists_of_bind_eq_ok hprepare
  obtain ⟨planned, hperform, hprepare⟩ := exists_of_bind_eq_ok hprepare
  cases hprepare
  exact ⟨settings, source, wanted, text, hsettings, eq_ok_of_mapError hsource, hwanted, rfl, htext,
    eq_ok_of_mapError hperform⟩

/-- A plan is made for a file that can be read and for the destination that was asked for. -/
theorem read_of_prepareMove {moved : Moved} {target : Path} {destination : Text}
    (hdestination : args.target = some destination)
    (hprepare : prepareMove w config args = .ok (moved, target)) :
    (∃ source, w.tree.read w.cwd args.file = .ok source) ∧
      target = destinationPath args.file destination := by
  obtain ⟨settings, source, wanted, text, -, hsource, hwanted, htarget, -⟩ :=
    exists_of_prepareMove hprepare
  obtain rfl : destination = wanted := by
    simpa using (wantedTarget_eq hdestination settings).symm.trans hwanted
  exact ⟨⟨source, hsource⟩, htarget⟩

theorem shownPath_shownPath (path : Text) : shownPath (shownPath path) = shownPath path := by
  rw [shownPath, shownPath, Text.replaceChar, Text.replaceChar, List.map_map]
  apply List.map_congr_left
  intro c _
  by_cases hc : c = '\\' <;> simp [hc]

theorem samePath_shownPath (a b : Text) :
    Move.samePath (shownPath a) (shownPath b) ↔ shownPath a = shownPath b := by
  have hsame : Move.samePath (shownPath a) (shownPath b) =
      (shownPath (shownPath a) == shownPath (shownPath b)) := rfl
  rw [hsame, shownPath_shownPath, shownPath_shownPath, beq_iff_eq]

theorem map_mapError_eq_error_iff {plan : Except Refusal Moved} {destination : Path}
    {refusal : Refusal} :
    (plan.mapError Failure.refused).map (·, destination) = .error (.refused refusal) ↔
      plan = .error refusal := by
  cases plan <;> simp [Except.mapError, Except.map]

/-- A file that stands for its own destination is refused only under the same spelling. -/
theorem prepareMove_sameFile_iff {destination : Text}
    (hdestination : args.target = some destination)
    (hsame : OntoItself w args.file destination) :
    prepareMove w config args = .error (.refused .sameFile) ↔
      (∃ settings, settingsFor w config args.file = .ok settings) ∧
        (∃ source, w.tree.read w.cwd args.file = .ok source) ∧
          shownPath args.file = shownPath (destinationPath args.file destination).toText := by
  cases hsettings : settingsFor w config args.file with
  | error failure =>
      have hfailure : failure ≠ .refused .sameFile := by
        rintro rfl
        rw [settingsFor] at hsettings
        generalize Settings.inForce _ _ _ _ _ = found at hsettings
        cases found <;> cases hsettings
      simp [prepareMove, hsettings, bind, Except.bind, hfailure]
  | ok settings =>
      cases hsource : w.tree.read w.cwd args.file with
      | error fault => simp [prepareMove, hsettings, hsource, bind, Except.bind, Except.mapError]
      | ok source =>
          obtain ⟨text, htext⟩ := hsame.destinationText_eq hsource
          rw [prepareMove_eq hdestination hsettings hsource htext, map_mapError_eq_error_iff,
            Move.perform_sameFile_iff]
          simp [requested, samePath_shownPath]

/-! ## What is written -/

theorem locate_destinationFolder (cwd : Location) (directory : Path) (name : Text) :
    Tree.locate cwd (destinationFolder (directory ++ [.name name])) =
      Tree.locate cwd directory := by
  rw [destinationFolder, Path.parent?, List.getLast?_concat, List.dropLast_concat]
  cases directory <;> rfl

theorem readyDestination_tree (w : World) (target : Path) :
    (readyDestination w target).2 =
      (w.tree.makeDirectories w.cwd (destinationFolder target)).2 := by
  rw [readyDestination]
  split
  all_goals
    rename_i hmade
    rw [hmade]

/-- A destination is ready if its directories are made and a file can be put there. -/
theorem readyDestination_eq_none_iff {target : Path} :
    (readyDestination w target).1 = none ↔
      (w.tree.makeDirectories w.cwd (destinationFolder target)).1 = none ∧
        Tree.placeFault? target = none := by
  rw [readyDestination]
  split
  all_goals
    rename_i hmade
    simp [hmade]

/-- A move is written as a whole, or it leaves the directories of the destination. -/
theorem writeBoth_of_resolve {moved : Moved} {file : Text} {target : Path} {place : Location}
    (hplace : w.tree.resolve w.cwd file = .ok place) :
    writeBoth w moved file target =
      match (readyDestination w target).1 with
      | some failure => (some failure, (readyDestination w target).2)
      | none =>
        (none, ((readyDestination w target).2.insert (Tree.locate w.cwd target)
          (.file (.text moved.target))).insert place (.file (.text moved.source))) := by
  rw [writeBoth]
  obtain ⟨_ | failure, tree⟩ := readyDestination w target
  · simp only [hplace]
  · rfl

theorem tree_of_writeBoth {moved : Moved} {file : Text} {target : Path} {failure : Failure}
    {tree : Tree} (hwrite : writeBoth w moved file target = (some failure, tree)) :
    tree = (readyDestination w target).2 := by
  rw [writeBoth] at hwrite
  split at hwrite
  · cases hwrite
    simp only [*]
  · split at hwrite
    · cases hwrite
      simp only [*]
    · cases hwrite

/-- The steps of writing a move that succeeds. -/
theorem steps_of_writeBoth {moved : Moved} {file : Text} {target : Path} {tree : Tree}
    (hwrite : writeBoth w moved file target = (none, tree)) :
    ∃ place, (readyDestination w target).1 = none ∧ w.tree.resolve w.cwd file = .ok place ∧
      tree = ((readyDestination w target).2.insert (Tree.locate w.cwd target)
        (.file (.text moved.target))).insert place (.file (.text moved.source)) := by
  cases hplace : w.tree.resolve w.cwd file with
  | error fault =>
      rw [writeBoth] at hwrite
      split at hwrite
      · cases hwrite
      · rw [hplace] at hwrite
        cases hwrite
  | ok place =>
      rw [writeBoth_of_resolve hplace] at hwrite
      split at hwrite
      · cases hwrite
      · rename_i hready
        cases hwrite
        exact ⟨place, hready, rfl, rfl⟩

/-- What is made for a destination is on the way to it. -/
theorem grownTowards_readyDestination (w : World) (target : Path) :
    w.tree.GrownTowards (readyDestination w target).2
      (Tree.locate w.cwd (destinationFolder target)) := by
  rw [readyDestination_tree]
  exact Tree.grownTowards_makeDirectories _ _ _

/-- A tree in which `text` stands in place of the text of `file`.  Directories may have been added;
everything else is as it was. -/
def Overwritten (w : World) (file text : Text) (tree : Tree) : Prop :=
  ∃ place, w.tree.resolve w.cwd file = .ok place ∧
    (w.tree.insert place (.file (.text text))).GrownFrom tree

section OntoItself

variable {file destination source : Text}

/-- What stands at the destination is the file itself. -/
theorem OntoItself.get?_destination (hsame : OntoItself w file destination)
    (hsource : w.tree.read w.cwd file = .ok source) :
    ∃ place, w.tree.resolve w.cwd file = .ok place ∧
      Tree.locate w.cwd (destinationPath file destination) = place ∧
      w.tree.get? place = some (.file (.text source)) := by
  obtain ⟨place, hplace, hentry⟩ := Tree.read_eq_ok_iff.1 hsource
  exact ⟨place, hplace, hsame.locate_eq.trans (Tree.locate_of_resolve hplace).symm, hentry⟩

/-- In a well-formed tree, a file that is moved onto itself needs no new directories. -/
theorem OntoItself.readyDestination_tree_eq (hsame : OntoItself w file destination)
    (hsource : w.tree.read w.cwd file = .ok source) (htree : w.tree.WellFormed) :
    (readyDestination w (destinationPath file destination)).2 = w.tree := by
  obtain ⟨place, -, hlocate, hentry⟩ := hsame.get?_destination hsource
  rw [← hlocate] at hentry
  obtain ⟨directory, name, hname⟩ := htree.exists_of_not_directory
    (spelled_destinationPath file destination) (isNormal_destinationPath file destination)
    (directory_startOf_destination hsource destination) (by rw [hentry]; simp)
  rw [hname, Tree.locate_append] at hentry
  rw [readyDestination_tree, hname]
  apply htree.makeDirectories_eq
  rw [locate_destinationFolder]
  exact htree.parents _ name (Option.isSome_iff_exists.2 ⟨_, hentry⟩)

/-- Of the two texts of a file that is moved onto itself, the one without the moved lines stays. -/
theorem OntoItself.overwritten {moved : Moved} {tree : Tree}
    (hsame : OntoItself w file destination) (hsource : w.tree.read w.cwd file = .ok source)
    (hwrite : writeBoth w moved file (destinationPath file destination) = (none, tree)) :
    Overwritten w file moved.source tree := by
  obtain ⟨place, -, hplace, rfl⟩ := steps_of_writeBoth hwrite
  obtain ⟨own, hown, hlocate, hentry⟩ := hsame.get?_destination hsource
  obtain rfl : place = own := by simpa using hplace.symm.trans hown
  have hne : place ≠ [] := by
    rintro rfl
    cases hentry
  refine ⟨place, hplace, fun other => ?_⟩
  simp only [hlocate, Tree.get?_insert _ _ _ _ hne]
  by_cases hother : other = place
  · simp only [if_pos hother, true_or]
  · simp only [if_neg hother]
    exact (grownTowards_readyDestination w _).grownFrom other

end OntoItself

/-! ## The run -/

theorem writeBoth_ne_refused {moved : Moved} {file : Text} {target : Path} {refusal : Refusal} :
    (writeBoth w moved file target).1 ≠ some (.refused refusal) := by
  rw [writeBoth]
  split
  · rename_i hready
    rw [readyDestination] at hready
    split at hready
    · cases hready
      simp
    · obtain ⟨hfault, -⟩ := Prod.mk.inj hready
      obtain ⟨fault, -, rfl⟩ := Option.map_eq_some_iff.1 hfault
      simp
  · split <;> simp

section Move

variable {failure : Failure} {moved : Moved} {target : Path} {stdout : Text} {tree : Tree}

/-- A move that cannot be planned leaves what it found. -/
theorem move_of_error (hprepare : prepareMove w config args = .error failure) :
    move w config args = (.error failure, w.tree) := by
  rw [move, hprepare]

theorem move_of_prepareMove (hprepare : prepareMove w config args = .ok (moved, target)) :
    move w config args = carryOut w args moved target := by
  rw [move, hprepare]

/-- All that a move can come to. -/
theorem move_cases (w : World) (config : Option Text) (args : MoveArguments) :
    (∃ failure, prepareMove w config args = .error failure ∧
      move w config args = (.error failure, w.tree)) ∨
    ∃ moved target, prepareMove w config args = .ok (moved, target) ∧
      (args.dryRun = true ∧ move w config args = (.ok (moveOutput w args moved), w.tree) ∨
        args.dryRun = false ∧ ∃ tree,
          ((∃ failure, writeBoth w moved args.file target = (some failure, tree) ∧
            move w config args = (.error failure, tree)) ∨
          writeBoth w moved args.file target = (none, tree) ∧
            move w config args = (.ok (moveOutput w args moved.asSaved), tree))) := by
  cases hprepare : prepareMove w config args with
  | error failure => exact .inl ⟨failure, rfl, move_of_error hprepare⟩
  | ok plan =>
      obtain ⟨moved, target⟩ := plan
      refine .inr ⟨moved, target, rfl, ?_⟩
      rw [move_of_prepareMove hprepare, carryOut]
      cases hdry : args.dryRun with
      | true => exact .inl ⟨rfl, rfl⟩
      | false =>
          refine .inr ⟨rfl, ?_⟩
          obtain ⟨_ | failure, tree⟩ := writeBoth w moved args.file target
          · exact ⟨tree, .inr ⟨rfl, rfl⟩⟩
          · exact ⟨tree, .inl ⟨failure, rfl, rfl⟩⟩

/-- What a move that succeeds has planned and written. -/
theorem exists_of_move (hmove : move w config args = (.ok stdout, tree)) :
    ∃ moved target, prepareMove w config args = .ok (moved, target) ∧
      (args.dryRun = true ∧ tree = w.tree ∨
        args.dryRun = false ∧ writeBoth w moved args.file target = (none, tree)) := by
  obtain ⟨failure, -, hcase⟩ | ⟨moved, target, hprepare, ⟨hdry, hcase⟩ |
    ⟨hdry, made, ⟨failure, -, hcase⟩ | ⟨hwrite, hcase⟩⟩⟩ := move_cases w config args
  all_goals cases hmove.symm.trans hcase
  · exact ⟨moved, target, hprepare, .inl ⟨hdry, rfl⟩⟩
  · exact ⟨moved, target, hprepare, .inr ⟨hdry, hwrite⟩⟩

/-- A move that fails could not be planned, or its destination could not be written. -/
theorem cases_of_move_error (hmove : move w config args = (.error failure, tree)) :
    (prepareMove w config args = .error failure ∧ tree = w.tree) ∨
      ∃ moved target, prepareMove w config args = .ok (moved, target) ∧ args.dryRun = false ∧
        writeBoth w moved args.file target = (some failure, tree) := by
  obtain ⟨failure, hprepare, hcase⟩ | ⟨moved, target, hprepare, ⟨hdry, hcase⟩ |
    ⟨hdry, made, ⟨failure, hwrite, hcase⟩ | ⟨-, hcase⟩⟩⟩ := move_cases w config args
  all_goals cases hmove.symm.trans hcase
  · exact .inl ⟨hprepare, rfl⟩
  · exact .inr ⟨moved, target, hprepare, hdry, hwrite⟩

/-- A move is refused before anything is written. -/
theorem move_refused_iff {refusal : Refusal} :
    (move w config args).1 = .error (.refused refusal) ↔
      prepareMove w config args = .error (.refused refusal) := by
  constructor
  · intro hrefused
    have hmove : move w config args = (.error (.refused refusal), (move w config args).2) :=
      Prod.ext hrefused rfl
    obtain ⟨hprepare, -⟩ | ⟨moved, target, -, -, hwrite⟩ := cases_of_move_error hmove
    · exact hprepare
    · exact absurd (congrArg Prod.fst hwrite) writeBoth_ne_refused
  · intro hprepare
    rw [move_of_error hprepare]

/-- A run of a move exits with success if the move has an output, and leaves what it leaves. -/
theorem run_move_cases {arguments : List Text} {i : Invocation}
    (hparse : parseArguments arguments = .ok i) (haction : i.action = .move args) :
    ((run w arguments).exit = 0 ∧
        ∃ stdout, move w i.config args = (.ok stdout, (run w arguments).tree)) ∨
      ((run w arguments).exit = 1 ∧
        ∃ failure, move w i.config args = (.error failure, (run w arguments).tree)) := by
  have hrun : runInvocation w i = move w i.config args := by
    rw [runInvocation, haction]
  simp only [run, hparse, hrun]
  obtain ⟨failure | stdout, tree⟩ := move w i.config args
  · exact .inr ⟨rfl, failure, rfl⟩
  · exact .inl ⟨rfl, stdout, rfl⟩

end Move

/-- The move of a file onto itself, however the file and the destination are spelled.  It is refused
exactly when the settings and the file can be read and the normalised destination is spelled like
the file.  A run that only shows the move changes nothing, and a run that fails adds directories at
most, and not even these to a well-formed tree.  Any other run leaves the file without the moved
lines, which are not stored anywhere. -/
theorem run_ontoItself {arguments : List Text} {i : Invocation} {destination : Text}
    (hparse : parseArguments arguments = .ok i) (haction : i.action = .move args)
    (hdestination : args.target = some destination)
    (hsame : OntoItself w args.file destination) :
    ((runInvocation w i).1 = .error (.refused .sameFile) ↔
      (∃ settings, settingsFor w i.config args.file = .ok settings) ∧
        (∃ source, w.tree.read w.cwd args.file = .ok source) ∧
          shownPath args.file = shownPath (destinationPath args.file destination).toText) ∧
      (args.dryRun → (run w arguments).tree = w.tree) ∧
      ((run w arguments).exit ≠ 0 → w.tree.GrownFrom (run w arguments).tree ∧
        (w.tree.WellFormed → (run w arguments).tree = w.tree)) ∧
      ((run w arguments).exit = 0 → args.dryRun = false →
        ∃ moved target, prepareMove w i.config args = .ok (moved, target) ∧
          Overwritten w args.file moved.source (run w arguments).tree) := by
  have hrun : runInvocation w i = move w i.config args := by
    rw [runInvocation, haction]
  refine ⟨?_, ?_⟩
  · rw [hrun, move_refused_iff, prepareMove_sameFile_iff hdestination hsame]
  have hplan : ∀ {moved target}, prepareMove w i.config args = .ok (moved, target) →
      (∃ source, w.tree.read w.cwd args.file = .ok source) ∧
        target = destinationPath args.file destination :=
    fun hprepare => read_of_prepareMove hdestination hprepare
  obtain ⟨hexit, stdout, hmove⟩ | ⟨hexit, failure, hmove⟩ := run_move_cases (w := w) hparse haction
  · obtain ⟨moved, target, hprepare, hcases⟩ := exists_of_move hmove
    obtain ⟨⟨source, hsource⟩, rfl⟩ := hplan hprepare
    refine ⟨fun hdry => ?_, fun hfailed => absurd hexit hfailed, fun _ hwritten => ?_⟩
    · obtain ⟨-, htree⟩ | ⟨hwritten, -⟩ := hcases
      · exact htree
      · rw [hdry] at hwritten
        cases hwritten
    · obtain ⟨hdry, -⟩ | ⟨-, hwrite⟩ := hcases
      · rw [hwritten] at hdry
        cases hdry
      · exact ⟨moved, _, hprepare, hsame.overwritten hsource hwrite⟩
  · obtain ⟨-, htree⟩ | ⟨moved, target, hprepare, hdry, hwrite⟩ := cases_of_move_error hmove
    · rw [htree]
      exact ⟨fun _ => rfl, fun _ => ⟨(Tree.GrownTowards.refl _ []).grownFrom, fun _ => rfl⟩,
        fun hdone => by simp [hexit] at hdone⟩
    · obtain ⟨⟨source, hsource⟩, rfl⟩ := hplan hprepare
      rw [tree_of_writeBoth hwrite]
      refine ⟨fun hshown => ?_, fun _ => ⟨?_, ?_⟩, fun hdone => by simp [hexit] at hdone⟩
      · rw [hdry] at hshown
        cases hshown
      · exact (grownTowards_readyDestination w _).grownFrom
      · exact hsame.readyDestination_tree_eq hsource

def respelledWorld : World :=
  { tree := { entries := [
      (["w".toList], .directory),
      (["w".toList, "a.ts".toList], .file (.text "type A = string;\nconst b = 1;\n".toList))] }
    cwd := ["w".toList]
    userSettings := none
    display := { color := false, pictures := true }
    time := [] }

/-- A command line that moves a declaration of `./a.ts` to `a.ts`. -/
def respelledArguments : List Text :=
  ["move", "./a.ts", "--symbol", "A", "--to", "a.ts", "--on-conflict", "annotate"].map String.toList

def respelledMove : MoveArguments :=
  { file := "./a.ts".toList
    selection := .symbol ['A']
    target := some "a.ts".toList
    dryRun := false
    json := false
    onClash := some .annotate
    reexport := none
    yes := false }

theorem run_ontoItself_respelled :
    (runInvocation respelledWorld ⟨none, 0, .move respelledMove⟩).1 ≠
        .error (.refused .sameFile) ∧
      (run respelledWorld respelledArguments).exit = 0 ∧
        (run respelledWorld respelledArguments).tree.get? ["w".toList, "a.ts".toList] =
          some (.file (.text "const b = 1;\n".toList)) := by
  have hparse : parseArguments respelledArguments = .ok ⟨none, 0, .move respelledMove⟩ := by rfl
  have hsame : OntoItself respelledWorld respelledMove.file "a.ts".toList := by decide
  obtain ⟨hrefused, -⟩ := run_ontoItself hparse rfl rfl hsame
  refine ⟨fun hrun => ?_, by decide +kernel, by decide +kernel⟩
  exact absurd (hrefused.1 hrun).2.2 (by decide)

end Command

end Transplant
