import Transplant.Proofs.Respelling
import Transplant.Proofs.Trees

/-!
# What a run does to the files

A run changes files in one way only, by a move that succeeds and is not just shown.  Such a move
leaves the two texts that were planned at the places of its two files, adds the directories on the
way to the destination and touches nothing else.  The plan is made from what stands at these places,
because in a well-formed tree the normalised path of the destination leads to whatever is there.
-/

namespace Transplant

namespace Tree

/-- A path where a file can be put can be followed. -/
theorem pathFault?_of_placeFault? {path : Path} (hpath : path.Spelled)
    (hplace : placeFault? path = none) : pathFault? path.toText = none := by
  simp only [placeFault?] at hplace
  split_ifs at hplace with hnul hlong hempty
  refine pathFault?_eq_none_iff.2 ⟨Bool.eq_false_iff.2 hnul, ?_, ?_⟩
  · exact Bool.eq_false_iff.2 fun h => hlong (.inl h)
  · intro hnil
    have hread := Path.ofText_toText hpath
    rw [hnil] at hread
    exact hempty (List.isEmpty_iff.2 hread.symm)

theorem isLongName_of_placeFault? {directory : Path} {name : Text}
    (hplace : placeFault? (directory ++ [.name name]) = none) : isLongName name = false := by
  simp only [placeFault?] at hplace
  split_ifs at hplace with hnul hlong hempty
  refine Bool.eq_false_iff.2 fun h => hlong (.inr ?_)
  rw [Path.fileName?, List.getLast?_concat]
  exact h

end Tree

namespace Command

variable {w : World} {config : Option Text} {args : MoveArguments} {file target source : Text}

/-! ## The destination -/

/-- The text that a plan starts from is what stands at the place of the destination. -/
theorem get?_of_destinationText {text : Text} (htree : w.tree.WellFormed)
    (hsource : w.tree.read w.cwd file = .ok source)
    (hfault : Tree.pathFault? (destinationPath file target).toText = none)
    (htext : destinationText w (destinationPath file target) = .ok text) :
    w.tree.get? (Tree.locate w.cwd (destinationPath file target)) = some (.file (.text text)) ∨
      w.tree.get? (Tree.locate w.cwd (destinationPath file target)) = none ∧ text = [] := by
  have hspelled := spelled_destinationPath file target
  rw [destinationText] at htext
  split at htext
  · obtain ⟨place, hresolve, hentry⟩ := Tree.read_eq_ok_iff.1 (eq_ok_of_mapError htext)
    rw [Tree.locate_of_resolve hresolve, Path.ofText_toText hspelled] at hentry
    exact .inl hentry
  · rename_i hexists
    cases htext
    refine .inr ⟨?_, rfl⟩
    by_contra hsome
    have hresolve := htree.resolve_toText hspelled (isNormal_destinationPath file target) hfault
      (directory_startOf_destination hsource target) (Option.isSome_iff_ne_none.2 hsome)
    rw [Tree.pathExists, hresolve] at hexists
    exact hexists rfl

/-! ## What is written -/

/-- What `after` holds once a move is written: its two texts, directories that were made on the way
to the destination, and everything else as it was. -/
structure Stored (before after : Tree) (place destination : Location) (moved : Moved) : Prop where
  source : after.get? place = some (.file (.text moved.source))
  target : after.get? destination = some (.file (.text moved.target))
  others : ∀ other, other ≠ place → other ≠ destination →
    after.get? other = before.get? other ∨
      before.get? other = none ∧ after.get? other = some .directory ∧ other <+: destination

/-- Where two files stand in a tree, both can be written. -/
theorem stored_insert {before made : Tree} {folder place : Location} {name : Text}
    (hmade : before.GrownTowards made folder) (hplace : place ≠ [])
    (hdifferent : place ≠ folder ++ [name]) (moved : Moved) :
    Stored before
      ((made.insert (folder ++ [name]) (.file (.text moved.target))).insert place
        (.file (.text moved.source))) place (folder ++ [name]) moved := by
  have hdestination : folder ++ [name] ≠ [] := by simp
  constructor
  · rw [Tree.get?_insert _ _ _ _ hplace, if_pos rfl]
  · rw [Tree.get?_insert _ _ _ _ hplace, if_neg hdifferent.symm,
      Tree.get?_insert _ _ _ _ hdestination, if_pos rfl]
  · intro other hsource htarget
    rw [Tree.get?_insert _ _ _ _ hplace, if_neg hsource, Tree.get?_insert _ _ _ _ hdestination,
      if_neg htarget]
    obtain hkept | ⟨hnone, hadded, hway⟩ := hmade other
    · exact .inl hkept
    · exact .inr ⟨hnone, hadded, hway.trans (List.prefix_append ..)⟩

/-- A file is put into a directory and another one is written over. -/
theorem wellFormed_insert {made : Tree} {folder place : Location} {name : Text} {content : Content}
    (hmade : made.WellFormed) (hfolder : made.get? folder = some .directory)
    (hname : Tree.isLongName name = false) (hfree : made.get? (folder ++ [name]) ≠ some .directory)
    (hplace : made.get? place = some (.file content)) (target source : Content) :
    ((made.insert (folder ++ [name]) (.file target)).insert place (.file source)).WellFormed := by
  have hkept : ∃ content, (made.insert (folder ++ [name]) (.file target)).get? place =
      some (.file content) := by
    rw [Tree.get?_insert _ _ _ _ (by simp)]
    split
    · exact ⟨target, rfl⟩
    · exact ⟨content, hplace⟩
  obtain ⟨content, hcontent⟩ := hkept
  exact (hmade.insert hfolder hname (.inr hfree)).insert_file hcontent

/-- Writing a move whose destination is not a directory. -/
theorem stored_of_writeBoth {moved : Moved} {tree : Tree} (htree : w.tree.WellFormed)
    (hsource : w.tree.read w.cwd file = .ok source)
    (hfree : w.tree.get? (Tree.locate w.cwd (destinationPath file target)) ≠ some .directory)
    (hwrite : writeBoth w moved file (destinationPath file target) = (none, tree)) :
    ∃ place, w.tree.resolve w.cwd file = .ok place ∧
      w.tree.get? place = some (.file (.text source)) ∧ tree.WellFormed ∧
      (place ≠ Tree.locate w.cwd (destinationPath file target) →
        Stored w.tree tree place (Tree.locate w.cwd (destinationPath file target)) moved) := by
  obtain ⟨directory, name, hname⟩ := htree.exists_of_not_directory
    (spelled_destinationPath file target) (isNormal_destinationPath file target)
    (directory_startOf_destination hsource target) hfree
  obtain ⟨place, hready, hresolve, rfl⟩ := steps_of_writeBoth hwrite
  have hgrown := grownTowards_readyDestination w (destinationPath file target)
  obtain ⟨hdone, hfault⟩ := readyDestination_eq_none_iff.1 hready
  obtain ⟨hwell, hdirectory⟩ :=
    htree.makeDirectories w.cwd (destinationFolder (destinationPath file target))
  replace hdirectory := hdirectory hdone
  rw [← readyDestination_tree] at hwell hdirectory
  have hlocate : Tree.locate w.cwd (destinationPath file target) =
      Tree.locate w.cwd (destinationFolder (destinationPath file target)) ++ [name] := by
    rw [hname, locate_destinationFolder, Tree.locate_append]
    rfl
  have hentry : w.tree.get? place = some (.file (.text source)) := by
    obtain ⟨own, hown, hentry⟩ := Tree.read_eq_ok_iff.1 hsource
    cases hresolve.symm.trans hown
    exact hentry
  rw [hname] at hfault
  generalize (readyDestination w (destinationPath file target)).2 = made at *
  generalize Tree.locate w.cwd (destinationFolder (destinationPath file target)) = folder at *
  -- The new directories end above the destination, so it is as free as it was.
  have hsame : made.get? (folder ++ [name]) = w.tree.get? (folder ++ [name]) := by
    obtain hkept | ⟨-, -, hway⟩ := hgrown (folder ++ [name])
    · exact hkept
    · have hlength := hway.length_le
      rw [List.length_append, List.length_singleton] at hlength
      omega
  rw [hlocate] at hfree ⊢
  refine ⟨place, hresolve, hentry, ?_, fun hdifferent => ?_⟩
  · apply wellFormed_insert hwell hdirectory (Tree.isLongName_of_placeFault? hfault)
    · rwa [hsame]
    · obtain hkept | ⟨hnone, -⟩ := hgrown place
      · exact hkept.trans hentry
      · rw [hentry] at hnone
        cases hnone
  · refine stored_insert hgrown ?_ hdifferent moved
    rintro rfl
    cases hentry

/-! ## The run -/

section Run

variable {arguments : List Text} {i : Invocation}

def AsksToWrite (arguments : List Text) (i : Invocation) (args : MoveArguments) : Prop :=
  parseArguments arguments = .ok i ∧ i.action = .move args ∧ args.dryRun = false

theorem exists_of_asksToWrite (hasks : AsksToWrite arguments i args)
    (hexit : (run w arguments).exit = 0) :
    ∃ moved target, prepareMove w i.config args = .ok (moved, target) ∧
      writeBoth w moved args.file target = (none, (run w arguments).tree) := by
  obtain ⟨hparse, haction, hdry⟩ := hasks
  obtain ⟨-, stdout, hmove⟩ | ⟨hfailed, -⟩ := run_move_cases (w := w) hparse haction
  · obtain ⟨moved, target, hprepare, ⟨hshown, -⟩ | ⟨-, hwrite⟩⟩ := exists_of_move hmove
    · rw [hdry] at hshown
      cases hshown
    · exact ⟨moved, target, hprepare, hwrite⟩
  · rw [hexit] at hfailed
    cases hfailed

/-- A run can leave anything new only where it is asked to write a move, and where it fails, only
directories for the destination of a move that is planned. -/
theorem tree_run_cases (w : World) (arguments : List Text) :
    (run w arguments).tree = w.tree ∨
      ∃ i args, AsksToWrite arguments i args ∧ ((run w arguments).exit = 0 ∨
        ∃ moved target, prepareMove w i.config args = .ok (moved, target) ∧
          (run w arguments).tree = (readyDestination w target).2) := by
  cases hparse : parseArguments arguments with
  | error stop =>
      left
      rw [run, hparse]
      cases stop <;> rfl
  | ok i =>
      cases haction : i.action with
      | move args =>
          obtain ⟨hexit, stdout, hmove⟩ | ⟨-, failure, hmove⟩ :=
            run_move_cases (w := w) hparse haction
          · obtain ⟨moved, target, -, ⟨-, hshown⟩ | ⟨hdry, -⟩⟩ := exists_of_move hmove
            · exact .inl hshown
            · exact .inr ⟨i, args, ⟨hparse, haction, hdry⟩, .inl hexit⟩
          · obtain ⟨-, hkept⟩ | ⟨moved, target, hprepare, hdry, hwrite⟩ :=
              cases_of_move_error hmove
            · exact .inl hkept
            · exact .inr ⟨i, args, ⟨hparse, haction, hdry⟩,
                .inr ⟨moved, target, hprepare, tree_of_writeBoth hwrite⟩⟩
      | browse args =>
          left
          simp only [run, hparse, runInvocation, haction]
          cases browse w i.config args <;> rfl
      | path source target =>
          left
          simp only [run, hparse, runInvocation, haction]

/-- What is left of a move that was planned and could not be written: directories may have been made
on the way to its destination. -/
def GivenUp (w : World) (arguments : List Text) (after : Tree) : Prop :=
  ∃ i args moved target, AsksToWrite arguments i args ∧
    prepareMove w i.config args = .ok (moved, target) ∧
      w.tree.GrownTowards after (Tree.locate w.cwd (destinationFolder target))

theorem GivenUp.sameFiles {after : Tree} (hgiven : GivenUp w arguments after) :
    w.tree.SameFiles after := by
  obtain ⟨i, args, moved, target, -, -, hgrown⟩ := hgiven
  exact hgrown.grownFrom.sameFiles

/-- A run that is not asked to write a move leaves what it found. -/
theorem tree_run_eq (hasks : ∀ i args, ¬ AsksToWrite arguments i args) :
    (run w arguments).tree = w.tree := by
  obtain hkept | ⟨i, args, hasked, -⟩ := tree_run_cases w arguments
  · exact hkept
  · exact absurd hasked (hasks i args)

theorem tree_run_of_failed (hexit : (run w arguments).exit ≠ 0) :
    (run w arguments).tree = w.tree ∨ GivenUp w arguments (run w arguments).tree := by
  obtain hkept | ⟨i, args, hasks, hdone | ⟨moved, target, hprepare, hleft⟩⟩ :=
    tree_run_cases w arguments
  · exact .inl hkept
  · exact absurd hdone hexit
  · refine .inr ⟨i, args, moved, target, hasks, hprepare, ?_⟩
    rw [hleft]
    exact grownTowards_readyDestination w target

/-- A plan for the file at `place` and the destination `target`, made from the texts that stand at
their places.  A destination that does not exist counts as empty. -/
def PlannedFrom (w : World) (config : Option Text) (args : MoveArguments) (place : Location)
    (target : Path) (moved : Moved) : Prop :=
  ∃ settings wanted source text, settingsFor w config args.file = .ok settings ∧
    wantedTarget w args settings = .ok wanted ∧ target = destinationPath args.file wanted ∧
    w.tree.resolve w.cwd args.file = .ok place ∧
    w.tree.get? place = some (.file (.text source)) ∧
    (w.tree.get? (Tree.locate w.cwd target) = some (.file (.text text)) ∨
      w.tree.get? (Tree.locate w.cwd target) = none ∧ text = []) ∧
    (requested args target source text).perform (policiesFor args settings) Outline.heuristic
      (confirms w args target) = .ok moved

theorem stored_of_asksToWrite (htree : w.tree.WellFormed) (hasks : AsksToWrite arguments i args)
    (hexit : (run w arguments).exit = 0) :
    (run w arguments).tree.WellFormed ∧
      ∃ place target moved, PlannedFrom w i.config args place target moved ∧
        (place ≠ Tree.locate w.cwd target →
          Stored w.tree (run w arguments).tree place (Tree.locate w.cwd target) moved) := by
  obtain ⟨moved, target, hprepare, hwrite⟩ := exists_of_asksToWrite hasks hexit
  obtain ⟨settings, source, wanted, text, hsettings, hsource, hwanted, rfl, htext, hperform⟩ :=
    exists_of_prepareMove hprepare
  obtain ⟨-, hready, -⟩ := steps_of_writeBoth hwrite
  have hfault := (readyDestination_eq_none_iff.1 hready).2
  have hfound := get?_of_destinationText htree hsource
    (Tree.pathFault?_of_placeFault? (spelled_destinationPath _ _) hfault) htext
  have hfree : w.tree.get? (Tree.locate w.cwd (destinationPath args.file wanted)) ≠
      some .directory := by
    obtain hfile | ⟨hnone, -⟩ := hfound
    · rw [hfile]
      simp
    · rw [hnone]
      simp
  obtain ⟨place, hplace, hentry, hwell, hstored⟩ :=
    stored_of_writeBoth htree hsource hfree hwrite
  exact ⟨hwell, place, _, moved,
    ⟨settings, wanted, source, text, hsettings, hwanted, rfl, hplace, hentry, hfound, hperform⟩,
    hstored⟩

/-- Runs keep a tree well-formed, also where they fail. -/
theorem wellFormed_run (htree : w.tree.WellFormed) : (run w arguments).tree.WellFormed := by
  obtain hkept | ⟨i, args, hasks, hdone | ⟨moved, target, -, hleft⟩⟩ :=
    tree_run_cases w arguments
  · rwa [hkept]
  · exact (stored_of_asksToWrite htree hasks hdone).1
  · rw [hleft, readyDestination_tree]
    exact (htree.makeDirectories w.cwd _).1

end Run

/-- The files after a run.  A run that is not asked for a move or only shows it leaves everything as
it was.  So does a run that fails, except that directories may have been made on the way to the
destination of a move that was planned; every file is as it was.  Any other run in a well-formed
tree has planned its move from the texts of the source and of the destination, and if these are
different files, it leaves the two planned texts in them and every other file as it was.  The tree
stays well-formed. -/
theorem run_files (w : World) (arguments : List Text) :
    ((∀ i args, ¬ AsksToWrite arguments i args) → (run w arguments).tree = w.tree) ∧
    ((run w arguments).exit ≠ 0 → w.tree.SameFiles (run w arguments).tree ∧
      ((run w arguments).tree = w.tree ∨ GivenUp w arguments (run w arguments).tree)) ∧
    (w.tree.WellFormed →
      (run w arguments).tree.WellFormed ∧
      ∀ i args, AsksToWrite arguments i args → (run w arguments).exit = 0 →
        ∃ place target moved, PlannedFrom w i.config args place target moved ∧
          (place ≠ Tree.locate w.cwd target →
            Stored w.tree (run w arguments).tree place (Tree.locate w.cwd target) moved)) := by
  refine ⟨tree_run_eq, fun hexit => ⟨?_, tree_run_of_failed hexit⟩, fun htree =>
    ⟨wellFormed_run htree, fun i args hasks hdone => (stored_of_asksToWrite htree hasks hdone).2⟩⟩
  obtain hkept | hgiven := tree_run_of_failed hexit
  · rw [hkept]
    exact fun _ _ => Iff.rfl
  · exact hgiven.sameFiles

/-- A command line that moves a type to a file whose name is too long, in a new directory. -/
def longArguments : List Text :=
  ["move".toList, "a.ts".toList, "--symbol".toList, ['A'], "--to".toList,
    "new/".toList ++ List.replicate 256 'x']

theorem run_files_linked :
    ((run linkedWorld longArguments).exit = 1 ∧
      linkedWorld.tree.SameFiles (run linkedWorld longArguments).tree ∧
      (run linkedWorld longArguments).tree.get? ["w".toList, "new".toList] = some .directory) ∧
    (run linkedWorld (linkedArguments "a.ts")).tree.WellFormed ∧
      (∃ moved, Stored linkedWorld.tree (run linkedWorld (linkedArguments "a.ts")).tree
        ["w".toList, "a.ts".toList] ["w".toList, "b.ts".toList] moved) ∧
      (run linkedWorld (linkedArguments "a.ts")).tree.get? ["w".toList, "b.ts".toList] =
        some (.file (.text "export type A = string;\n".toList)) := by
  have htree : linkedWorld.tree.WellFormed := Tree.wellFormed_of_entries (by decide)
  have hasks : AsksToWrite (linkedArguments "a.ts") ⟨none, 0, .move (linkedMove "a.ts")⟩
      (linkedMove "a.ts") := ⟨rfl, rfl, rfl⟩
  obtain ⟨-, -, hfiles⟩ := run_files linkedWorld (linkedArguments "a.ts")
  obtain ⟨hwell, hwritten⟩ := hfiles htree
  obtain ⟨place, target, moved, ⟨settings, wanted, source, text, -, hwanted, htarget, hplace, -⟩,
    hstored⟩ := hwritten _ _ hasks (by decide +kernel)
  have hfile : linkedWorld.tree.resolve linkedWorld.cwd (linkedMove "a.ts").file =
      .ok ["w".toList, "a.ts".toList] := by decide
  cases hplace.symm.trans hfile
  cases hwanted
  have hgoal : destinationPath "a.ts".toList "b.ts".toList = [.name "b.ts".toList] := by decide
  obtain rfl : target = [.name "b.ts".toList] := htarget.trans hgoal
  have hexit : (run linkedWorld longArguments).exit = 1 := by decide +kernel
  have hfailed : (run linkedWorld longArguments).exit ≠ 0 := by
    rw [hexit]
    decide
  exact ⟨⟨hexit, ((run_files linkedWorld longArguments).2.1 hfailed).1, by decide +kernel⟩, hwell,
    ⟨moved, hstored (by decide)⟩, by decide +kernel⟩

end Command

end Transplant
