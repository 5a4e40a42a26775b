import Transplant.Move

/-!
# Sessions

A session is a sequence of moves over a set of files.  A move that succeeds stores both of its
texts; a move that is refused changes nothing.
-/

namespace Transplant

/-- Files by path, in the order in which they were first stored. -/
abbrev Files := List (Text × Text)

namespace Files

def read (files : Files) (path : Text) : Text :=
  (files.lookup path).getD []

def write (files : Files) (path text : Text) : Files :=
  match files with
  | [] => [(path, text)]
  | (first, old) :: rest =>
    if first = path then (path, text) :: rest else (first, old) :: write rest path text

theorem read_write (files : Files) (path text other : Text) :
    (files.write path text).read other = if other = path then text else files.read other := by
  induction files with
  | nil =>
    by_cases h : other = path
    · simp [write, read, h]
    · have hbeq : (other == path) = false := by simp [h]
      simp [write, read, h, List.lookup_cons, hbeq]
  | cons entry rest ih =>
    obtain ⟨first, old⟩ := entry
    simp only [read] at ih
    rw [write]
    by_cases hfirst : first = path
    · subst hfirst
      by_cases h : other = first
      · simp [read, h]
      · have hbeq : (other == first) = false := by simp [h]
        simp [read, h, List.lookup_cons, hbeq]
    · by_cases h : other = first
      · subst h
        simp [read, hfirst]
      · have hbeq : (other == first) = false := by simp [h]
        simp [read, hfirst, List.lookup_cons, hbeq, ih]

end Files

/-- One move of a session. -/
structure SessionStep where
  sourcePath : Text
  targetPath : Text
  selection : Selection
  policies : MovePolicies
  outline : Outliner
  confirm : Text → Bool

namespace SessionStep

def move (step : SessionStep) (files : Files) : Move :=
  { sourcePath := step.sourcePath
    targetPath := step.targetPath
    source := files.read step.sourcePath
    target := files.read step.targetPath
    selection := step.selection }

/-- The outcome of a step and the files after it. -/
def run (step : SessionStep) (files : Files) : Except Refusal Moved × Files :=
  match Move.perform (step.move files) step.policies step.outline step.confirm with
  | .error refusal => (.error refusal, files)
  | .ok moved =>
    (.ok moved.asSaved,
      (files.write moved.sourcePath moved.source).write moved.targetPath moved.target)

end SessionStep

/-- The outcomes of the steps of a session and the files after the last. -/
def runSession (files : Files) : List SessionStep → List (Except Refusal Moved) × Files
  | [] => ([], files)
  | step :: rest =>
    let (outcome, files) := step.run files
    let (outcomes, files) := runSession files rest
    (outcome :: outcomes, files)

end Transplant
