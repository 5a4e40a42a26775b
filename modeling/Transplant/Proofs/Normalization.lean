import Transplant.Proofs.Destinations

/-!
# Normalisation resolves a path

Normalising looks at the components of a path only, and from every directory the result leads where
the path leads.  It holds no `.`, and `..` at its front only, where nothing is left to take back.
So a path that is written after normalising stays as it is when it is normalised again, and joining
a path to a directory may normalise the directory before or after.

Paths are joined as texts: a separator is put between the two unless the first is empty or ends with
one, and a path that starts at the root replaces the first.
-/

namespace Transplant

open Text

namespace Path

variable {path base rest : Path} {component : Component}

/-! ## The shape of a normalised path -/

/-- A path without `.`, in which `..` stands in a run at the front only, and nowhere below the
root. -/
structure Resolved (path : Path) : Prop where
  noCurrent : .current ∉ path
  parentsInFront : ∃ steps below, path = List.replicate steps .parent ++ below ∧ .parent ∉ below
  noParentBelowRoot : path.isAbsolute → .parent ∉ path

theorem IsNormal.resolved (hpath : path.IsNormal) : path.Resolved := by
  obtain ⟨front, names, rfl, rfl | ⟨steps, rfl⟩⟩ := hpath
  · have hbelow : .parent ∉ [Component.root] ++ names.map .name := by simp
    exact ⟨by simp, ⟨0, _, rfl, hbelow⟩, fun _ => hbelow⟩
  · refine ⟨by simp, ⟨steps, names.map .name, rfl, by simp⟩, fun habsolute => ?_⟩
    -- A path that goes up first does not start at the root.
    cases steps with
    | zero => simp
    | succ steps => simp [isAbsolute, List.replicate_succ] at habsolute

/-- Pushing a component never makes one up. -/
theorem mem_of_mem_push {other : Component} (hother : other ∈ push path component) :
    other ∈ path ∨ other = component := by
  cases component with
  | current => exact .inl hother
  | root => simpa [push] using hother
  | name text => simpa [push] using hother
  | parent =>
      rw [push] at hother
      split at hother
      · simpa using hother
      · simpa using hother
      · exact .inl hother
      · exact .inl (List.dropLast_subset path hother)

theorem mem_of_mem_foldl_push (hmem : component ∈ rest.foldl push base) :
    component ∈ base ∨ component ∈ rest := by
  induction rest generalizing base with
  | nil => exact .inl hmem
  | cons next rest ih =>
      obtain hpushed | hlater := ih hmem
      · exact (mem_of_mem_push hpushed).imp id fun heq => by rw [heq]; exact List.mem_cons_self
      · exact .inr (List.mem_cons_of_mem _ hlater)

/-- A path starts at the root before normalising exactly if it does behind. -/
theorem isAbsolute_normalize_eq (hpath : path.Spelled) :
    path.normalize.isAbsolute = path.isAbsolute := by
  cases habsolute : path.isAbsolute with
  | true => exact isAbsolute_normalize hpath habsolute
  | false =>
      rw [← Bool.not_eq_true, isAbsolute_iff]
      rintro ⟨steps, hsteps⟩
      have hroot : .root ∈ path.normalize := by rw [hsteps]; exact List.mem_cons_self
      obtain hnil | hmem := mem_of_mem_foldl_push hroot
      · cases hnil
      · exact not_mem_root hpath habsolute hmem

/-! ## Where a normalised path leads -/

theorem locate_push (cwd : Location) (hpath : .current ∉ path) (component : Component) :
    Tree.locate cwd (path.push component) = Tree.locate cwd (path ++ [component]) := by
  cases component with
  | root => rfl
  | name text => rfl
  | current => rw [Tree.locate_append]; rfl
  | parent =>
      obtain rfl | ⟨above, last, rfl⟩ := List.eq_nil_or_concat path
      · rfl
      · rw [List.concat_eq_append] at hpath ⊢
        rw [push, List.getLast?_concat, Tree.locate_append, Tree.locate_append]
        cases last with
        | root => simp [Tree.locate_append]
        | current => simp at hpath
        | parent => simp [Tree.locate_append]
        | name text => simp

/-- From every directory, a normalised path leads where the path leads. -/
theorem locate_foldl_push (cwd : Location) (hbase : .current ∉ base) (rest : Path) :
    Tree.locate cwd (rest.foldl push base) = Tree.locate cwd (base ++ rest) := by
  induction rest generalizing base with
  | nil => rw [List.foldl_nil, List.append_nil]
  | cons component rest ih =>
      have hpushed : .current ∉ base.push component := by
        intro hmem
        obtain hmem | rfl := mem_of_mem_push hmem
        · exact hbase hmem
        · exact hbase hmem
      rw [List.foldl_cons, ih hpushed, Tree.locate_append, locate_push cwd hbase,
        ← Tree.locate_append, List.append_assoc, List.singleton_append]

/-! ## Paths joined as texts -/

/-- The text of a path seen from a directory. -/
def joinText (directory path : Text) : Text :=
  if path.head? = some '/' then path else inside directory path

/-- The front of a path by its segments: the root, a `.`, or neither. -/
def frontOf (first : Text) (rest : List Text) : Path :=
  if first = [] ∧ rest ≠ [] then [.root] else if first = ['.'] then [.current] else []

theorem ofText_of_cons {t first : Text} {rest : List Text}
    (hpieces : pieces '/' t = first :: rest) :
    ofText t = frontOf first rest ++ (first :: rest).filterMap component? := by
  rw [ofText, hpieces, frontOf]
  congr 1
  split
  · rename_i heq
    cases heq
    rfl
  · rename_i heq
    cases heq
    rfl
  · rename_i hroot hcurrent
    have hempty : ¬(first = [] ∧ rest ≠ []) := by
      rintro ⟨rfl, hrest⟩
      obtain ⟨second, more, rfl⟩ := List.exists_cons_of_ne_nil hrest
      exact hroot second more rfl
    have hdot : first ≠ ['.'] := by
      rintro rfl
      exact hcurrent rest rfl
    rw [if_neg hempty, if_neg hdot]

/-- Without a separator at its front, a path does not start at the root. -/
theorem frontOf_of_relative {t first : Text} {rest : List Text} (hrelative : t.head? ≠ some '/')
    (hpieces : pieces '/' t = first :: rest) : frontOf first rest ⊆ [.current] := by
  have hempty : ¬(first = [] ∧ rest ≠ []) := by
    rintro ⟨rfl, hrest⟩
    obtain ⟨second, more, rfl⟩ := List.exists_cons_of_ne_nil hrest
    have hjoin := join_pieces '/' t
    rw [hpieces, join_cons_cons] at hjoin
    rw [← hjoin] at hrelative
    exact hrelative rfl
  rw [frontOf, if_neg hempty]
  split <;> simp

theorem isStep_of_mem_filterMap {segments : List Text}
    (hmem : component ∈ segments.filterMap component?) : component.IsStep := by
  obtain ⟨segment, -, hread⟩ := List.mem_filterMap.1 hmem
  exact Component.isStep_of_component? hread

theorem isAbsolute_ofText {t : Text} : (ofText t).isAbsolute ↔ t.head? = some '/' := by
  constructor
  · intro habsolute
    by_contra hrelative
    obtain ⟨first, rest, hpieces⟩ := List.exists_cons_of_ne_nil (pieces_ne_nil '/' t)
    have hroot : .root ∈ ofText t := List.mem_of_head? (of_decide_eq_true habsolute)
    rw [ofText_of_cons hpieces] at hroot
    obtain hfront | hsteps := List.mem_append.1 hroot
    · simpa using frontOf_of_relative hrelative hpieces hfront
    · exact (isStep_of_mem_filterMap hsteps).1 rfl
  · intro hhead
    obtain ⟨rest, rfl⟩ := List.head?_eq_some_iff.1 hhead
    rw [ofText_root]
    exact isAbsolute_iff.2 ⟨_, rfl⟩

/-- Without a `.` at its front, a path is what its segments are read as. -/
theorem filter_ofText {t : Text} (hrelative : t.head? ≠ some '/') :
    (ofText t).filter (· ≠ .current) = (pieces '/' t).filterMap component? := by
  obtain ⟨first, rest, hpieces⟩ := List.exists_cons_of_ne_nil (pieces_ne_nil '/' t)
  have hfront : (frontOf first rest).filter (· ≠ .current) = [] := by
    rw [List.filter_eq_nil_iff]
    intro component hcomponent
    simpa using frontOf_of_relative hrelative hpieces hcomponent
  have hsteps : ((first :: rest).filterMap component?).filter (· ≠ .current) =
      (first :: rest).filterMap component? := by
    rw [List.filter_eq_self]
    intro component hcomponent
    simpa using (isStep_of_mem_filterMap hcomponent).2
  rw [ofText_of_cons hpieces, List.filter_append, hfront, hsteps, hpieces, List.nil_append]

/-- Behind a separator a path goes on with what its next segments are read as. -/
theorem ofText_append_slash (directory path : Text) :
    ofText (directory ++ '/' :: path) =
      ofText (directory ++ ['/']) ++ (pieces '/' path).filterMap component? := by
  obtain ⟨first, rest, hfirst⟩ := List.exists_cons_of_ne_nil (pieces_ne_nil '/' directory)
  have hpieces (more : Text) :
      pieces '/' (directory ++ '/' :: more) = first :: (rest ++ pieces '/' more) := by
    rw [pieces_append_sep, hfirst, List.cons_append]
  have hfront (more : Text) : frontOf first (rest ++ pieces '/' more) = frontOf first [[]] := by
    simp [frontOf, pieces_ne_nil]
  have hnone : (pieces '/' []).filterMap component? = [] := rfl
  rw [ofText_of_cons (hpieces path), ofText_of_cons (hpieces []), hfront, hfront,
    ← List.cons_append, ← List.cons_append, List.filterMap_append, List.filterMap_append, hnone,
    List.append_nil, List.append_assoc]

theorem not_lone_empty {t first : Text} {rest : List Text} (hne : t ≠ [])
    (hpieces : pieces '/' t = first :: rest) : ¬(first = [] ∧ rest = []) := by
  rintro ⟨rfl, rfl⟩
  have hjoin := join_pieces '/' t
  rw [hpieces, join_singleton] at hjoin
  exact hne hjoin.symm

/-- A separator at the end does not show. -/
theorem ofText_slash {directory : Text} (hne : directory ≠ []) :
    ofText (directory ++ ['/']) = ofText directory := by
  obtain ⟨first, rest, hfirst⟩ := List.exists_cons_of_ne_nil (pieces_ne_nil '/' directory)
  have hpieces : pieces '/' (directory ++ ['/']) = first :: (rest ++ [[]]) := by
    rw [pieces_append_sep, hfirst]
    rfl
  have hfront : frontOf first (rest ++ [[]]) = frontOf first rest := by
    by_cases hempty : first = []
    · simp [frontOf, hempty, not_and.1 (not_lone_empty hne hfirst) hempty]
    · simp [frontOf, hempty]
  have hnone : [([] : Text)].filterMap component? = [] := rfl
  rw [ofText_of_cons hpieces, ofText_of_cons hfirst, hfront, ← List.cons_append,
    List.filterMap_append, hnone, List.append_nil]

theorem ofText_ne_nil {t : Text} (hne : t ≠ []) : ofText t ≠ [] := by
  obtain ⟨first, rest, hpieces⟩ := List.exists_cons_of_ne_nil (pieces_ne_nil '/' t)
  rw [ofText_of_cons hpieces]
  by_cases hempty : first = []
  · simp [frontOf, hempty, not_and.1 (not_lone_empty hne hpieces) hempty]
  · by_cases hdot : first = ['.']
    · simp [frontOf, hdot]
    · by_cases hparent : first = ['.', '.'] <;> simp [component?, hempty, hdot, hparent]

/-- What is read from joined texts is what is read from both, joined. -/
theorem ofText_joinText (directory path : Text) :
    ofText (joinText directory path) = join (ofText directory) (ofText path) := by
  by_cases hroot : path.head? = some '/'
  · rw [joinText, if_pos hroot, join, if_pos (isAbsolute_ofText.2 hroot)]
  · rw [joinText, if_neg hroot, join, if_neg (mt isAbsolute_ofText.1 hroot)]
    by_cases hempty : directory = []
    · subst hempty
      rfl
    · have hne : (ofText directory).isEmpty = false := by simpa using ofText_ne_nil hempty
      rw [hne, if_neg Bool.false_ne_true, filter_ofText hroot]
      -- The separator is there already, or it is put in.
      by_cases hslash : directory.getLast? = some '/'
      · obtain ⟨above, rfl⟩ := List.getLast?_eq_some_iff.1 hslash
        have hinside : inside (above ++ ['/']) path = above ++ '/' :: path := by simp [inside]
        rw [hinside, ofText_append_slash]
      · have hinside : inside directory path = directory ++ '/' :: path := by
          simp [inside, hempty, hslash]
        rw [hinside, ofText_append_slash, ofText_slash hempty]

/-! ## Normalising written paths -/

/-- Normalising a path resolves it: the result holds no `.`, and `..` in front only and never below
the root; it starts at the root exactly if the path does, and leads where the path leads.  Written
out and normalised again it stays the same, and a path that is joined to it is resolved as if it
were joined to the path itself. -/
theorem normalize_resolves (a b : Text) :
    let normal := (ofText a).normalize
    normal.Resolved ∧ normal.isAbsolute = (ofText a).isAbsolute ∧
      (∀ cwd, Tree.locate cwd normal = Tree.locate cwd (ofText a)) ∧
      (ofText normal.toText).normalize = normal ∧
      (ofText (joinText a b)).normalize = (ofText (joinText normal.toText b)).normalize := by
  intro normal
  have hspelled : (ofText a).Spelled := spelled_ofText a
  have hnormal : normal.IsNormal := isNormal_normalize hspelled
  have hread : ofText normal.toText = normal := ofText_toText hspelled.normalize
  have hjoin : (ofText (joinText a b)).normalize =
      (ofText (joinText normal.toText b)).normalize := by
    rw [ofText_joinText, ofText_joinText, hread, normalize_join_normalize hspelled]
  refine ⟨hnormal.resolved, isAbsolute_normalize_eq hspelled, fun cwd => ?_, ?_, hjoin⟩
  · exact locate_foldl_push cwd List.not_mem_nil (ofText a)
  · rw [hread, hnormal.normalize_eq]

/-- A `..` that nothing stands in front of stays, and one at the root is lost. -/
example : (ofText "src/../../lib/./x".toList).normalize.toText = "../lib/x".toList ∧
    (ofText "/../a/..//b/".toList).normalize.toText = "/b".toList := by
  decide +kernel

end Path

end Transplant
