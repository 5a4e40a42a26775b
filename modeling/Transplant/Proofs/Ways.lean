import Transplant.Proofs.Trees

/-!
# Ways

The way from one path to another goes up as far as the two do not share their components, and down
the rest of the other.  Followed from where it starts it leads where the other path leads: the steps
up take back just what is not shared.  This holds of a path that is still to be normalised as well.
-/

namespace Transplant

namespace Path

variable {base path : Path}

theorem normalize_ofLocation (location : Location) :
    (ofLocation location).normalize = ofLocation location :=
  normalize_ofNames true location

/-- Two paths are the same as far as they share their components. -/
theorem take_shared (base path : Path) :
    base.take (shared base path) = path.take (shared base path) := by
  induction base generalizing path with
  | nil => simp [shared]
  | cons component base ih =>
      cases path with
      | nil => simp [shared]
      | cons other path =>
          by_cases heq : component = other
          · simp [shared, heq, ih]
          · simp [shared, heq]

theorem shared_le_length (base path : Path) : shared base path ≤ base.length := by
  induction base generalizing path with
  | nil => simp [shared]
  | cons component base ih =>
      cases path with
      | nil => simp [shared]
      | cons other path =>
          rw [shared, List.length_cons]
          split
          · exact Nat.succ_le_succ (ih path)
          · exact Nat.zero_le _

/-- The way to a path: steps up to what is shared, and the rest of the path. -/
def stepsTo (base path : Path) : Path :=
  List.replicate (base.length - shared base path) .parent ++ path.drop (shared base path)

theorem steps_stepsTo (hrest : ∀ component ∈ path.drop (shared base path),
    component.IsSegment ∧ component.IsStep) :
    ∀ component ∈ stepsTo base path, component.IsSegment ∧ component.IsStep := by
  intro component hcomponent
  obtain hup | hdown := List.mem_append.1 hcomponent
  · rw [List.eq_of_mem_replicate hup]
    exact ⟨trivial, by simp [Component.IsStep]⟩
  · exact hrest component hdown

/-- What is read when a way is followed. -/
theorem ofText_wayTo (hrest : ∀ component ∈ path.drop (shared base path),
    component.IsSegment ∧ component.IsStep) : ofText (wayTo base path) = stepsTo base path := by
  have hsteps := steps_stepsTo hrest
  have hroot : .root ∉ stepsTo base path := fun hmem => (hsteps .root hmem).2.1 rfl
  have hway : wayTo base path = (stepsTo base path).toText := by
    rw [toText_of_not_mem hroot, stepsTo, List.map_append, List.map_replicate]
    rfl
  rw [hway]
  simpa using ofText_toText (spelled_nil.append hsteps)

theorem normalize_take_drop (path : Path) (count : Nat) :
    (path.drop count).foldl push (normalize (path.take count)) = path.normalize := by
  rw [normalize, normalize, ← List.foldl_append, List.take_append_drop]

/-- The steps of a way, taken from the place that it starts in, lead where the path leads. -/
theorem foldl_push_stepsTo (folder : Location) (hpath : path.isAbsolute) :
    (stepsTo (ofLocation folder) path).foldl push (ofLocation folder) = path.normalize := by
  obtain ⟨rest, rfl⟩ := isAbsolute_iff.1 hpath
  -- Both paths start at the root, so they share it and some names.
  obtain ⟨common, hshared⟩ : ∃ common, shared (ofLocation folder) (.root :: rest) = common + 1 :=
    ⟨_, if_pos rfl⟩
  have htake := take_shared (ofLocation folder) (.root :: rest)
  have hle := shared_le_length (ofLocation folder) (.root :: rest)
  rw [hshared] at htake hle
  have hlength : (ofLocation folder).length = folder.length + 1 := by simp [ofLocation]
  have hup : (List.replicate (folder.length - common) .parent).foldl push (ofLocation folder) =
      (ofLocation folder).take (common + 1) := by
    have hparents := foldl_push_parents true (Nat.sub_le folder.length common)
    rw [Nat.sub_sub_self (by omega)] at hparents
    simpa [ofNames, ofLocation] using hparents
  have hnormal : normalize ((ofLocation folder).take (common + 1)) =
      (ofLocation folder).take (common + 1) := by
    have htaken : (ofLocation folder).take (common + 1) = ofLocation (folder.take common) := by
      simp [ofLocation]
    rw [htaken, normalize_ofLocation]
  calc
    (stepsTo (ofLocation folder) (.root :: rest)).foldl push (ofLocation folder) =
        (List.drop (common + 1) (.root :: rest)).foldl push
          ((List.replicate (folder.length - common) .parent).foldl push (ofLocation folder)) := by
      rw [stepsTo, hshared, hlength, Nat.add_sub_add_right, List.foldl_append]
    _ = (List.drop (common + 1) (.root :: rest)).foldl push
          (normalize (List.take (common + 1) (.root :: rest))) := by
      rw [hup, ← htake, hnormal]
    _ = normalize (.root :: rest) := normalize_take_drop _ _

/-- The way to a path leads there from the place that it starts in, whatever of the path is still to
be normalised. -/
theorem normalize_join_wayTo (folder : Location) (hspelled : path.Spelled)
    (hpath : path.isAbsolute) :
    (Path.join (ofLocation folder) (.ofText (wayTo (ofLocation folder) path))).normalize =
      path.normalize := by
  have hrest : ∀ component ∈ path.drop (shared (ofLocation folder) path),
      component.IsSegment ∧ component.IsStep := by
    intro component hcomponent
    obtain ⟨rest, hrest⟩ := isAbsolute_iff.1 hpath
    have htail : component ∈ path.tail := by
      rw [hrest, ofLocation, shared, if_pos rfl, List.drop_succ_cons] at hcomponent
      rw [hrest]
      exact List.mem_of_mem_drop hcomponent
    exact ⟨hspelled.segments component (List.mem_of_mem_tail htail), hspelled.steps component htail⟩
  have hrelative : (stepsTo (ofLocation folder) path).isAbsolute = false := by
    rw [Bool.eq_false_iff]
    intro habsolute
    obtain ⟨below, hbelow⟩ := isAbsolute_iff.1 habsolute
    exact (steps_stepsTo hrest .root (hbelow ▸ List.mem_cons_self)).2.1 rfl
  rw [ofText_wayTo hrest, Path.join, if_neg (by simp [hrelative]), if_neg (by simp [ofLocation]),
    normalize, List.foldl_append, ← normalize, normalize_ofLocation, foldl_push_filter,
    foldl_push_stepsTo folder hpath]

/-- From nowhere, the way to a path is the path. -/
theorem ofText_wayTo_nil (hspelled : path.Spelled) : ofText (wayTo [] path) = path := by
  by_cases hpath : path.isAbsolute
  · obtain ⟨rest, rfl⟩ := isAbsolute_iff.1 hpath
    have hrest : ∀ component ∈ rest, component.IsSegment ∧ component.IsStep :=
      fun component hcomponent =>
        ⟨hspelled.segments component (List.mem_cons_of_mem _ hcomponent),
          hspelled.steps component hcomponent⟩
    obtain rfl | hne := eq_or_ne rest []
    · rfl
    · -- The root is written as a segment, so the text starts with two slashes.
      have hway : wayTo [] (.root :: rest) =
          '/' :: '/' :: Text.join ['/'] (rest.map Component.text) := by
        obtain ⟨first, more, rfl⟩ := List.exists_cons_of_ne_nil hne
        rfl
      rw [hway, ofText_root, Text.pieces_cons_sep, List.filterMap_cons_none rfl,
        pieces_steps hne fun component hcomponent =>
          ⟨(hrest component hcomponent).1, (hrest component hcomponent).2.1⟩,
        filterMap_component? hrest]
  · have hroot := not_mem_root hspelled (Bool.eq_false_iff.2 hpath)
    have hway : wayTo [] path = path.toText := by
      rw [toText_of_not_mem hroot]
      simp [wayTo, shared]
    rw [hway, ofText_toText hspelled]

/-- The way to a place leads there. -/
theorem normalize_join_wayTo_ofLocation (folder : Location) {place : Location}
    (hplace : AreNames place) :
    (Path.join (ofLocation folder)
      (.ofText (wayTo (ofLocation folder) (ofLocation place)))).normalize = ofLocation place := by
  have hspelled : (ofLocation place).Spelled := hplace.spelled_ofNames true
  rw [normalize_join_wayTo folder hspelled rfl, normalize_ofLocation]

end Path

end Transplant
