import Transplant.ModulePath
import Transplant.Proofs.Statements

/-!
# Characters of module paths

A module path is made of characters of the two file paths, of dots and of slashes.  So a module path
between files whose paths hold no quotation mark and no line break can be written into a statement
and read back.
-/

namespace Transplant.ModulePath

theorem mem_stem {segment : Text} {c : Char} (hc : c ∈ stem segment) : c ∈ segment := by
  unfold stem at hc
  split at hc
  · rename_i d rest hdrop
    have hsuffix := List.dropWhile_suffix (l := segment.reverse) (· ≠ '.')
    rw [hdrop] at hsuffix
    exact List.mem_reverse.1 (hsuffix.subset (List.mem_cons_of_mem _ (List.mem_reverse.1 hc)))
  · exact hc

theorem mem_segments {path segment : Text} {c : Char} (hsegment : segment ∈ segments path)
    (hc : c ∈ segment) : c ∈ path ∨ c = '/' := by
  have hpiece : ∀ piece ∈ (path.replaceChar '\\' '/').pieces '/', c ∈ piece →
      c ∈ path ∨ c = '/' := by
    intro piece hpiece hc
    have hmem := Text.mem_of_mem_pieces hpiece hc
    rw [Text.replaceChar, List.mem_map] at hmem
    obtain ⟨d, hd, heq⟩ := hmem
    split at heq
    · exact .inr heq.symm
    · rw [← heq]
      exact .inl hd
  rw [segments, List.mem_append, List.mem_map] at hsegment
  obtain hfront | ⟨last, hlast, rfl⟩ := hsegment
  · exact hpiece segment ((List.dropLast_sublist _).subset hfront) hc
  · rw [Option.mem_toList] at hlast
    exact hpiece last (List.mem_of_getLast? hlast) (mem_stem hc)

theorem mem_climb {count : Nat} {c : Char} (hc : c ∈ climb count) : c = '.' ∨ c = '/' := by
  rw [climb] at hc
  split at hc
  · simpa using Or.inl hc
  · obtain hsep | ⟨part, hpart, hmem⟩ := Text.mem_join hc
    · exact .inr (by simpa using hsep)
    · rw [List.eq_of_mem_replicate hpart] at hmem
      exact .inl (by simpa using hmem)

/-- The characters of a module path come from the file paths, apart from dots and slashes. -/
theorem mem_relative {source target : Text} {c : Char} (hc : c ∈ relative source target) :
    c ∈ target ∨ c = '.' ∨ c = '/' := by
  have hgoal : ∀ segment ∈ segments target, c ∈ segment → c ∈ target ∨ c = '.' ∨ c = '/' := by
    intro segment hsegment hmem
    obtain h | h := mem_segments hsegment hmem
    · exact .inl h
    · exact .inr (.inr h)
  have hdown : ∀ common, c ∈ Text.join ['/'] ((segments target).drop common) →
      c ∈ target ∨ c = '.' ∨ c = '/' := by
    intro common hmem
    obtain hsep | ⟨part, hpart, hmem⟩ := Text.mem_join hmem
    · exact .inr (.inr (by simpa using hsep))
    · exact hgoal part (List.mem_of_mem_drop hpart) hmem
  simp only [relative] at hc
  split at hc
  · rw [List.mem_append] at hc
    obtain hdot | hlast := hc
    · exact .inr (by simpa using hdot)
    · cases hsegments : (segments target).getLast? with
      | none => simp [hsegments] at hlast
      | some last =>
          rw [hsegments] at hlast
          exact hgoal last (List.mem_of_getLast? hsegments) hlast
  · split at hc
    · exact .inr (mem_climb hc)
    · rw [List.mem_append, List.mem_cons] at hc
      obtain hup | hslash | hrest := hc
      · exact .inr (mem_climb hup)
      · exact .inr (.inr hslash)
      · exact hdown _ hrest

theorem not_mem_relative {source target : Text} {c : Char} (hc : c ∉ target)
    (hdot : c ≠ '.') (hslash : c ≠ '/') : c ∉ relative source target := by
  intro hmem
  obtain h | h | h := mem_relative hmem
  · exact hc h
  · exact hdot h
  · exact hslash h

end Transplant.ModulePath
