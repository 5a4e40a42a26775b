import Transplant.Proofs.ImportResolution

/-!
# Module paths below a common directory

The module path between two files depends on where the files lie relative to each other.  Below any
directory, in either spelling of the separators, two files have the module path that they have
without the directory: the segments of the directory are shared, and shared segments are neither
climbed nor written.  Only the test for a common directory compares texts; it tells the same,
because texts that are joined from non-empty segments are told apart by their segments.
-/

namespace Transplant.ModulePath

def isSeparator (c : Char) : Bool :=
  c == '/' || c == '\\'

/-- A relative path whose segments are all non-empty. -/
def HasSegments (path : Text) : Prop :=
  ∀ segment ∈ (slashed path).pieces '/', segment ≠ []

instance (path : Text) : Decidable (HasSegments path) :=
  List.decidableBAll _ _

theorem slashed_below {sep : Char} (hsep : isSeparator sep) (folder path : Text) :
    slashed (folder ++ sep :: path) = slashed folder ++ '/' :: slashed path := by
  have hslash : (if sep = '\\' then '/' else sep) = '/' := by
    simp only [isSeparator, Bool.or_eq_true, beq_iff_eq] at hsep
    obtain rfl | rfl := hsep <;> rfl
  simp [slashed, Text.replaceChar, hslash]

theorem segments_ne_nil (path : Text) : segments path ≠ [] := by
  obtain ⟨folder, file, hnames⟩ := exists_names path
  rw [segments_eq hnames]
  simp

/-- The segments of a path below a directory. -/
theorem segments_below {sep : Char} (hsep : isSeparator sep) (folder path : Text) :
    segments (folder ++ sep :: path) = (slashed folder).pieces '/' ++ segments path := by
  have hpieces : (slashed (folder ++ sep :: path)).pieces '/' =
      (slashed folder).pieces '/' ++ (slashed path).pieces '/' := by
    rw [slashed_below hsep, Text.pieces_append_sep]
  have hne := Text.pieces_ne_nil '/' (slashed path)
  rw [segments, segments, ← slashed, ← slashed, hpieces, List.dropLast_append_of_ne_nil hne,
    List.getLast?_append_of_ne_nil _ hne, List.append_assoc]

/-- The directories of a path are pieces of its text. -/
theorem mem_folder {path segment : Text} (hsegment : segment ∈ (segments path).dropLast) :
    segment ∈ (slashed path).pieces '/' := by
  obtain ⟨folder, file, hnames⟩ := exists_names path
  rw [segments_eq hnames, ← List.append_assoc, List.dropLast_concat] at hsegment
  rw [pieces_slashed, hnames, ← List.append_assoc]
  exact List.mem_append_left _ hsegment

section Below

variable {source target : Text}

theorem HasSegments.folder {path : Text} (hpath : HasSegments path) :
    ∀ segment ∈ (segments path).dropLast, segment ≠ [] ∧ '/' ∉ segment := by
  intro segment hsegment
  have hmem := mem_folder hsegment
  exact ⟨hpath segment hmem, Text.not_mem_of_mem_pieces hmem⟩

/-- Two files below a directory lie in the same directory exactly if they do so without it. -/
theorem directory_below_iff (hsource : HasSegments source) (htarget : HasSegments target)
    {front : List Text} (hfront : ∀ segment ∈ front, '/' ∉ segment) :
    directory (front ++ segments source) = directory (front ++ segments target) ↔
      directory (segments source) = directory (segments target) := by
  have hnone : ∀ segment ∈ ([] : List Text), '/' ∉ segment := by simp
  rw [directory, directory, directory, directory,
    List.dropLast_append_of_ne_nil (segments_ne_nil source),
    List.dropLast_append_of_ne_nil (segments_ne_nil target),
    Text.join_append_inj hfront hsource.folder htarget.folder]
  exact (Text.join_append_inj hnone hsource.folder htarget.folder).symm

/-- Two files have the same module path below a directory as without it.  The two paths may spell
the directory and the separator behind it differently. -/
theorem relative_below (folder folder' source target : Text) {sep sep' : Char}
    (hfolder : slashed folder = slashed folder') (hsep : isSeparator sep) (hsep' : isSeparator sep')
    (hsource : HasSegments source) (htarget : HasSegments target) :
    relative (folder ++ sep :: source) (folder' ++ sep' :: target) = relative source target := by
  have hfront : ∀ segment ∈ (slashed folder').pieces '/', '/' ∉ segment :=
    fun _ => Text.not_mem_of_mem_pieces
  have hlast : ((slashed folder').pieces '/' ++ segments target).getLast? =
      (segments target).getLast? := List.getLast?_append_of_ne_nil _ (segments_ne_nil target)
  rw [relative, relative, segments_below hsep, segments_below hsep', hfolder]
  simp only [directory_below_iff hsource htarget hfront, hlast, shared_append, List.length_append,
    List.drop_length_add_append, Nat.add_sub_add_left]

/-- The same two files below a directory that is spelled in two ways, and without it. -/
theorem relative_below_mixed :
    relative "C:\\app/src\\ui\\a.ts".toList "C:/app\\src/model/b.ts".toList =
        relative "src\\ui\\a.ts".toList "src/model/b.ts".toList ∧
      relative "src\\ui\\a.ts".toList "src/model/b.ts".toList = "../model/b".toList := by
  have hslash : isSeparator '/' := by decide
  have hbackslash : isSeparator '\\' := by decide
  exact ⟨relative_below "C:\\app".toList "C:/app".toList "src\\ui\\a.ts".toList
    "src/model/b.ts".toList (by decide) hslash hbackslash (by decide) (by decide), by decide⟩

end Below

end Transplant.ModulePath
