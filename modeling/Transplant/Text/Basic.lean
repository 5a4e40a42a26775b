import Transplant.Text.Blank

/-!
# Texts

A text is a list of characters.  Everything the library reads or writes (files, lines, names,
paths) is a text, so scanning is recursion on lists and the statements about it are statements
about lists.

The module holds trimming, cutting at a character or at a phrase, and the two ways to see the
lines of a text: `pieces '\n'`, which loses nothing, and `lines`, which also drops the carriage
return of a line break and the empty piece after a final line break.
-/

namespace Transplant

abbrev Text := List Char

namespace Text

/-! ## Trimming -/

def trimStart (t : Text) : Text :=
  t.dropWhile isBlank

/-- Drops the longest run at the end whose characters all satisfy `p`. -/
def dropEndWhile (p : Char → Bool) (t : Text) : Text :=
  (t.reverse.dropWhile p).reverse

def trimEnd (t : Text) : Text :=
  t.dropEndWhile isBlank

def trim (t : Text) : Text :=
  t.trimStart.trimEnd

/-! ## Phrases at the ends -/

/-- The rest of `t` after `phrase`, if `t` starts with it. -/
def after? : (phrase t : Text) → Option Text
  | [], t => some t
  | _ :: _, [] => none
  | p :: phrase, c :: t => if p = c then after? phrase t else none

theorem after?_eq_some_iff {phrase t rest : Text} :
    after? phrase t = some rest ↔ t = phrase ++ rest := by
  induction phrase generalizing t with
  | nil => simp [after?, eq_comm]
  | cons p phrase ih =>
    cases t with
    | nil => simp [after?]
    | cons c t =>
      by_cases h : p = c
      · simp [after?, h, ih]
      · simp [after?, h, Ne.symm h]

@[simp]
theorem after?_append (phrase rest : Text) : after? phrase (phrase ++ rest) = some rest :=
  after?_eq_some_iff.2 rfl

def startsWith (t phrase : Text) : Bool :=
  (after? phrase t).isSome

def endsWith (t phrase : Text) : Bool :=
  startsWith t.reverse phrase.reverse

theorem startsWith_iff {t phrase : Text} : startsWith t phrase ↔ ∃ rest, t = phrase ++ rest := by
  simp [startsWith, Option.isSome_iff_exists, after?_eq_some_iff]

/-! ## Cutting -/

/-- The parts before and after the first occurrence of `phrase`. -/
def cut? (phrase : Text) : Text → Option (Text × Text)
  | [] => (after? phrase []).map fun rest => ([], rest)
  | c :: t =>
    match after? phrase (c :: t) with
    | some rest => some ([], rest)
    | none => (cut? phrase t).map fun (head, rest) => (c :: head, rest)

/-- Cutting only takes the phrase out. -/
theorem eq_of_cut? {phrase t head rest : Text} (h : cut? phrase t = some (head, rest)) :
    t = head ++ phrase ++ rest := by
  induction t generalizing head with
  | nil =>
    obtain ⟨r, hr, hpair⟩ := Option.map_eq_some_iff.1 h
    cases hpair
    simpa using after?_eq_some_iff.1 hr
  | cons c t ih =>
    rw [cut?] at h
    split at h
    · rename_i r hr
      cases h
      simpa using after?_eq_some_iff.1 hr
    · obtain ⟨⟨first, r⟩, hr, hpair⟩ := Option.map_eq_some_iff.1 h
      cases hpair
      simp [ih hr]

def contains (t phrase : Text) : Bool :=
  (cut? phrase t).isSome

/-- The part before the first occurrence of `phrase`; all of `t` if there is none. -/
def before (phrase t : Text) : Text :=
  match cut? phrase t with
  | some (head, _) => head
  | none => t

/-- The parts of a text between the occurrences of a character.  There is always at least one. -/
def pieces (sep : Char) : Text → List Text
  | [] => [[]]
  | c :: t =>
    if c = sep then [] :: pieces sep t
    else match pieces sep t with
      | [] => [[c]]
      | piece :: rest => (c :: piece) :: rest

theorem pieces_ne_nil (sep : Char) (t : Text) : pieces sep t ≠ [] := by
  cases t with
  | nil => simp [pieces]
  | cons c t =>
    rw [pieces]
    split
    · simp
    · split <;> simp

def join (sep : Text) (parts : List Text) : Text :=
  sep.intercalate parts

@[simp]
theorem join_nil (sep : Text) : join sep [] = [] := rfl

@[simp]
theorem join_singleton (sep part : Text) : join sep [part] = part := by
  simp [join, List.intercalate]

@[simp]
theorem join_cons_cons (sep first second : Text) (parts : List Text) :
    join sep (first :: second :: parts) = first ++ sep ++ join sep (second :: parts) := by
  simp [join, List.intercalate]

/-- Nothing is lost by splitting at a character. -/
@[simp]
theorem join_pieces (sep : Char) (t : Text) : join [sep] (pieces sep t) = t := by
  induction t with
  | nil => simp [pieces]
  | cons c t ih =>
    rw [pieces]
    split
    · rename_i hsep
      cases h : pieces sep t with
      | nil => exact absurd h (pieces_ne_nil sep t)
      | cons piece rest => rw [join_cons_cons, ← h, ih, hsep]; rfl
    · split
      · rename_i h
        exact absurd h (pieces_ne_nil sep t)
      · rename_i piece rest h
        rw [h] at ih
        cases rest with
        | nil => simpa using ih
        | cons second rest => simpa using ih

def replaceChar (t : Text) (old new : Char) : Text :=
  t.map fun c => if c = old then new else c

def expandChar (t : Text) (old : Char) (new : Text) : Text :=
  t.flatMap fun c => if c = old then new else [c]

def byteSize (t : Text) : Nat :=
  t.foldr (fun c size => c.utf8Size + size) 0

@[simp]
theorem byteSize_append (s t : Text) : byteSize (s ++ t) = byteSize s + byteSize t := by
  induction s with
  | nil => exact (Nat.zero_add _).symm
  | cons c s ih =>
    calc
      byteSize (c :: (s ++ t)) = c.utf8Size + byteSize (s ++ t) := rfl
      _ = c.utf8Size + (byteSize s + byteSize t) := by rw [ih]
      _ = byteSize (c :: s) + byteSize t := (Nat.add_assoc ..).symm

/-! ## Lines -/

def dropReturn (line : Text) : Text :=
  if line.getLast? = some '\r' then line.dropLast else line

/-- Lines out of the pieces between line breaks: every piece but the last had a line break after
it, and an empty last piece is no line. -/
def linesOfPieces : List Text → List Text
  | [] => []
  | [last] => if last = [] then [] else [last]
  | piece :: rest => dropReturn piece :: linesOfPieces rest

/-- The lines of a text, without their line breaks.  A carriage return is part of the break only
where a line feed follows, so one at the very end of the text stays. -/
def lines (t : Text) : List Text :=
  linesOfPieces (pieces '\n' t)

/-! ## Words and order -/

def firstWord? (t : Text) : Option Text :=
  match t.trimStart.takeWhile (!isBlank ·) with
  | [] => none
  | word => some word

/-- Order by code points: the dictionary order of the characters. -/
def le : Text → Text → Bool
  | [], _ => true
  | _ :: _, [] => false
  | c :: s, d :: t => if c = d then le s t else c.toNat < d.toNat

/-- Puts a text into a sorted list, once. -/
def insertSorted (t : Text) : List Text → List Text
  | [] => [t]
  | s :: rest =>
    if t = s then s :: rest
    else if le t s then t :: s :: rest
    else s :: insertSorted t rest

theorem mem_insertSorted {t s : Text} {ts : List Text} :
    s ∈ insertSorted t ts ↔ s = t ∨ s ∈ ts := by
  induction ts with
  | nil => simp [insertSorted]
  | cons r rest ih =>
    rw [insertSorted]
    split
    · subst_vars
      simp
    · split
      · simp
      · simp only [List.mem_cons, ih]
        constructor <;> rintro (h | h | h) <;> simp [h]

/-- The texts of a list in order, each once. -/
def sortedSet (ts : List Text) : List Text :=
  ts.foldr insertSorted []

theorem mem_sortedSet {s : Text} {ts : List Text} : s ∈ sortedSet ts ↔ s ∈ ts := by
  induction ts with
  | nil => simp [sortedSet]
  | cons t ts ih =>
    rw [sortedSet, List.foldr_cons, mem_insertSorted, ← sortedSet, ih, List.mem_cons]

end Text

end Transplant
