import Transplant.Declaration.Head

/-!
# Method lines

Inside a class an indented line that looks like a call with a name in front of it starts a method:
modifiers, a name, optional type parameters and an opening parenthesis.
-/

namespace Transplant.Method

def modifiers : List String :=
  ["public", "private", "protected", "static", "readonly", "async", "abstract", "override", "get",
    "set"]

def controlWords : List Text :=
  ["if".toList, "for".toList, "while".toList, "switch".toList, "catch".toList, "return".toList]

def modifier? (t : Text) : Option Text :=
  modifiers.findSome? (Head.keyword? · t)

/-- Skips type parameters; an unclosed list of them leaves nothing. -/
def skipTypeParameters (t : Text) : Text :=
  match t with
  | '<' :: rest => Text.trimStart (rest.dropWhile (· ≠ '>')).tail
  | _ => t

/-- The name at the front, if a parenthesis follows it. -/
def called? : Text → Option Text
  | [] => none
  | c :: rest =>
    if isIdentStart c || c == '#' then
      let behind := Text.trimStart (rest.dropWhile isIdentPart)
      if (skipTypeParameters behind).startsWith ['('] then
        some (c :: rest.takeWhile isIdentPart)
      else none
    else none

theorem length_keyword?_lt {phrase : String} {t rest : Text}
    (h : Head.keyword? phrase t = some rest) : rest.length < t.length := by
  unfold Head.keyword? at h
  split at h
  · rename_i c tail hafter
    split at h
    · cases h
      have hlength := (List.dropWhile_suffix (l := tail) Text.isBlank).length_le
      rw [Text.after?_eq_some_iff.1 hafter]
      simp only [Text.trimStart, List.length_append, List.length_cons]
      omega
    · cases h
  · cases h

theorem length_modifier?_lt {t rest : Text} (h : modifier? t = some rest) :
    rest.length < t.length := by
  obtain ⟨phrase, -, hphrase⟩ := List.exists_of_findSome?_eq_some h
  exact length_keyword?_lt hphrase

/-- The name after the modifiers.  A modifier is the name itself where no name follows it. -/
def nameAfterModifiers? (t : Text) : Option Text :=
  match _h : modifier? t with
  | some rest => (nameAfterModifiers? rest).or (called? t)
  | none => called? t
termination_by t.length
decreasing_by exact length_modifier?_lt _h

/-- The name of the method that starts on a line. -/
def name? (line : Text) : Option Text :=
  let inIndent c := c == ' ' || c == '\t'
  if (line.takeWhile inIndent).isEmpty then none
  else (nameAfterModifiers? (line.dropWhile inIndent)).filter fun name =>
    !controlWords.contains name

end Transplant.Method
