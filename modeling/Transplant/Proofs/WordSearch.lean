import Transplant.Proofs.Mentions

/-!
# The positions of a word

Whether a line mentions a name is told by the characters of the line alone: the name occurs at a
position, nothing in front of it makes it a part of a longer word or a member, and nothing behind it
goes on with the word.  The search passes over the characters of an occurrence that it rejects, and
still finds every such position: a word that starts inside of the occurrence stands behind one of
its characters, which is one of a name.
-/

namespace Transplant

variable {line name : Text}

/-- A word can start behind a text: the text is empty, or it ends with a spread, or with a character
that is neither a dot nor one of a name. -/
def StartsWordBehind (front : Text) : Prop :=
  front = [] ∨ ['.', '.', '.'] <:+ front ∨
    ∃ c, front.getLast? = some c ∧ c ≠ '.' ∧ ¬isNameChar c

/-- A word can end in front of a text: the text is empty, or it starts with a character that is not
one of a name. -/
def EndsWordBefore (after : Text) : Prop :=
  after = [] ∨ ∃ c, after.head? = some c ∧ ¬isNameChar c

/-- A name stands at a position of a line as a word of its own. -/
structure IsWordAt (line name : Text) (position : Nat) : Prop where
  occurs : name <+: line.drop position
  starts : StartsWordBehind (line.take position)
  ends : EndsWordBefore (line.drop (position + name.length))

theorem mayStart_reverse_iff (front : Text) :
    mayStart front.reverse ↔ StartsWordBehind front := by
  obtain rfl | ⟨init, c, rfl⟩ := List.eq_nil_or_concat front
  · simp [mayStart, StartsWordBehind]
  · have hspread : ['.', '.', '.'] <:+ init ++ [c] ↔ c = '.' ∧ ['.', '.'] <:+ init := by
      simp [← List.reverse_prefix, eq_comm]
    rw [StartsWordBehind, List.concat_eq_append, hspread, List.reverse_append,
      List.reverse_singleton, List.singleton_append]
    by_cases hc : c = '.'
    · subst hc
      have hdots : ['.', '.'].reverse <+: init.reverse ↔ ['.', '.'] <:+ init := List.reverse_prefix
      rw [mayStart_dot, List.isPrefixOf_iff_prefix]
      simpa using hdots
    · rw [mayStart_cons_of_ne hc]
      simp [hc]

theorem mayEnd_iff (after : Text) : mayEnd after ↔ EndsWordBefore after := by
  cases after with
  | nil => simp [mayEnd, EndsWordBefore]
  | cons c after => simp [mayEnd, EndsWordBefore]

/-- A line is cut at the position of a word. -/
theorem isWordAt_iff {position : Nat} :
    IsWordAt line name position ↔ ∃ after, line = line.take position ++ (name ++ after) ∧
      mayStart (line.take position).reverse ∧ mayEnd after := by
  constructor
  · rintro ⟨⟨after, hoccurs⟩, hstarts, hends⟩
    refine ⟨after, ?_, (mayStart_reverse_iff _).2 hstarts, (mayEnd_iff after).2 ?_⟩
    · rw [hoccurs, List.take_append_drop]
    · rwa [← List.drop_drop, ← hoccurs, List.drop_left] at hends
  · rintro ⟨after, hline, hstart, hend⟩
    have hdrop : line.drop position = name ++ after :=
      List.append_cancel_left ((List.take_append_drop position line).trans hline)
    refine ⟨⟨after, hdrop.symm⟩, (mayStart_reverse_iff _).1 hstart, ?_⟩
    rw [← List.drop_drop, hdrop, List.drop_left]
    exact (mayEnd_iff after).1 hend

/-- The search for an identifier finds it on a line exactly if it stands at some position of the
line as a word of its own. -/
theorem mentions_iff_isWordAt (line : Text) (name : Identifier) :
    mentions line name.text ↔ ∃ position, IsWordAt line name.text position := by
  rw [mentions_iff]
  constructor
  · rintro ⟨front, after, rfl, hstart, hend⟩
    refine ⟨front.length, isWordAt_iff.2 ⟨after, ?_, ?_, hend⟩⟩
    · rw [List.take_left]
    · rwa [List.take_left]
  · rintro ⟨position, hword⟩
    obtain ⟨after, hline, hstart, hend⟩ := isWordAt_iff.1 hword
    exact ⟨_, after, hline, hstart, hend⟩

/-- The occurrences in front lie over each other or belong to a member; the word is the one that is
spread. -/
example : mentions "f(aaa, b.aa, ...aa)".toList "aa".toList = true ∧
    mentions "f(aaa, b.aa, ..aa)".toList "aa".toList = false := by
  decide

end Transplant
