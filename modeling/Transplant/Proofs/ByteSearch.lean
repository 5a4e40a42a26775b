import Transplant.Outline.Statement
import Transplant.Proofs.Bytes

/-!
# A search for the end of a statement in bytes

The end of a statement can be searched in the bytes of the whole text.  The position then jumps:
over a comment as far as its end is found, over an escaped character by two bytes, which can lead
into the middle of a character, and out of an unclosed string without moving at all.  A turn that
would take a slice off the boundaries of characters is told apart from the others.
-/

namespace Transplant.Statement

open Text

/-! ## The search -/

/-- Where the search stands: a position, the start of the last line that was met in code, the open
brackets, and the quotation mark of the string literal around the position. -/
structure ByteScan where
  position : Nat
  lineStart : Nat
  depth : Depth
  quote : Option Char
  deriving DecidableEq

def ByteScan.first (start : Nat) : ByteScan where
  position := start
  lineStart := start
  depth := .zero
  quote := none

/-- What one turn of the search comes to. -/
inductive Turn where
  | goesOn (s : ByteScan)
  | ended (offset : Nat)
  /-- A slice was to be taken off the boundaries of characters. -/
  | broken
  deriving DecidableEq

def literalTurn (s : ByteScan) (quote c : Char) : ByteScan :=
  if c = '\\' then { s with position := s.position + 2 }
  else if c = quote then { s with position := s.position + 1, quote := none }
  else if c = '\n' ∧ quote ≠ '\x60' then { s with quote := none }
  else { s with position := s.position + 1 }

/-- A turn on a line break outside of all brackets: the search ends in front of it, unless the
expression goes on. -/
def breakTurn (content : Text) (start : Nat) (s : ByteScan) : Turn :=
  match content.slice? s.lineStart s.position, content.fromByte? (s.position + 1) with
  | some current, some rest =>
    if continues current.reverse rest then
      .goesOn { s with position := s.position + 1, lineStart := s.position + 1 }
    else .ended (max (s.position - 1) start)
  | _, _ => .broken

/-- The offset behind a block comment whose body starts at an offset. -/
def blockCommentEnd (content rest : Text) (offset : Nat) : Nat :=
  match cut? ['*', '/'] rest with
  | some (body, _) => offset + body.byteSize + 2
  | none => content.byteSize

theorem blockCommentEnd_of_some {content rest body behind : Text}
    (hcut : cut? ['*', '/'] rest = some (body, behind)) (offset : Nat) :
    blockCommentEnd content rest offset = offset + byteSize body + 2 := by
  rw [blockCommentEnd, hcut]

theorem blockCommentEnd_of_none {content rest : Text} (hcut : cut? ['*', '/'] rest = none)
    (offset : Nat) : blockCommentEnd content rest offset = content.byteSize := by
  rw [blockCommentEnd, hcut]

def codeTurn (content : Text) (start : Nat) (block : Bool) (s : ByteScan) (c : Char) : Turn :=
  if c = '\x27' ∨ c = '"' ∨ c = '\x60' then
    .goesOn { s with position := s.position + 1, quote := some c }
  else if c = '/' ∧ content.byteAt? (s.position + 1) = some '/' then
    match content.fromByte? s.position with
    | some rest => .goesOn { s with position := s.position + (before ['\n'] rest).byteSize }
    | none => .broken
  else if c = '/' ∧ content.byteAt? (s.position + 1) = some '*' then
    match content.fromByte? (s.position + 2) with
    | some rest => .goesOn { s with position := blockCommentEnd content rest (s.position + 2) }
    | none => .broken
  else if c = '\x7d' ∧ block ∧ (s.depth.after c).closesBlock then .ended s.position
  else if c = ';' ∧ s.depth.atTop then .ended s.position
  else if c = '\n' then
    if s.depth.atTop && !block then breakTurn content start s
    else .goesOn { s with position := s.position + 1, lineStart := s.position + 1 }
  else .goesOn { s with position := s.position + 1, depth := s.depth.after c }

/-- One turn of the search for the end of the statement that starts at an offset. -/
def turn (content : Text) (start : Nat) (block : Bool) (s : ByteScan) : Turn :=
  match s.quote, content.byteAt? s.position with
  | none, none => .ended (max (content.byteSize - 1) start)
  | none, some c => codeTurn content start block s c
  | some _, none => .goesOn { s with position := content.byteSize, quote := none }
  | some quote, some c => .goesOn (literalTurn s quote c)

/-- The search, stopped after a number of turns. -/
def search (content : Text) (start : Nat) (block : Bool) : (turns : Nat) → ByteScan → Turn
  | 0, s => .goesOn s
  | turns + 1, s =>
    match turn content start block s with
    | .goesOn s => search content start block turns s
    | last => last

/-! ## Where the search ends -/

section Ends

variable {content t passed rest current : Text} {start offset index turns more : Nat}
variable {block : Bool} {s next : ByteScan} {c d quote : Char}

/-- An offset lies on a character of the text that starts at `start`, or on the end of an empty
text. -/
def LiesOn (start : Nat) (t : Text) (offset index : Nat) : Prop :=
  t = [] ∧ offset = start ∨
    ∃ passed c rest, t = passed ++ c :: rest ∧ passed.length = index ∧
      start + byteSize passed ≤ offset ∧ offset < start + byteSize passed + c.utf8Size

theorem LiesOn.bounds (h : LiesOn start t offset index) :
    start ≤ offset ∧ offset ≤ max start (start + t.byteSize - 1) := by
  obtain ⟨-, rfl⟩ | ⟨passed, c, rest, rfl, -, hle, hlt⟩ := h
  · exact ⟨Nat.le_refl _, Nat.le_max_left ..⟩
  · rw [byteSize_append, byteSize_cons]
    omega

/-- In front of an offset there are as many line breaks as in front of the character on which it
lies. -/
theorem LiesOn.count_take {above : Text} (h : LiesOn above.byteSize t offset index) :
    ((above ++ t).bytes.take offset).count '\n'.toUInt8 =
      above.count '\n' + (t.take index).count '\n' := by
  have hbreak : IsAscii '\n' := by decide
  obtain ⟨rfl, rfl⟩ | ⟨passed, c, rest, rfl, rfl, hle, hlt⟩ := h
  · rw [List.append_nil, ← length_bytes, List.take_length, count_bytes hbreak]
    simp
  · obtain ⟨inside, rfl⟩ := Nat.exists_eq_add_of_le hle
    have hinside : ((String.utf8EncodeChar c).take inside).count '\n'.toUInt8 = 0 := by
      by_cases hc : IsAscii c
      · rw [utf8Size_of_isAscii hc] at hlt
        obtain rfl : inside = 0 := by omega
        rfl
      · rw [List.count_eq_zero]
        intro hmem
        have hlarge := le_of_mem_utf8EncodeChar hc _ (List.mem_of_mem_take hmem)
        exact absurd hlarge (by decide)
    have hsize : byteSize above + byteSize passed + inside =
        (bytes (above ++ passed)).length + inside := by rw [length_bytes, byteSize_append]
    have hshort : inside ≤ (String.utf8EncodeChar c).length := by
      rw [String.length_utf8EncodeChar]
      omega
    rw [hsize, ← List.append_assoc, bytes_append (above ++ passed), List.take_length_add_append,
      bytes_cons, List.take_append_of_le_length hshort, List.count_append, count_bytes hbreak,
      hinside, Nat.add_zero, List.count_append, List.take_left]

theorem liesOn_here (start : Nat) (passed : Text) (c : Char) (rest : Text) :
    LiesOn start (passed ++ c :: rest) (start + passed.byteSize) passed.length :=
  .inr ⟨passed, c, rest, rfl, rfl, Nat.le_refl _, Nat.lt_add_of_pos_right c.utf8Size_pos⟩

/-- The last byte in front of a place in the text. -/
theorem liesOn_before (start : Nat) (passed rest : Text) :
    LiesOn start (passed ++ rest) (max (start + passed.byteSize - 1) start)
      (passed.length - 1) := by
  obtain rfl | ⟨init, c, rfl⟩ := List.eq_nil_or_concat passed
  · cases rest with
    | nil => exact .inl ⟨rfl, by simp⟩
    | cons d rest =>
        have hstart : max (start + byteSize [] - 1) start = start + byteSize [] := by simp
        rw [hstart]
        exact liesOn_here start [] d rest
  · have hpos := c.utf8Size_pos
    have hsize : byteSize (init ++ [c]) = byteSize init + c.utf8Size := byteSize_append init [c]
    rw [List.concat_eq_append, hsize]
    exact .inr ⟨init, c, rest, by simp, by simp, by omega, by omega⟩

/-- The search ends within a number of turns, on a character of the statement's text. -/
def Finds (content : Text) (start : Nat) (block : Bool) (turns : Nat) (s : ByteScan) (t : Text)
    (index : Nat) : Prop :=
  ∃ n ≤ turns, ∃ offset, search content start block n s = .ended offset ∧
    LiesOn start t offset index

theorem Finds.of_ended (hturn : turn content start block s = .ended offset)
    (hlies : LiesOn start t offset index) : Finds content start block 1 s t index :=
  ⟨1, Nat.le_refl 1, offset, by rw [search, hturn], hlies⟩

theorem Finds.of_goesOn (hnext : Finds content start block turns next t index)
    (hturn : turn content start block s = .goesOn next) :
    Finds content start block (turns + 1) s t index := by
  obtain ⟨n, hn, offset, hsearch, hlies⟩ := hnext
  exact ⟨n + 1, Nat.succ_le_succ hn, offset, by rw [search, hturn]; exact hsearch, hlies⟩

theorem Finds.mono (h : Finds content start block turns s t index) (hle : turns ≤ more) :
    Finds content start block more s t index := by
  obtain ⟨n, hn, hfound⟩ := h
  exact ⟨n, Nat.le_trans hn hle, hfound⟩

/-- A search that ends has taken every slice at the boundaries of characters. -/
theorem search_ne_broken (hended : search content start block turns s = .ended offset) (n : Nat) :
    search content start block n s ≠ .broken := by
  induction turns generalizing s n with
  | zero => cases hended
  | succ turns ih =>
      cases n with
      | zero => simp [search]
      | succ n =>
          rw [search] at hended ⊢
          cases hturn : turn content start block s with
          | goesOn next =>
              rw [hturn] at hended
              exact ih hended n
          | ended last => simp
          | broken =>
              rw [hturn] at hended
              cases hended

/-! ## Turns -/

theorem after_of_not_isAscii (hc : ¬IsAscii c) (depth : Depth) : depth.after c = depth := by
  unfold Depth.after
  split
  all_goals first | rfl | exact absurd (by decide) hc

/-- A byte inside of a character is passed. -/
theorem turn_of_not_isAscii (hbyte : content.byteAt? s.position = some c) (hc : ¬IsAscii c)
    (hquote : ∀ quote ∈ s.quote, IsAscii quote) :
    turn content start block s = .goesOn { s with position := s.position + 1 } := by
  have hne : ∀ {d : Char}, IsAscii d → c ≠ d := ne_of_not_isAscii hc
  rw [turn, hbyte]
  cases hs : s.quote with
  | none =>
      have hdepth := after_of_not_isAscii hc s.depth
      simp [codeTurn, hs, hdepth, hne (d := '\x27') (by decide), hne (d := '"') (by decide),
        hne (d := '\x60') (by decide), hne (d := '/') (by decide), hne (d := '\x7d') (by decide),
        hne (d := ';') (by decide), hne (d := '\n') (by decide)]
  | some quote =>
      have hquote' := hne (hquote quote hs)
      simp [literalTurn, hs, hquote', hne (d := '\\') (by decide), hne (d := '\n') (by decide)]

/-- The bytes of a character, from its second one on or from its first, are passed one by one. -/
theorem Finds.of_inside {place passed : Nat} (hrest : RestAt content place (c :: rest))
    (hpassed : passed ≤ c.utf8Size) (hc : passed < c.utf8Size → ¬IsAscii c)
    (hposition : s.position = place + passed) (hquote : ∀ quote ∈ s.quote, IsAscii quote)
    (hnext : Finds content start block turns { s with position := place + c.utf8Size } t index) :
    Finds content start block (turns + (c.utf8Size - passed)) s t index := by
  induction hleft : c.utf8Size - passed generalizing s passed with
  | zero =>
      obtain rfl : passed = c.utf8Size := by omega
      have hs : s = { s with position := place + c.utf8Size } := by rw [← hposition]
      rw [hs]
      exact hnext
  | succ left ih =>
      have hinside : passed < c.utf8Size := by omega
      obtain ⟨b, hbyte, hb⟩ := exists_byteAt?_cons (hc hinside) rest hinside
      rw [← hrest.byteAt? passed, ← hposition] at hbyte
      have hlater : Finds content start block (turns + left)
          { s with position := s.position + 1 } t index := by
        have hplace : s.position + 1 = place + (passed + 1) := congrArg Nat.succ hposition
        exact ih (Nat.succ_le_of_lt hinside) (fun _ => hc hinside) hplace hquote hnext (by omega)
      exact hlater.of_goesOn (turn_of_not_isAscii hbyte hb hquote)

end Ends

end Transplant.Statement
