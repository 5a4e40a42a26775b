import Transplant.Text.Basic

/-!
# Texts as bytes

A text is stored as its bytes in UTF-8, and an offset counts bytes.  A character below 128 is one
byte, its own code; every byte of another character is 128 or more, so none of them is taken for a
character of the first kind.  An offset between two characters cuts the text.  One inside of a
character, or behind the end, does not: nothing can be sliced there.
-/

namespace Transplant

namespace Text

variable {t rest above middle : Text} {c d : Char} {n offset : Nat}

/-! ## Bytes -/

def bytes (t : Text) : List UInt8 :=
  t.flatMap String.utf8EncodeChar

theorem bytes_append (s t : Text) : bytes (s ++ t) = bytes s ++ bytes t :=
  List.flatMap_append ..

theorem bytes_cons (c : Char) (t : Text) : bytes (c :: t) = String.utf8EncodeChar c ++ bytes t :=
  List.flatMap_cons ..

@[simp]
theorem byteSize_nil : byteSize [] = 0 := rfl

@[simp]
theorem byteSize_cons (c : Char) (t : Text) : byteSize (c :: t) = c.utf8Size + byteSize t := rfl

theorem length_bytes (t : Text) : t.bytes.length = t.byteSize := by
  induction t with
  | nil => rfl
  | cons c t ih =>
      rw [bytes_cons, List.length_append, ih, String.length_utf8EncodeChar, byteSize_cons]

/-- Characters that are one byte. -/
def IsAscii (c : Char) : Prop :=
  c.toNat < 128

instance : DecidablePred IsAscii :=
  fun c => inferInstanceAs (Decidable (c.toNat < 128))

theorem ne_of_not_isAscii (hc : ¬IsAscii c) (hd : IsAscii d) : c ≠ d := by
  rintro rfl
  exact hc hd

theorem utf8EncodeChar_of_isAscii (hc : IsAscii c) :
    String.utf8EncodeChar c = [c.toUInt8] := by
  have hsmall : c.val.toNat ≤ 127 := Nat.le_of_lt_succ hc
  simp only [String.utf8EncodeChar, if_pos hsmall]
  rfl

theorem utf8Size_of_isAscii (hc : IsAscii c) : c.utf8Size = 1 := by
  rw [← String.length_utf8EncodeChar, utf8EncodeChar_of_isAscii hc, List.length_singleton]

/-- Every byte of a longer character is 128 or more. -/
theorem le_of_mem_utf8EncodeChar (hc : ¬IsAscii c) :
    ∀ b ∈ String.utf8EncodeChar c, 128 ≤ b.toNat := by
  have hlarge : ¬c.val.toNat ≤ 127 := fun hsmall => hc (Nat.lt_succ_of_le hsmall)
  simp only [String.utf8EncodeChar, if_neg hlarge]
  split
  · simp; omega
  · split
    · simp; omega
    · simp; omega

/-- A character below 128 is told by its byte. -/
theorem toNat_toUInt8_of_isAscii (hc : IsAscii c) : c.toUInt8.toNat = c.toNat :=
  UInt8.toNat_ofNat_of_lt (Nat.lt_trans hc (by decide))

/-- No byte of another character counts as a character below 128. -/
theorem count_bytes (hc : IsAscii c) (t : Text) :
    t.bytes.count c.toUInt8 = t.count c := by
  induction t with
  | nil => rfl
  | cons d t ih =>
      have hchar : (String.utf8EncodeChar d).count c.toUInt8 = [d].count c := by
        by_cases hd : IsAscii d
        · have hbyte : d.toUInt8 = c.toUInt8 ↔ d = c := by
            rw [← UInt8.toNat_inj, toNat_toUInt8_of_isAscii hd, toNat_toUInt8_of_isAscii hc,
              Char.toNat_inj]
          rw [utf8EncodeChar_of_isAscii hd, List.count_singleton, List.count_singleton]
          simp only [beq_iff_eq, hbyte]
        · have hne : d ≠ c := ne_of_not_isAscii hd hc
          have hnone : c.toUInt8 ∉ String.utf8EncodeChar d := by
            intro hmem
            have hlarge := le_of_mem_utf8EncodeChar hd _ hmem
            rw [toNat_toUInt8_of_isAscii hc] at hlarge
            exact Nat.not_lt.2 hlarge hc
          rw [List.count_eq_zero_of_not_mem hnone, List.count_singleton,
            if_neg (by simpa using hne)]
      rw [bytes_cons, List.count_append, ih, hchar, ← List.count_append, List.singleton_append]

/-! ## Single bytes -/

/-- The byte at an offset, as the character that has its code. -/
def byteAt? (t : Text) (offset : Nat) : Option Char :=
  t.bytes[offset]?.map Char.ofUInt8

theorem byteAt?_append (above rest : Text) (n : Nat) :
    (above ++ rest).byteAt? (above.byteSize + n) = rest.byteAt? n := by
  rw [byteAt?, byteAt?, bytes_append, List.getElem?_append_right (by rw [length_bytes]; omega),
    length_bytes, Nat.add_sub_cancel_left]

theorem byteAt?_eq_none_iff : t.byteAt? offset = none ↔ t.byteSize ≤ offset := by
  rw [byteAt?, Option.map_eq_none_iff, List.getElem?_eq_none_iff, length_bytes]

/-- A character below 128 shows as itself. -/
theorem byteAt?_cons_of_isAscii (hc : IsAscii c) (t : Text) : byteAt? (c :: t) 0 = some c := by
  have hcode : Char.ofUInt8 c.toUInt8 = c :=
    Char.toNat_inj.1 (toNat_toUInt8_of_isAscii hc)
  rw [byteAt?, bytes_cons, utf8EncodeChar_of_isAscii hc]
  exact congrArg some hcode

/-- The bytes of a longer character show as nothing below 128. -/
theorem exists_byteAt?_cons (hc : ¬IsAscii c) (t : Text) (hn : n < c.utf8Size) :
    ∃ b, byteAt? (c :: t) n = some b ∧ ¬IsAscii b := by
  rw [← String.length_utf8EncodeChar] at hn
  refine ⟨_, by rw [byteAt?, bytes_cons, List.getElem?_append_left hn,
    List.getElem?_eq_getElem hn, Option.map_some], ?_⟩
  have hlarge := le_of_mem_utf8EncodeChar hc _ (List.getElem_mem hn)
  exact Nat.not_lt.2 hlarge

/-- The first byte tells a character below 128. -/
theorem byteAt?_zero_eq_some_iff (hd : IsAscii d) : t.byteAt? 0 = some d ↔ t.head? = some d := by
  cases t with
  | nil => simp [byteAt?, bytes]
  | cons c t =>
      rw [List.head?_cons]
      by_cases hc : IsAscii c
      · rw [byteAt?_cons_of_isAscii hc]
      · obtain ⟨b, hbyte, hb⟩ := exists_byteAt?_cons hc t c.utf8Size_pos
        rw [hbyte]
        constructor
        · rintro ⟨⟩
          exact absurd hd hb
        · rintro ⟨⟩
          exact absurd hd hc

/-! ## Cutting at an offset -/

/-- The texts in front of an offset and behind it, if the offset lies between two characters. -/
def cutAt? : (offset : Nat) → Text → Option (Text × Text)
  | 0, t => some ([], t)
  | _ + 1, [] => none
  | n + 1, c :: t =>
    if c.utf8Size ≤ n + 1 then
      (cutAt? (n + 1 - c.utf8Size) t).map fun (front, rest) => (c :: front, rest)
    else none

def fromByte? (t : Text) (offset : Nat) : Option Text :=
  (cutAt? offset t).map (·.2)

def slice? (t : Text) (first last : Nat) : Option Text :=
  (cutAt? last t).bind fun (front, _) => front.fromByte? first

theorem cutAt?_append (above rest : Text) :
    cutAt? above.byteSize (above ++ rest) = some (above, rest) := by
  induction above with
  | nil => cases rest <;> rfl
  | cons c above ih =>
      have hpos := c.utf8Size_pos
      obtain ⟨n, hn⟩ : ∃ n, c.utf8Size + byteSize above = n + 1 :=
        Nat.exists_eq_add_one.2 (by omega)
      have hsub : n + 1 - c.utf8Size = byteSize above := by omega
      rw [byteSize_cons, hn, List.cons_append, cutAt?, if_pos (by omega), hsub, ih]
      rfl

/-- A text is cut between characters only. -/
theorem cutAt?_eq_some_iff :
    cutAt? offset t = some (above, rest) ↔ t = above ++ rest ∧ above.byteSize = offset := by
  constructor
  · intro hcut
    fun_induction cutAt? offset t generalizing above with
    | case1 t =>
        cases hcut
        exact ⟨rfl, rfl⟩
    | case2 => cases hcut
    | case3 n c t hfits ih =>
        obtain ⟨⟨front, behind⟩, hcut, hpair⟩ := Option.map_eq_some_iff.1 hcut
        cases hpair
        obtain ⟨rfl, hsize⟩ := ih hcut
        exact ⟨rfl, by rw [byteSize_cons]; omega⟩
    | case4 => cases hcut
  · rintro ⟨rfl, rfl⟩
    exact cutAt?_append above rest

/-- What stands behind a byte offset of a text. -/
def RestAt (t : Text) (offset : Nat) (rest : Text) : Prop :=
  ∃ above, t = above ++ rest ∧ above.byteSize = offset

namespace RestAt

theorem byteSize (h : RestAt t offset rest) : t.byteSize = offset + rest.byteSize := by
  obtain ⟨above, rfl, rfl⟩ := h
  exact byteSize_append above rest

theorem behind (h : RestAt t offset (middle ++ rest)) :
    RestAt t (offset + middle.byteSize) rest := by
  obtain ⟨above, rfl, rfl⟩ := h
  exact ⟨above ++ middle, by rw [List.append_assoc], byteSize_append above middle⟩

theorem byteAt? (h : RestAt t offset rest) (n : Nat) :
    t.byteAt? (offset + n) = rest.byteAt? n := by
  obtain ⟨above, rfl, rfl⟩ := h
  exact byteAt?_append above rest n

theorem fromByte? (h : RestAt t offset rest) : t.fromByte? offset = some rest := by
  obtain ⟨above, rfl, rfl⟩ := h
  rw [Text.fromByte?, cutAt?_eq_some_iff.2 ⟨rfl, rfl⟩, Option.map_some]

theorem slice? (h : RestAt t offset (middle ++ rest)) :
    t.slice? offset (offset + middle.byteSize) = some middle := by
  obtain ⟨above, rfl, rfl⟩ := h
  have hfront : RestAt (above ++ middle) above.byteSize middle := ⟨above, rfl, rfl⟩
  rw [Text.slice?, ← byteSize_append, ← List.append_assoc, cutAt?_eq_some_iff.2 ⟨rfl, rfl⟩]
  exact hfront.fromByte?

end RestAt

end Text

end Transplant
