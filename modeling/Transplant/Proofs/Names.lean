import Transplant.Declaration.Use
import Transplant.Proofs.Statements
import Transplant.Proofs.Heads

/-!
# Names in lists

A name that is written into an import or an export list is a word: it holds neither a blank nor a
character that ends an entry or the list.  The names of declarations that can be moved are words,
and so are the names that a text uses.
-/

namespace Transplant

/-- A non-empty text of identifier characters. -/
structure IsWord (t : Text) : Prop where
  ne_nil : t ≠ []
  parts : ∀ c ∈ t, isIdentPart c

theorem isBlank_of_isIdentPart {c : Char} (hc : isIdentPart c) : Text.isBlank c = false := by
  have hblanks : Text.blanks.all (isIdentPart · = false) := by decide +kernel
  by_contra hblank
  have hpart := List.all_eq_true.1 hblanks c (Text.mem_blanks (by simpa using hblank))
  rw [hc] at hpart
  cases hpart

/-- Letters and digits of the ASCII block stand at the start of all character tables. -/
theorem toNat_lt_of_alphanumeric {c : Char} (hc : c.isAlpha ∨ c.isDigit) : c.toNat < 128 := by
  have hval : c.toNat = c.val.toNat := rfl
  have hupper : 'Z'.val.toNat = 90 := rfl
  have hlower : 'z'.val.toNat = 122 := rfl
  have hdigit : '9'.val.toNat = 57 := rfl
  delta Char.isAlpha Char.isUpper Char.isLower Char.isDigit at hc
  simp only [Bool.or_eq_true, Bool.and_eq_true, decide_eq_true_eq, UInt32.le_iff_toNat_le] at hc
  omega

theorem isWordChar_of_alphanumeric {c : Char} (hc : c.isAlpha ∨ c.isDigit) : Text.isWordChar c := by
  rw [Text.isWordChar, if_pos (toNat_lt_of_alphanumeric hc), Text.isAsciiAlphanumeric]
  simp [hc]

theorem isIdentPart_of_isIdentStart {c : Char} (hc : isIdentStart c) : isIdentPart c := by
  simp only [isIdentStart, Bool.or_eq_true, beq_iff_eq] at hc
  obtain (halpha | rfl) | rfl := hc
  · rw [isIdentPart, isWordChar_of_alphanumeric (.inl halpha)]
    rfl
  · decide
  · decide

namespace IsWord

variable {t : Text}

theorem not_mem (hword : IsWord t) {c : Char} (hc : isIdentPart c = false) : c ∉ t := by
  intro hmem
  rw [hword.parts c hmem] at hc
  cases hc

/-- There is no blank to trim. -/
theorem trim_eq (hword : IsWord t) : t.trim = t := by
  have hblank : ∀ c ∈ t, Text.isBlank c = false :=
    fun c hc => isBlank_of_isIdentPart (hword.parts c hc)
  obtain ⟨before, after, hbefore, hafter, ht⟩ := Text.exists_trim t
  have hnil : ∀ gap : Text, (∀ c ∈ gap, Text.isBlank c) → (∀ c ∈ gap, c ∈ t) → gap = [] := by
    intro gap hgap hmem
    rw [List.eq_nil_iff_forall_not_mem]
    intro c hc
    have hclash := hgap c hc
    rw [hblank c (hmem c hc)] at hclash
    cases hclash
  have hfront : before = [] := hnil before hbefore fun c hc => by rw [ht]; simp [hc]
  have hback : after = [] := hnil after hafter fun c hc => by rw [ht]; simp [hc]
  rw [hfront, hback, List.nil_append, List.append_nil] at ht
  exact ht.symm

theorem isEntry (hword : IsWord t) : Clause.IsEntry t where
  ne_nil := hword.ne_nil
  trimmed := hword.trim_eq
  comma := hword.not_mem (by decide)
  brace := hword.not_mem (by decide)

/-- An entry that is a word exports the name that it is. -/
theorem firstWord? (hword : IsWord t) : t.firstWord? = some t := by
  have hblank : ∀ c ∈ t, (!Text.isBlank c) = true := by
    intro c hc
    rw [isBlank_of_isIdentPart (hword.parts c hc)]
    rfl
  obtain ⟨c, rest, rfl⟩ := List.exists_cons_of_ne_nil hword.ne_nil
  have hstart : Text.trimStart (c :: rest) = c :: rest :=
    Text.trimStart_cons (by simpa using hblank c (by simp)) rest
  rw [Text.firstWord?, hstart, List.takeWhile_eq_self_iff.2 hblank]

end IsWord

theorem Identifier.isWord (name : Identifier) : IsWord name.text := by
  obtain ⟨t, hvalid⟩ := name
  cases t with
  | nil => cases hvalid
  | cons c rest =>
      simp only [isIdentifier, Bool.and_eq_true, List.all_eq_true, Bool.or_eq_true] at hvalid
      constructor
      · simp
      · intro d hd
        obtain rfl | hrest := List.mem_cons.1 hd
        · exact isIdentPart_of_isIdentStart hvalid.1
        · obtain hstart | hdigit := hvalid.2 d hrest
          · exact isIdentPart_of_isIdentStart hstart
          · rw [isIdentPart, isWordChar_of_alphanumeric (.inr hdigit)]
            rfl

/-! ## The order of texts -/

namespace Text

theorem le_cons_cons {c d : Char} {s t : Text} :
    le (c :: s) (d :: t) ↔ c.toNat < d.toNat ∨ c = d ∧ le s t := by
  rw [le]
  by_cases hc : c = d
  · simp [hc]
  · simp [hc]

theorem le_total (s t : Text) : le s t ∨ le t s := by
  induction s generalizing t with
  | nil => exact .inl rfl
  | cons c s ih =>
      cases t with
      | nil => exact .inr rfl
      | cons d t =>
          rw [le_cons_cons, le_cons_cons]
          obtain hlt | heq | hlt := Nat.lt_trichotomy c.toNat d.toNat
          · exact .inl (.inl hlt)
          · have hc : c = d := Char.toNat_inj.1 heq
            exact (ih t).imp (fun hle => .inr ⟨hc, hle⟩) fun hle => .inr ⟨hc.symm, hle⟩
          · exact .inr (.inl hlt)

theorem le_trans {s t u : Text} (hst : le s t) (htu : le t u) : le s u := by
  induction s generalizing t u with
  | nil => rfl
  | cons c s ih =>
      cases t with
      | nil => cases hst
      | cons d t =>
          cases u with
          | nil => cases htu
          | cons e u =>
              rw [le_cons_cons] at hst htu ⊢
              obtain hcd | ⟨rfl, hst⟩ := hst
              · obtain hde | ⟨rfl, -⟩ := htu
                · exact .inl (hcd.trans hde)
                · exact .inl hcd
              · exact htu.imp id (And.imp_right (ih hst))

theorem le_antisymm {s t : Text} (hst : le s t) (hts : le t s) : s = t := by
  induction s generalizing t with
  | nil =>
      cases t with
      | nil => rfl
      | cons d t => cases hts
  | cons c s ih =>
      cases t with
      | nil => cases hst
      | cons d t =>
          rw [le_cons_cons] at hst hts
          obtain hcd | ⟨rfl, hst⟩ := hst
          · obtain hdc | ⟨rfl, -⟩ := hts
            · omega
            · omega
          · obtain hcc | ⟨-, hts⟩ := hts
            · omega
            · rw [ih hst hts]

/-- Inserting a text keeps a list sorted and without repetitions. -/
theorem pairwise_insertSorted {t : Text} {ts : List Text}
    (hsorted : ts.Pairwise fun s t => le s t ∧ s ≠ t) :
    (insertSorted t ts).Pairwise fun s t => le s t ∧ s ≠ t := by
  induction ts with
  | nil => simp [insertSorted]
  | cons s rest ih =>
      obtain ⟨hs, hrest⟩ := List.pairwise_cons.1 hsorted
      rw [insertSorted]
      split
      · exact hsorted
      · rename_i hne
        split
        · rename_i hle
          refine List.pairwise_cons.2 ⟨?_, hsorted⟩
          intro other hother
          obtain rfl | hother := List.mem_cons.1 hother
          · exact ⟨hle, hne⟩
          · obtain ⟨hother, -⟩ := hs other hother
            refine ⟨le_trans hle hother, ?_⟩
            rintro rfl
            exact hne (le_antisymm hle hother)
        · rename_i hle
          refine List.pairwise_cons.2 ⟨?_, ih hrest⟩
          intro other hother
          obtain rfl | hother := mem_insertSorted.1 hother
          · exact ⟨(le_total other s).resolve_left hle, Ne.symm hne⟩
          · exact hs other hother

theorem nodup_sortedSet (ts : List Text) : (sortedSet ts).Nodup := by
  suffices hsorted : (sortedSet ts).Pairwise fun s t => le s t ∧ s ≠ t from hsorted.imp And.right
  induction ts with
  | nil => exact .nil
  | cons t ts ih => exact pairwise_insertSorted ih

end Text

/-! ## The names that a text uses -/

theorem isWord_of_mem_identifiersFrom {inside : Bool} {before t : Text} {o : Occurrence}
    (ho : o ∈ identifiersFrom inside before t) : IsWord o.name := by
  induction t generalizing inside before with
  | nil => cases ho
  | cons c rest ih =>
      rw [identifiersFrom] at ho
      split at ho
      · exact ih ho
      · split at ho
        · rename_i hstart
          obtain rfl | ho := List.mem_cons.1 ho
          · constructor
            · simp
            · intro d hd
              obtain rfl | hrest := List.mem_cons.1 hd
              · exact isIdentPart_of_isIdentStart hstart
              · exact List.mem_takeWhile_imp hrest
          · exact ih ho
        · exact ih ho

theorem isWord_of_mem_usedNames {text name : Text} (hname : name ∈ usedNames text) :
    IsWord name := by
  rw [usedNames, Text.mem_sortedSet, List.mem_flatMap] at hname
  obtain ⟨line, -, hname⟩ := hname
  rw [lineIdentifiers, List.mem_map] at hname
  obtain ⟨o, ho, rfl⟩ := hname
  exact isWord_of_mem_identifiersFrom (List.mem_of_mem_filter ho)

theorem nodup_usedNames (text : Text) : (usedNames text).Nodup :=
  Text.nodup_sortedSet _

end Transplant
