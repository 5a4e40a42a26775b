import Transplant.Proofs.UsedNames

/-!
# Uses that the search for a name overlooks

What a text uses is told in two ways: by the list of its identifiers and by a search for one name.
The list is read off a line without its string literals, the search goes through the line as it
stands, so the search can miss what is listed.  It does so for four reasons: a literal in front of
the name holds two slashes, which are taken for a comment; a letter outside the ASCII block stands
right in front of the name; a letter or a number that belongs to no identifier stands right behind
it; or the name is the dollar sign of a substitution, right behind a letter or a dot of the
template.  A listed name is not found exactly if one of the reasons holds wherever it is listed and
no other place of it is found.
-/

namespace Transplant

/-! ## Line comments -/

theorem codePart_cons (c : Char) (t : Text) :
    codePart (c :: t) = if c = '/' ∧ t.head? = some '/' then [] else c :: codePart t := by
  split
  · rename_i hslash
    obtain ⟨rfl, hhead⟩ := hslash
    obtain ⟨rest, rfl⟩ := List.head?_eq_some_iff.1 hhead
    rfl
  · rename_i hslash
    have hafter : Text.after? ['/', '/'] (c :: t) = none := by
      rw [Option.eq_none_iff_forall_ne_some]
      intro rest hrest
      obtain ⟨rfl, rfl⟩ := List.cons.inj (Text.after?_eq_some_iff.1 hrest)
      exact hslash ⟨rfl, rfl⟩
    rw [codePart, codePart, Text.before, Text.before, Text.cut?, hafter]
    cases Text.cut? ['/', '/'] t <;> rfl

/-- What is cut off a line starts with a slash. -/
theorem exists_eq_codePart_append (line : Text) :
    ∃ comment, line = codePart line ++ comment ∧ ∀ c ∈ comment.head?, c = '/' := by
  induction line with
  | nil => exact ⟨[], rfl, by simp⟩
  | cons c t ih =>
      rw [codePart_cons]
      split
      · rename_i hslash
        exact ⟨c :: t, rfl, by simpa using hslash.1⟩
      · obtain ⟨comment, ht, hcomment⟩ := ih
        exact ⟨comment, congrArg (c :: ·) ht, hcomment⟩

theorem not_infix_codePart (line : Text) : ¬ ['/', '/'] <:+: codePart line := by
  induction line with
  | nil => decide
  | cons c t ih =>
      rw [codePart_cons]
      split
      · decide
      · rename_i hslash
        rw [List.infix_cons_iff, not_or]
        refine ⟨?_, ih⟩
        rintro ⟨rest, hrest⟩
        obtain ⟨rfl, hcode⟩ := List.cons.inj hrest
        obtain ⟨comment, ht, -⟩ := exists_eq_codePart_append t
        rw [← hcode] at ht
        exact hslash ⟨rfl, by rw [ht]; rfl⟩

/-- Text without two slashes is code, if it is not one slash of two. -/
theorem codePart_append {front t : Text} (hfront : ¬ ['/', '/'] <:+: front)
    (ht : t.head? ≠ some '/') : codePart (front ++ t) = front ++ codePart t := by
  induction front with
  | nil => rfl
  | cons c front ih =>
      rw [List.infix_cons_iff, not_or] at hfront
      have hhead : ¬ (c = '/' ∧ (front ++ t).head? = some '/') := by
        rintro ⟨rfl, hhead⟩
        cases front with
        | nil => exact ht hhead
        | cons d front =>
            obtain rfl : d = '/' := Option.some.inj hhead
            exact hfront.1 ⟨front, rfl⟩
      rw [List.cons_append, codePart_cons, if_neg hhead, ih hfront.2, List.cons_append]

theorem mayEnd_slash (t : Text) : mayEnd ('/' :: t) := by
  have hslash : isNameChar '/' = false := by decide
  rw [mayEnd, hslash]
  rfl

theorem mayEnd_codePart (t : Text) : mayEnd (codePart t) = mayEnd t := by
  cases t with
  | nil => rfl
  | cons c t =>
      rw [codePart_cons]
      split
      · rename_i hslash
        rw [hslash.1, mayEnd_slash]
        rfl
      · rfl

theorem mayEnd_append_of_slash {comment : Text} (hcomment : ∀ c ∈ comment.head?, c = '/')
    (t : Text) : mayEnd (t ++ comment) = mayEnd t := by
  cases t with
  | cons c t => rfl
  | nil =>
      cases comment with
      | nil => rfl
      | cons c comment =>
          obtain rfl : c = '/' := hcomment c rfl
          exact mayEnd_slash comment

/-! ## String literals -/

/-- What stands for a character in a line without its literals. -/
def IsCopy (c e : Char) : Prop :=
  e = c ∨ e = ' '

theorem eq_of_isCopy {s t : Text} (ht : ' ' ∉ t) (hcopy : List.Forall₂ IsCopy s t) : s = t := by
  induction hcopy with
  | nil => rfl
  | cons hc _ ih =>
      rw [List.mem_cons, not_or] at ht
      rw [hc.resolve_right fun hblank => ht.1 hblank.symm, ih ht.2]

/-- A word that is left of a line stands in the line itself. -/
theorem exists_eq_of_isCopy {line front word tail : Text} (hword : ' ' ∉ word)
    (hcopy : List.Forall₂ IsCopy line (front ++ (word ++ tail))) :
    ∃ before after, line = before ++ (word ++ after) ∧ List.Forall₂ IsCopy before front := by
  have hfront := List.forall₂_take_append line front _ hcopy
  have hrest := List.forall₂_drop_append line front _ hcopy
  have hmiddle := eq_of_isCopy hword (List.forall₂_take_append _ word tail hrest)
  refine ⟨line.take front.length, (line.drop front.length).drop word.length, ?_, hfront⟩
  have hsplit := List.take_append_drop word.length (line.drop front.length)
  rw [hmiddle] at hsplit
  rw [hsplit, List.take_append_drop]

namespace LiteralState

/-- A literal ends at a character that starts no identifier. -/
def EndsAtMark : LiteralState → Prop
  | literal quote _ | escape quote _ => isIdentStart quote = false
  | code _ | opening => True

theorem endsAtMark_code (substitution : Option Nat) : (code substitution).EndsAtMark :=
  trivial

/-- Code is copied.  It goes on unless a character that belongs to no identifier opens a literal. -/
theorem exists_behind_code (substitution : Option Nat) (c : Char) :
    ∃ next : LiteralState, next.EndsAtMark ∧
      (isIdentPart c → ∃ substitution, next = code substitution) ∧
      ∀ t, blankFrom (code substitution) (c :: t) = c :: blankFrom next t := by
  by_cases hquote : c = '\x27' ∨ c = '"' ∨ c = '\x60'
  · refine ⟨literal c substitution, ?_, ?_, fun t => by simp only [blankFrom, if_pos hquote]⟩
    · obtain rfl | rfl | rfl := hquote <;> rfl
    · intro hpart
      obtain rfl | rfl | rfl := hquote <;> exact absurd hpart (by decide)
  · cases substitution with
    | none =>
        exact ⟨code none, trivial, fun _ => ⟨none, rfl⟩, fun t => by
          simp only [blankFrom, if_neg hquote]⟩
    | some depth =>
        by_cases hclose : c = '\x7d' ∧ depth = 0
        · obtain ⟨rfl, rfl⟩ := hclose
          exact ⟨literal '\x60' none, rfl, fun hpart => absurd hpart (by decide), fun t => rfl⟩
        · have hnext : ∃ depth', ∀ t, blankFrom (code (some depth)) (c :: t) =
              c :: blankFrom (code (some depth')) t := by
            simp only [blankFrom, if_neg hquote]
            split_ifs with hopen hclosing
            · exact ⟨_, fun t => rfl⟩
            · obtain ⟨n, rfl⟩ := Nat.exists_eq_succ_of_ne_zero fun h => hclose ⟨hclosing, h⟩
              exact ⟨_, fun t => rfl⟩
            · exact ⟨_, fun t => rfl⟩
          obtain ⟨depth', hnext⟩ := hnext
          exact ⟨code (some depth'), trivial, fun _ => ⟨_, rfl⟩, hnext⟩

variable {state : LiteralState}

/-- A scan of a line copies each character or blanks it out. -/
theorem exists_behind (hstate : state.EndsAtMark) (c : Char) (t : Text) :
    ∃ (e : Char) (next : LiteralState), IsCopy c e ∧ next.EndsAtMark ∧
      blankFrom state (c :: t) = e :: blankFrom next t := by
  cases state with
  | code substitution =>
      obtain ⟨next, hmark, -, hstep⟩ := exists_behind_code substitution c
      exact ⟨c, next, .inl rfl, hmark, hstep t⟩
  | escape quote substitution => exact ⟨' ', literal quote substitution, .inr rfl, hstate, rfl⟩
  | opening => exact ⟨c, code (some 0), .inl rfl, trivial, rfl⟩
  | literal quote substitution =>
      simp only [blankFrom]
      split_ifs
      · exact ⟨' ', escape quote substitution, .inr rfl, hstate, rfl⟩
      · exact ⟨c, code substitution, .inl rfl, trivial, rfl⟩
      · exact ⟨c, opening, .inl rfl, trivial, rfl⟩
      · exact ⟨' ', literal quote substitution, .inr rfl, hstate, rfl⟩

theorem forall₂_blankFrom (hstate : state.EndsAtMark) (t : Text) :
    List.Forall₂ IsCopy t (blankFrom state t) := by
  induction t generalizing state with
  | nil => cases state <;> exact .nil
  | cons c t ih =>
      obtain ⟨e, next, he, hnext, hstep⟩ := exists_behind hstate c t
      rw [hstep]
      exact .cons he (ih hnext)

/-- Behind any part of a line the scan goes on in some state. -/
theorem exists_drop_blankFrom (hstate : state.EndsAtMark) (t : Text) (n : Nat) :
    ∃ next : LiteralState, next.EndsAtMark ∧
      (blankFrom state t).drop n = blankFrom next (t.drop n) := by
  induction n generalizing state t with
  | zero => exact ⟨state, hstate, rfl⟩
  | succ n ih =>
      cases t with
      | nil => exact ⟨state, hstate, by cases state <;> rfl⟩
      | cons c t =>
          obtain ⟨e, next, -, hnext, hstep⟩ := exists_behind hstate c t
          rw [hstep]
          exact ih hnext t

/-- Right behind a character of an identifier nothing is blanked out. -/
theorem eq_of_isIdentPart {c d e f : Char} {t rest : Text}
    (hscan : blankFrom state (c :: d :: t) = e :: f :: rest) (he : isIdentPart e) : f = d := by
  have hcopied : ∀ {substitution : Option Nat} {f : Char} {rest : Text},
      blankFrom (code substitution) (d :: t) = f :: rest → f = d :=
    fun h => (List.cons.inj h).1.symm
  cases state with
  | opening => exact hcopied (List.cons.inj hscan).2
  | escape quote substitution =>
      obtain ⟨rfl, -⟩ := List.cons.inj hscan
      exact absurd he (by decide)
  | literal quote substitution =>
      rw [blankFrom] at hscan
      split_ifs at hscan
      · obtain ⟨rfl, -⟩ := List.cons.inj hscan
        exact absurd he (by decide)
      · exact hcopied (List.cons.inj hscan).2
      · exact (List.cons.inj (List.cons.inj hscan).2).1.symm
      · obtain ⟨rfl, -⟩ := List.cons.inj hscan
        exact absurd he (by decide)
  | code substitution =>
      obtain ⟨next, -, hpart, hstep⟩ := exists_behind_code substitution c
      rw [hstep] at hscan
      obtain ⟨rfl, hrest⟩ := List.cons.inj hscan
      obtain ⟨substitution', rfl⟩ := hpart he
      exact hcopied hrest

/-- Right in front of an identifier nothing is blanked out, unless a substitution starts there. -/
theorem eq_or_of_isIdentStart (hstate : state.EndsAtMark) {c d e f : Char} {t rest : Text}
    (hscan : blankFrom state (c :: d :: t) = e :: f :: rest) (hf : isIdentStart f) :
    e = c ∨ d = '$' ∧ t.head? = some '\x7b' := by
  have hblank : f ≠ ' ' := by
    rintro rfl
    exact absurd hf (by decide)
  -- In a literal, the only character that starts an identifier is the mark of a substitution.
  have hliteral : ∀ {quote : Char} {substitution : Option Nat},
      isIdentStart quote = false → blankFrom (literal quote substitution) (d :: t) = f :: rest →
        d = '$' ∧ t.head? = some '\x7b' := by
    intro quote substitution hquote hread
    rw [blankFrom] at hread
    split_ifs at hread with hescape hend hopen
    · exact absurd (List.cons.inj hread).1.symm hblank
    · obtain ⟨rfl, -⟩ := List.cons.inj hread
      rw [hend, hquote] at hf
      cases hf
    · exact hopen.2
    · exact absurd (List.cons.inj hread).1.symm hblank
  cases state with
  | opening => exact .inl (List.cons.inj hscan).1.symm
  | code substitution => exact .inl (List.cons.inj hscan).1.symm
  | escape quote substitution => exact .inr (hliteral hstate (List.cons.inj hscan).2)
  | literal quote substitution =>
      rw [blankFrom] at hscan
      split_ifs at hscan
      · exact absurd (List.cons.inj (List.cons.inj hscan).2).1.symm hblank
      · exact .inl (List.cons.inj hscan).1.symm
      · exact .inl (List.cons.inj hscan).1.symm
      · exact .inr (hliteral hstate (List.cons.inj hscan).2)

end LiteralState

theorem forall₂_blankStrings (line : Text) : List.Forall₂ IsCopy line (blankStrings line) :=
  LiteralState.forall₂_blankFrom (LiteralState.endsAtMark_code none) line

/-- Behind the front of a line the scan goes on in some state. -/
theorem exists_blankFrom_eq {front rest front' rest' : Text}
    (hblank : blankStrings (front ++ rest) = front' ++ rest')
    (hlength : front'.length = front.length) :
    ∃ next : LiteralState, next.EndsAtMark ∧ blankFrom next rest = rest' := by
  obtain ⟨next, hnext, hdrop⟩ :=
    LiteralState.exists_drop_blankFrom (LiteralState.endsAtMark_code none) (front ++ rest)
      front.length
  refine ⟨next, hnext, ?_⟩
  rw [List.drop_left, ← blankStrings, hblank, ← hlength, List.drop_left] at hdrop
  exact hdrop.symm

theorem Identifier.exists_cons (name : Identifier) :
    ∃ c rest, name.text = c :: rest ∧ isIdentStart c := by
  obtain ⟨t, hvalid⟩ := name
  cases t with
  | nil => cases hvalid
  | cons c rest =>
      rw [isIdentifier, Bool.and_eq_true] at hvalid
      exact ⟨c, rest, rfl, hvalid.1⟩

/-- A name that is left of a line has the same character in front of it as in the line, unless it
is the mark of a substitution. -/
theorem head?_before_eq_or {name : Identifier} {before front after tail : Text}
    (hlength : front.length = before.length)
    (hblank : blankStrings (before.reverse ++ (name.text ++ after)) =
      front.reverse ++ (name.text ++ tail)) :
    before.head? = front.head? ∨ name.text = ['$'] ∧ after.head? = some '\x7b' := by
  obtain ⟨c, word, htext, hc⟩ := name.exists_cons
  cases before with
  | nil => exact .inl (by rw [List.length_eq_zero_iff.1 hlength])
  | cons d before =>
      obtain ⟨e, front, rfl⟩ := List.exists_cons_of_length_eq_add_one hlength
      have hscan : blankStrings (before.reverse ++ (d :: c :: (word ++ after))) =
          front.reverse ++ (e :: c :: (word ++ tail)) := by simpa [htext] using hblank
      obtain ⟨next, hnext, hscan⟩ := exists_blankFrom_eq hscan (by simpa using hlength)
      obtain rfl | ⟨rfl, hopen⟩ := LiteralState.eq_or_of_isIdentStart hnext hscan hc
      · exact .inl rfl
      · cases word with
        | nil => exact .inr ⟨htext, hopen⟩
        | cons f word =>
            obtain rfl : f = '\x7b' := Option.some.inj hopen
            exact absurd (name.isWord.parts '\x7b' (by simp [htext])) (by decide)

/-- A word that is left of a line has the same character behind it as in the line. -/
theorem head?_after_eq {before front word after tail : Text} (hword : IsWord word)
    (hlength : front.length = before.length)
    (hblank : blankStrings (before ++ (word ++ after)) = front ++ (word ++ tail)) :
    after.head? = tail.head? := by
  obtain ⟨init, l, rfl⟩ := (List.eq_nil_or_concat word).resolve_left hword.ne_nil
  have hscan : blankStrings ((before ++ init) ++ (l :: after)) =
      (front ++ init) ++ (l :: tail) := by simpa using hblank
  obtain ⟨next, hnext, hscan⟩ := exists_blankFrom_eq hscan (by simp [hlength])
  have hcopy := LiteralState.forall₂_blankFrom hnext (l :: after)
  rw [hscan] at hcopy
  cases hcopy with
  | cons _ hcopy =>
      cases hcopy with
      | nil => rfl
      | cons _ _ =>
          have hl : isIdentPart l := hword.parts l (by simp)
          rw [LiteralState.eq_of_isIdentPart hscan hl]
          rfl

/-! ## Identifiers -/

/-- An identifier of a text with what stands around it makes up the text. -/
theorem eq_of_mem_identifiersFrom {inside : Bool} {before t : Text} {o : Occurrence}
    (ho : o ∈ identifiersFrom inside before t) :
    o.before.reverse ++ (o.name ++ o.after) = before.reverse ++ t := by
  induction t generalizing inside before with
  | nil => cases ho
  | cons c rest ih =>
      have hmove : (c :: before).reverse ++ rest = before.reverse ++ c :: rest := by simp
      rw [identifiersFrom] at ho
      split_ifs at ho
      · rw [ih ho, hmove]
      · obtain rfl | ho := List.mem_cons.1 ho
        · rw [List.cons_append, List.takeWhile_append_dropWhile]
        · rw [ih ho, hmove]
      · rw [ih ho, hmove]

/-- Behind an identifier stands no character of it. -/
theorem isIdentPart_of_mem_after {inside : Bool} {before t : Text} {o : Occurrence}
    (ho : o ∈ identifiersFrom inside before t) : ∀ c ∈ o.after.head?, isIdentPart c = false := by
  induction t generalizing inside before with
  | nil => cases ho
  | cons c rest ih =>
      rw [identifiersFrom] at ho
      split_ifs at ho
      · exact ih ho
      · obtain rfl | ho := List.mem_cons.1 ho
        · intro d hd
          have hnot := List.head?_dropWhile_not isIdentPart rest
          rw [Option.mem_def.1 hd] at hnot
          simpa using hnot
        · exact ih ho
      · exact ih ho

/-- In front of an identifier stands no character that starts one. -/
theorem isIdentStart_of_mem_before {inside : Bool} {before t : Text} {o : Occurrence}
    (hbefore : inside = false → ∀ c ∈ before.head?, isIdentStart c = false)
    (ho : o ∈ identifiersFrom inside before t) : ∀ c ∈ o.before.head?, isIdentStart c = false := by
  induction t generalizing inside before with
  | nil => cases ho
  | cons c rest ih =>
      rw [identifiersFrom] at ho
      split_ifs at ho with hinside hstart
      · exact ih (fun h => by cases h) ho
      · obtain rfl | ho := List.mem_cons.1 ho
        · apply hbefore
          rw [isIdentPart_of_isIdentStart hstart, Bool.and_true] at hinside
          simpa using hinside
        · exact ih (fun h => by cases h) ho
      · exact ih (fun _ => by simpa using hstart) ho

/-- A character of a name that neither starts an identifier nor is a digit is a letter or a number
outside the ASCII block. -/
theorem isAlphanumeric_of_isNameChar {c : Char} (hc : isNameChar c)
    (hstart : isIdentStart c = false) (hdigit : c.isDigit = false) :
    Text.isAlphanumeric c ∧ 128 ≤ c.toNat := by
  simp only [isIdentStart, Bool.or_eq_false_iff, beq_eq_false_iff_ne] at hstart
  obtain ⟨⟨halpha, hunderscore⟩, hdollar⟩ := hstart
  have hletter : Text.isAlphanumeric c := by simpa [isNameChar, hunderscore, hdollar] using hc
  refine ⟨hletter, ?_⟩
  by_contra hascii
  rw [Text.isAlphanumeric, if_pos (by omega), Text.isAsciiAlphanumeric, halpha, hdigit] at hletter
  cases hletter

/-- What is no member stands behind a dot only at the end of a spread. -/
theorem Occurrence.exists_of_dot {o : Occurrence} {rest : Text} (hmember : o.isMember = false)
    (hbefore : o.before = '.' :: rest) : ∃ more, rest = '.' :: '.' :: more := by
  rw [isMember, hbefore] at hmember
  split at hmember
  · rename_i more hspread
    exact ⟨more, (List.cons.inj hspread).2⟩
  · cases hmember
  · rename_i hdot
    exact absurd rfl (hdot rest)

/-- An identifier of the code of a line, in the line without its literals. -/
theorem exists_blankStrings_eq {line : Text} {o : Occurrence}
    (ho : o ∈ identifiersFrom false [] (codeOf line)) :
    ∃ tail, blankStrings line = o.before.reverse ++ (o.name ++ tail) ∧
      ∀ c ∈ tail.head?, isIdentPart c = false := by
  obtain ⟨comment, hline, hcomment⟩ := exists_eq_codePart_append (blankStrings line)
  refine ⟨o.after ++ comment, ?_, ?_⟩
  · have hcode : o.before.reverse ++ (o.name ++ o.after) = codePart (blankStrings line) :=
      eq_of_mem_identifiersFrom ho
    rw [hline, ← hcode]
    simp
  · intro c hc
    cases hafter : o.after with
    | nil =>
        rw [hafter] at hc
        rw [hcomment c hc]
        decide
    | cons d rest =>
        rw [hafter] at hc
        exact isIdentPart_of_mem_after ho c (by rw [hafter]; exact hc)

/-! ## Places of a name -/

/-- A place where a name stands on a line of code; the text in front is written backwards. -/
structure Place (text : Text) (name : Identifier) where
  line : Text
  before : Text
  after : Text
  mem : line ∈ codeLines text
  eq : line = before.reverse ++ (name.text ++ after)

namespace Place

variable {text : Text} {name : Identifier}

/-- The name is listed as used at this place of the line. -/
def IsListed (p : Place text name) : Prop :=
  ∃ o ∈ identifiersFrom false [] (codeOf p.line), o.isUse ∧ o.name = name.text ∧
    o.before.length = p.before.length

/-- The search for the name is content with this place. -/
def IsFound (p : Place text name) : Prop :=
  ¬ ['/', '/'] <:+: p.before ∧ mayStart p.before ∧ mayEnd p.after

/-- Why the search for the name passes over a place where it is listed. -/
inductive IsOverlooked (p : Place text name) : Prop where
  /-- Two slashes in front, which in front of a listed name belong to a literal. -/
  | behindSlashes (hslashes : ['/', '/'] <:+: p.before)
  /-- Letters outside the ASCII block continue words of the search, not of the list. -/
  | behindLetter (c : Char) (hc : c ∈ p.before.head?) (hletter : Text.isAlphanumeric c)
      (hwide : 128 ≤ c.toNat)
  /-- A superscript, say, ends a listed identifier and continues a word of the search. -/
  | aheadOfNumber (c : Char) (hc : c ∈ p.after.head?) (hnumber : Text.isAlphanumeric c)
      (hword : Text.isWordChar c = false)
  /-- The list takes the mark of a substitution for a name of its own. -/
  | opensSubstitution (hname : name.text = ['$']) (hopen : p.after.head? = some '\x7b')
      (hbefore : mayStart p.before = false)

/-- A name is found exactly if some place of it is. -/
theorem exists_isFound_iff : (∃ p : Place text name, p.IsFound) ↔ uses text name.text := by
  have hslash : '/' ∉ name.text := name.isWord.not_mem (by decide)
  rw [uses, List.any_eq_true]
  constructor
  · rintro ⟨⟨line, before, after, hmem, rfl⟩, hslashes, hstart, hend⟩
    refine ⟨_, hmem, (mentions_iff _ name).2 ⟨before.reverse, codePart after, ?_, ?_, ?_⟩⟩
    · have hfront : ¬ ['/', '/'] <:+: before.reverse := by
        rwa [← List.reverse_infix, List.reverse_reverse]
      have hhead : (name.text ++ after).head? ≠ some '/' := by
        obtain ⟨c, rest, htext⟩ := List.exists_cons_of_ne_nil name.isWord.ne_nil
        rw [htext] at hslash ⊢
        intro hc
        obtain rfl : c = '/' := Option.some.inj hc
        exact hslash (List.mem_cons_self ..)
      rw [codePart_append hfront hhead, codePart_append_of_not_mem hslash]
    · rwa [List.reverse_reverse]
    · rwa [mayEnd_codePart]
  · rintro ⟨line, hmem, hmentions⟩
    obtain ⟨front, after, hcode, hstart, hend⟩ := (mentions_iff _ name).1 hmentions
    obtain ⟨comment, hline, hcomment⟩ := exists_eq_codePart_append line
    refine ⟨⟨line, front.reverse, after ++ comment, hmem, ?_⟩, ?_, hstart, ?_⟩
    · rw [hline, hcode]
      simp
    · intro hslashes
      apply not_infix_codePart line
      rw [← List.reverse_infix, List.reverse_reverse] at hslashes
      rw [hcode]
      exact hslashes.trans (List.prefix_append ..).isInfix
    · rwa [mayEnd_append_of_slash hcomment]

/-- A name is listed exactly if some place of it is. -/
theorem exists_isListed_iff :
    (∃ p : Place text name, p.IsListed) ↔ name.text ∈ usedNames text := by
  have hlisted : name.text ∈ usedNames text ↔ ∃ line ∈ codeLines text,
      ∃ o ∈ identifiersFrom false [] (codeOf line), o.isUse ∧ o.name = name.text := by
    simp [usedNames, Text.mem_sortedSet, lineIdentifiers, codeOf, and_assoc]
  rw [hlisted]
  constructor
  · rintro ⟨p, o, ho, huse, hname, -⟩
    exact ⟨p.line, p.mem, o, ho, huse, hname⟩
  · rintro ⟨line, hmem, o, ho, huse, hname⟩
    obtain ⟨tail, hblank, -⟩ := exists_blankStrings_eq ho
    have hcopy := forall₂_blankStrings line
    rw [hblank] at hcopy
    obtain ⟨before, after, hline, hbefore⟩ :=
      exists_eq_of_isCopy (hname ▸ name.isWord.not_mem (by decide)) hcopy
    refine ⟨⟨line, before.reverse, after, hmem, ?_⟩, o, ho, huse, hname, ?_⟩
    · rw [hline, List.reverse_reverse, hname]
    · rw [List.length_reverse, hbefore.length_eq, List.length_reverse]

variable {p : Place text name}

/-- What stands around a listed name is code, but for the front of a substitution. -/
theorem IsListed.surroundings (hlisted : p.IsListed) :
    ∃ o ∈ identifiersFrom false [] (codeOf p.line), o.isUse ∧
      List.Forall₂ IsCopy p.before o.before ∧
      (p.before.head? = o.before.head? ∨ name.text = ['$'] ∧ p.after.head? = some '\x7b') ∧
      ∀ c ∈ p.after.head?, isIdentPart c = false := by
  obtain ⟨o, ho, huse, hname, hlength⟩ := hlisted
  obtain ⟨tail, hblank, htail⟩ := exists_blankStrings_eq ho
  have hfront : List.Forall₂ IsCopy p.before o.before := by
    have hcopy := forall₂_blankStrings p.line
    rw [hblank] at hcopy
    have htake := List.forall₂_take_append _ _ _ hcopy
    rw [p.eq, List.length_reverse, hlength, List.take_left' (List.length_reverse ..)] at htake
    exact List.forall₂_reverse_iff.1 htake
  rw [hname, p.eq] at hblank
  refine ⟨o, ho, huse, hfront, head?_before_eq_or hlength hblank, ?_⟩
  rw [head?_after_eq name.isWord (by simpa using hlength) hblank]
  exact htail

/-- In front of a listed name the search stops only at a letter outside the ASCII block, or at the
text of a template. -/
theorem IsListed.mayStart_eq_false_iff (hlisted : p.IsListed) :
    mayStart p.before = false ↔
      (∃ c ∈ p.before.head?, Text.isAlphanumeric c ∧ 128 ≤ c.toNat) ∨
        name.text = ['$'] ∧ p.after.head? = some '\x7b' ∧ mayStart p.before = false := by
  constructor
  · intro hstart
    obtain ⟨o, ho, huse, hcopy, hhead | ⟨hname, hopen⟩, -⟩ := hlisted.surroundings
    · left
      simp only [Occurrence.isUse, Bool.and_eq_true, Bool.not_eq_true'] at huse
      obtain ⟨⟨hmember, hnumber⟩, -⟩ := huse
      have hseen := isIdentStart_of_mem_before (by simp) ho
      cases hbefore : p.before with
      | nil =>
          rw [hbefore] at hstart
          cases hstart
      | cons c rest =>
          rw [hbefore] at hstart hhead hcopy
          obtain ⟨rest', hrest⟩ := List.head?_eq_some_iff.1 hhead.symm
          rw [hrest] at hcopy
          refine ⟨c, rfl, isAlphanumeric_of_isNameChar ?_ (hseen c (by rw [hrest]; rfl)) ?_⟩
          · by_cases hdot : c = '.'
            · -- The dot ends a spread, behind which the search goes on.
              subst hdot
              obtain ⟨more, rfl⟩ := Occurrence.exists_of_dot hmember hrest
              have hspread : List.Forall₂ IsCopy ('.' :: rest) ([] ++ (['.', '.', '.'] ++ more)) :=
                hcopy
              obtain ⟨front, after, hline, hfront⟩ := exists_eq_of_isCopy (by decide) hspread
              cases hfront
              rw [hline] at hstart
              cases hstart
            · simpa [mayStart_cons_of_ne hdot] using hstart
          · simpa [Occurrence.isInsideNumber, hrest] using hnumber
    · exact .inr ⟨hname, hopen, hstart⟩
  · rintro (⟨c, hc, hletter, -⟩ | ⟨-, -, hstart⟩)
    · obtain ⟨rest, hbefore⟩ := List.head?_eq_some_iff.1 hc
      rw [hbefore]
      apply mayStart_of_isNameChar
      rw [isNameChar, hletter]
      rfl
    · exact hstart

theorem IsListed.mayEnd_eq_false_iff (hlisted : p.IsListed) :
    mayEnd p.after = false ↔
      ∃ c ∈ p.after.head?, Text.isAlphanumeric c ∧ Text.isWordChar c = false := by
  obtain ⟨-, -, -, -, -, hpart⟩ := hlisted.surroundings
  cases hafter : p.after with
  | nil => simp [mayEnd]
  | cons c rest =>
      rw [hafter] at hpart
      have hc := hpart c rfl
      simp only [isIdentPart, Bool.or_eq_false_iff, beq_eq_false_iff_ne] at hc
      have hunderscore : c ≠ '_' := by
        rintro rfl
        exact absurd hc.1 (by decide)
      simp [mayEnd, isNameChar, hc.1, hc.2, hunderscore]

/-- A listed name is found where it stands, unless one of the reasons holds there. -/
theorem IsListed.isFound_iff (hlisted : p.IsListed) : p.IsFound ↔ ¬ p.IsOverlooked := by
  constructor
  · rintro ⟨hslashes, hstart, hend⟩ hoverlooked
    cases hoverlooked with
    | behindSlashes h => exact hslashes h
    | behindLetter c hc hletter hwide =>
        rw [hlisted.mayStart_eq_false_iff.2 (.inl ⟨c, hc, hletter, hwide⟩)] at hstart
        cases hstart
    | aheadOfNumber c hc hnumber hword =>
        rw [hlisted.mayEnd_eq_false_iff.2 ⟨c, hc, hnumber, hword⟩] at hend
        cases hend
    | opensSubstitution hname hopen hbefore =>
        rw [hbefore] at hstart
        cases hstart
  · intro hnone
    refine ⟨fun h => hnone (.behindSlashes h), ?_, ?_⟩
    · by_contra hstart
      obtain ⟨c, hc, hletter, hwide⟩ | ⟨hname, hopen, hbefore⟩ :=
        hlisted.mayStart_eq_false_iff.1 (Bool.eq_false_iff.2 hstart)
      · exact hnone (.behindLetter c hc hletter hwide)
      · exact hnone (.opensSubstitution hname hopen hbefore)
    · by_contra hend
      obtain ⟨c, hc, hnumber, hword⟩ := hlisted.mayEnd_eq_false_iff.1 (Bool.eq_false_iff.2 hend)
      exact hnone (.aheadOfNumber c hc hnumber hword)

end Place

/-- A name is listed and not found exactly if it is listed at some place, every such place is
overlooked, and the search is content with no other place. -/
theorem listed_and_not_found_iff (text : Text) (name : Identifier) :
    (name.text ∈ usedNames text ∧ uses text name.text = false) ↔
      (∃ p : Place text name, p.IsListed) ∧
        ∀ p : Place text name,
          (p.IsListed → p.IsOverlooked) ∧ (¬ p.IsListed → ¬ p.IsFound) := by
  rw [← Place.exists_isListed_iff, Bool.eq_false_iff, Ne, ← Place.exists_isFound_iff, not_exists]
  apply and_congr_right
  intro _
  apply forall_congr'
  intro p
  by_cases hlisted : p.IsListed
  · simp [hlisted, hlisted.isFound_iff]
  · simp [hlisted]

/-- A call behind a literal that holds a web address. -/
def callBehindAddress : Text :=
  "let u = \"http://x\"; foo();\n".toList

theorem listed_and_not_found_behind_address :
    "foo".toList ∈ usedNames callBehindAddress ∧ uses callBehindAddress "foo".toList = false ∧
      ∃ p : Place callBehindAddress ⟨"foo".toList, rfl⟩, p.IsListed ∧ p.IsOverlooked := by
  have hlisted : "foo".toList ∈ usedNames callBehindAddress := by decide +kernel
  have hmissed : uses callBehindAddress "foo".toList = false := by decide +kernel
  have hplaces := (listed_and_not_found_iff callBehindAddress ⟨"foo".toList, rfl⟩).1
    ⟨hlisted, hmissed⟩
  obtain ⟨p, hp⟩ := hplaces.1
  exact ⟨hlisted, hmissed, p, hp, (hplaces.2 p).1 hp⟩

end Transplant
