import Transplant.Clause
import Transplant.Proofs.LineView

/-!
# Reading and writing clauses

What the readers of import and export clauses accept: each is described by the texts it takes a
value from.  The descriptions are equivalences, so they serve both to take a statement apart and to
show that a written clause is read back.  A carriage return at the end of the text stays in the
rest, whatever is read in front of it.
-/

namespace Transplant

namespace Text

/-! ## Trimming -/

theorem trimStart_append {gap : Text} (hgap : ∀ c ∈ gap, isBlank c) (t : Text) :
    trimStart (gap ++ t) = trimStart t :=
  List.dropWhile_append_of_pos hgap

theorem trimStart_cons {c : Char} (hc : isBlank c = false) (t : Text) :
    trimStart (c :: t) = c :: t := by
  simp [trimStart, hc]

/-- A text is its blanks in front and the rest. -/
theorem exists_gap (t : Text) : ∃ gap : Text, (∀ c ∈ gap, isBlank c) ∧ t = gap ++ t.trimStart := by
  refine ⟨t.takeWhile isBlank, ?_, ?_⟩
  · exact fun c hc => List.mem_takeWhile_imp hc
  · rw [trimStart, List.takeWhile_append_dropWhile]

theorem dropWhile_concat {p : Char → Bool} {c : Char} (hp : p c = true) (t : Text) :
    (t ++ [c]).dropWhile p = if t.dropWhile p = [] then [] else t.dropWhile p ++ [c] := by
  rw [List.dropWhile_append]
  by_cases hnil : t.dropWhile p = []
  · simp [hnil, hp]
  · simp [hnil]

theorem takeWhile_append_of_dropWhile {p : Char → Bool} {t : Text} (hne : t.dropWhile p ≠ [])
    (more : Text) : (t ++ more).takeWhile p = t.takeWhile p := by
  have hlength : (t.takeWhile p).length ≠ t.length := by
    intro hlength
    have hsplit := congrArg List.length (List.takeWhile_append_dropWhile (p := p) (l := t))
    rw [List.length_append] at hsplit
    exact hne (List.eq_nil_of_length_eq_zero (by omega))
  rw [List.takeWhile_append, if_neg hlength]

theorem trimStart_concat {c : Char} (hc : isBlank c) (t : Text) :
    trimStart (t ++ [c]) = if t.trimStart = [] then [] else t.trimStart ++ [c] :=
  dropWhile_concat hc t

theorem trimStart_append_return (t : Text) :
    trimStart (t ++ ['\r']) = if t.trimStart = [] then [] else t.trimStart ++ ['\r'] :=
  trimStart_concat (by decide) t

theorem trimEnd_append {gap : Text} (hgap : ∀ c ∈ gap, isBlank c) (t : Text) :
    trimEnd (t ++ gap) = trimEnd t := by
  have hrev : ∀ c ∈ gap.reverse, isBlank c := fun c hc => hgap c (List.mem_reverse.1 hc)
  rw [trimEnd, trimEnd, dropEndWhile, dropEndWhile, List.reverse_append,
    List.dropWhile_append_of_pos hrev]

/-- Blanks around a text do not show once it is trimmed. -/
theorem trim_append {before after : Text} (hbefore : ∀ c ∈ before, isBlank c)
    (hafter : ∀ c ∈ after, isBlank c) (t : Text) : trim (before ++ t ++ after) = trim t := by
  rw [trim, trim, List.append_assoc, trimStart_append hbefore]
  by_cases hnil : t.trimStart = []
  · have hblank : ∀ c ∈ t ++ after, isBlank c := by
      intro c hc
      rcases List.mem_append.1 hc with h | h
      · exact trimStart_eq_nil_iff.1 hnil c h
      · exact hafter c h
    rw [trimStart_eq_nil_iff.2 hblank, hnil]
  · have hstart : trimStart (t ++ after) = trimStart t ++ after := by
      rw [trimStart] at hnil
      simp [trimStart, List.dropWhile_append, hnil]
    rw [hstart, trimEnd_append hafter]

@[simp]
theorem trim_append_return (t : Text) : trim (t ++ ['\r']) = trim t := by
  have hnil : ∀ c ∈ ([] : Text), isBlank c := by simp
  exact trim_append hnil (List.forall_mem_singleton.2 (by decide)) t

theorem mem_of_mem_trim {t : Text} {c : Char} (hc : c ∈ t.trim) : c ∈ t := by
  rw [trim, trimEnd, dropEndWhile, List.mem_reverse] at hc
  have hmem := List.mem_reverse.1 ((List.dropWhile_suffix _).subset hc)
  exact (List.dropWhile_suffix _).subset hmem

/-- A text is its blanks in front, what is left of it by trimming, and its blanks behind. -/
theorem exists_trim (t : Text) :
    ∃ before after : Text, (∀ c ∈ before, isBlank c) ∧ (∀ c ∈ after, isBlank c) ∧
      t = before ++ t.trim ++ after := by
  obtain ⟨before, hbefore, ht⟩ := exists_gap t
  refine ⟨before, (t.trimStart.reverse.takeWhile isBlank).reverse, hbefore, ?_, ?_⟩
  · exact fun c hc => List.mem_takeWhile_imp (List.mem_reverse.1 hc)
  · conv_lhs => rw [ht]
    rw [List.append_assoc]
    congr 1
    rw [trim, trimEnd, dropEndWhile, ← List.reverse_append, List.takeWhile_append_dropWhile,
      List.reverse_reverse]

@[simp]
theorem trim_trim (t : Text) : t.trim.trim = t.trim := by
  obtain ⟨before, after, hbefore, hafter, ht⟩ := exists_trim t
  conv_rhs => rw [ht, trim_append hbefore hafter]

/-- The end of a text is the end of its non-empty last part. -/
theorem getLast?_append_ne {front trailing : Text} {c : Char}
    (hfront : front.getLast? ≠ some c) (htrailing : trailing.getLast? ≠ some c) :
    (front ++ trailing).getLast? ≠ some c := by
  cases hlast : trailing.getLast? with
  | none =>
      rw [List.getLast?_eq_none_iff.1 hlast, List.append_nil]
      exact hfront
  | some d =>
      rw [hlast] at htrailing
      rwa [List.getLast?_append, hlast, Option.some_or]

theorem getLast?_ne_of_append {front trailing : Text} {c : Char}
    (hwhole : (front ++ trailing).getLast? ≠ some c) : trailing.getLast? ≠ some c := by
  intro hlast
  apply hwhole
  rw [List.getLast?_append, hlast, Option.some_or]

/-! ## Phrases -/

theorem after?_concat {phrase : Text} {c : Char} (hphrase : c ∉ phrase) (t : Text) :
    after? phrase (t ++ [c]) = (after? phrase t).map (· ++ [c]) := by
  induction phrase generalizing t with
  | nil => rfl
  | cons p phrase ih =>
      obtain ⟨hp, hphrase⟩ := not_or.1 (mt List.mem_cons.2 hphrase)
      cases t with
      | nil => simp [after?, Ne.symm hp]
      | cons d t =>
          by_cases hpd : p = d
          · simp [after?, hpd, ih hphrase]
          · simp [after?, hpd]

/-- A text starts with a phrase if it does so without the carriage return at its end. -/
theorem startsWith_append_return {phrase : Text} (hphrase : '\r' ∉ phrase) (t : Text) :
    startsWith (t ++ ['\r']) phrase = startsWith t phrase := by
  rw [startsWith, after?_concat hphrase, Option.isSome_map, startsWith]

theorem startsWith_trimStart_append_return {phrase : Text} (hphrase : '\r' ∉ phrase) (t : Text) :
    startsWith (t ++ ['\r']).trimStart phrase = startsWith t.trimStart phrase := by
  rw [trimStart_append_return]
  split
  · rename_i hnil
    rw [hnil]
  · exact startsWith_append_return hphrase _

end Text

namespace Clause

/-- The first character of a phrase is no blank. -/
def StartsSolid (phrase : String) : Prop :=
  ∃ c rest, phrase.toList = c :: rest ∧ Text.isBlank c = false

theorem expect?_eq_some_iff {phrase : String} (hphrase : StartsSolid phrase) {t rest : Text} :
    expect? phrase t = some rest ↔
      ∃ gap : Text, (∀ c ∈ gap, Text.isBlank c) ∧ t = gap ++ phrase.toList ++ rest := by
  rw [expect?, Text.after?_eq_some_iff]
  constructor
  · intro hstart
    obtain ⟨gap, hgap, ht⟩ := Text.exists_gap t
    exact ⟨gap, hgap, by rw [List.append_assoc, ← hstart, ← ht]⟩
  · rintro ⟨gap, hgap, rfl⟩
    obtain ⟨c, cs, hcs, hc⟩ := hphrase
    rw [List.append_assoc, Text.trimStart_append hgap, hcs, List.cons_append,
      Text.trimStart_cons hc]

theorem expect?_append_return {phrase : String} (hne : phrase.toList ≠ [])
    (hphrase : '\r' ∉ phrase.toList) (t : Text) :
    expect? phrase (t ++ ['\r']) = (expect? phrase t).map (· ++ ['\r']) := by
  rw [expect?, expect?, Text.trimStart_append_return]
  split
  · rename_i hnil
    obtain ⟨c, cs, hcs⟩ := List.exists_cons_of_ne_nil hne
    rw [hnil, hcs]
    rfl
  · exact Text.after?_concat hphrase _

/-! ## Lists of names -/

/-- A text that can stand between the commas of a list of names: trimmed, not empty, and without
the characters that end an entry or the list. -/
structure IsEntry (entry : Text) : Prop where
  ne_nil : entry ≠ []
  trimmed : entry.trim = entry
  comma : ',' ∉ entry
  brace : '\x7d' ∉ entry

theorem names_append_comma (left right : Text) :
    names (left ++ ',' :: right) = names left ++ names right := by
  rw [names, names, names, Text.pieces_append_sep, List.map_append, List.filter_append]

theorem names_of_not_mem {t : Text} (hcomma : ',' ∉ t) :
    names t = if t.trim = [] then [] else [t.trim] := by
  rw [names, Text.pieces_of_not_mem hcomma]
  by_cases hnil : t.trim = []
  · simp [hnil]
  · simp [hnil]

theorem mem_of_mem_names {body entry : Text} {c : Char} (hentry : entry ∈ names body)
    (hc : c ∈ entry) : c ∈ body := by
  rw [names, List.mem_filter, List.mem_map] at hentry
  obtain ⟨⟨piece, hpiece, rfl⟩, -⟩ := hentry
  exact Text.mem_of_mem_pieces hpiece (Text.mem_of_mem_trim hc)

theorem isEntry_of_mem_names {body entry : Text} (hbrace : '\x7d' ∉ body)
    (hentry : entry ∈ names body) : IsEntry entry := by
  have hin : ∀ c ∈ entry, c ∈ body := fun c => mem_of_mem_names hentry
  rw [names, List.mem_filter, List.mem_map] at hentry
  obtain ⟨⟨piece, hpiece, rfl⟩, hne⟩ := hentry
  constructor
  · simpa using hne
  · exact Text.trim_trim piece
  · exact fun hcomma => Text.not_mem_of_mem_pieces hpiece (Text.mem_of_mem_trim hcomma)
  · exact fun h => hbrace (hin _ h)

/-- The names between the braces of a written list are the names that were written. -/
theorem names_join {entries : List Text} (hentries : ∀ entry ∈ entries, IsEntry entry) :
    names (' ' :: (Text.join ", ".toList entries ++ [' '])) = entries := by
  have hspace : ∀ c ∈ [' '], Text.isBlank c := List.forall_mem_singleton.2 (by decide)
  induction entries with
  | nil => rfl
  | cons entry entries ih =>
      have hentry := hentries entry (List.mem_cons_self ..)
      have hfirst : ∀ after : Text, (∀ c ∈ after, Text.isBlank c) → ',' ∉ after →
          names (' ' :: (entry ++ after)) = [entry] := by
        intro after hafter hcomma
        have htrim : Text.trim (' ' :: (entry ++ after)) = entry := by
          have hgap := Text.trim_append hspace hafter entry
          rw [hentry.trimmed] at hgap
          simpa using hgap
        rw [names_of_not_mem, htrim, if_neg hentry.ne_nil]
        simp [hentry.comma, hcomma]
      cases entries with
      | nil => simpa using hfirst [' '] hspace (by decide)
      | cons second entries =>
          have hrest := ih fun other hother => hentries other (List.mem_cons_of_mem _ hother)
          have hsplit : ' ' :: (Text.join ", ".toList (entry :: second :: entries) ++ [' ']) =
              (' ' :: (entry ++ [])) ++
                ',' :: ' ' :: (Text.join ", ".toList (second :: entries) ++ [' ']) := by
            rw [Text.join_cons_cons]
            simp
          rw [hsplit, names_append_comma, hfirst [] (by simp) (by simp), hrest]
          rfl

/-! ## Braces -/

theorem braced?_eq_some_iff {t rest : Text} {entries : List Text} :
    braced? t = some (entries, rest) ↔
      ∃ gap body : Text, (∀ c ∈ gap, Text.isBlank c) ∧ '\x7d' ∉ body ∧
        t = gap ++ '\x7b' :: (body ++ '\x7d' :: rest) ∧ entries = names body := by
  have hsolid : StartsSolid "\x7b" := ⟨'\x7b', [], rfl, by decide⟩
  simp only [braced?, Option.bind_eq_bind, Option.bind_eq_some_iff, expect?_eq_some_iff hsolid,
    Text.after?_eq_some_iff, Option.pure_def, Option.some.injEq, Prod.mk.injEq]
  constructor
  · rintro ⟨inner, ⟨gap, hgap, rfl⟩, rest', hrest, rfl, rfl⟩
    refine ⟨gap, inner.takeWhile (· ≠ '\x7d'), hgap, ?_, ?_, rfl⟩
    · exact fun hmem => by simpa using List.mem_takeWhile_imp hmem
    · have hinner :=
        List.takeWhile_append_dropWhile (p := fun c => decide (c ≠ '\x7d')) (l := inner)
      rw [hrest] at hinner
      simpa using hinner.symm
  · rintro ⟨gap, body, hgap, hbody, rfl, rfl⟩
    have hpass : ∀ c ∈ body, decide (c ≠ '\x7d') = true := by
      intro c hc
      simp only [ne_eq, decide_eq_true_eq]
      rintro rfl
      exact hbody hc
    refine ⟨body ++ '\x7d' :: rest, ⟨gap, hgap, by simp⟩, rest, ?_, ?_, rfl⟩
    · rw [List.dropWhile_append_of_pos hpass]
      rfl
    · rw [List.takeWhile_append_of_pos hpass]
      simp

theorem braced?_append_return (t : Text) :
    braced? (t ++ ['\r']) = (braced? t).map fun (entries, rest) => (entries, rest ++ ['\r']) := by
  have hopen : expect? "\x7b" (t ++ ['\r']) = (expect? "\x7b" t).map (· ++ ['\r']) :=
    expect?_append_return (by simp) (by decide) t
  simp only [braced?, hopen, Option.bind_eq_bind, Option.pure_def]
  cases hbody : expect? "\x7b" t with
  | none => rfl
  | some body =>
      simp only [Option.map_some, Option.bind_some]
      rw [Text.dropWhile_concat (c := '\r') (by decide)]
      by_cases hnil : body.dropWhile (· ≠ '\x7d') = []
      · rw [if_pos hnil, hnil]
        rfl
      · rw [if_neg hnil, Text.takeWhile_append_of_dropWhile hnil,
          Text.after?_concat (c := '\r') (by decide)]
        cases Text.after? ['\x7d'] (body.dropWhile (· ≠ '\x7d')) with
        | none => rfl
        | some rest => rfl

/-! ## Module paths -/

theorem isBlank_of_isQuote {c : Char} (hquote : Prologue.isQuote c) : Text.isBlank c = false := by
  simp only [Prologue.isQuote, Bool.or_eq_true, beq_iff_eq] at hquote
  rcases hquote with rfl | rfl <;> decide

theorem quoted?_eq_some_iff {t rest : Text} {origin : Origin} :
    quoted? t = some (origin, rest) ↔
      ∃ (gap : Text) (closing : Char), (∀ c ∈ gap, Text.isBlank c) ∧
        Prologue.isQuote origin.quote ∧ Prologue.isQuote closing ∧
        (∀ c ∈ origin.path, Prologue.isQuote c = false) ∧
        t = gap ++ origin.quote :: (origin.path ++ closing :: rest) := by
  constructor
  · intro hread
    obtain ⟨gap, hgap, ht⟩ := Text.exists_gap t
    unfold quoted? at hread
    split at hread
    · rename_i quote body hstart
      split at hread
      · rename_i hquote
        split at hread
        · rename_i closing tail hdrop
          cases hread
          have hclosing :=
            List.head_dropWhile_not (!Prologue.isQuote ·) (l := body) (by simp [hdrop])
          have hbody := List.takeWhile_append_dropWhile (p := (!Prologue.isQuote ·)) (l := body)
          refine ⟨gap, closing, hgap, hquote, by simpa [hdrop] using hclosing, ?_, ?_⟩
          · intro c hc
            simpa using List.mem_takeWhile_imp hc
          · rw [hdrop] at hbody
            rw [ht, hstart, hbody]
        · cases hread
      · cases hread
    · cases hread
  · rintro ⟨gap, closing, hgap, hquote, hclosing, hpath, rfl⟩
    have hpass : ∀ c ∈ origin.path, (!Prologue.isQuote c) = true := by
      intro c hc
      simp [hpath c hc]
    rw [quoted?, Text.trimStart_append hgap, Text.trimStart_cons (isBlank_of_isQuote hquote)]
    simp [hquote, hclosing, List.dropWhile_append_of_pos hpass, List.takeWhile_append_of_pos hpass]

theorem quoted?_append_return (t : Text) :
    quoted? (t ++ ['\r']) = (quoted? t).map fun (origin, rest) => (origin, rest ++ ['\r']) := by
  rw [quoted?, quoted?, Text.trimStart_append_return]
  cases hstart : t.trimStart with
  | nil => rfl
  | cons quote body =>
      simp only [reduceCtorEq, ↓reduceIte, List.cons_append]
      split
      · rw [Text.dropWhile_concat (c := '\r') (by decide)]
        cases hdrop : body.dropWhile (!Prologue.isQuote ·) with
        | nil => rfl
        | cons closing rest =>
            have hne : body.dropWhile (!Prologue.isQuote ·) ≠ [] := by simp [hdrop]
            rw [Text.takeWhile_append_of_dropWhile hne]
            rfl
      · rfl

theorem origin?_append_return (t : Text) :
    origin? (t ++ ['\r']) = (origin? t).map fun (origin, rest) => (origin, rest ++ ['\r']) := by
  rw [origin?, origin?, expect?_append_return (by decide) (by decide)]
  cases expect? "from" t with
  | none => rfl
  | some rest => exact quoted?_append_return rest

theorem origin?_eq_some_iff {t rest : Text} {origin : Origin} :
    origin? t = some (origin, rest) ↔
      ∃ gap quoted : Text, (∀ c ∈ gap, Text.isBlank c) ∧ t = gap ++ "from".toList ++ quoted ∧
        quoted? quoted = some (origin, rest) := by
  have hsolid : StartsSolid "from" := ⟨'f', "rom".toList, rfl, by decide⟩
  simp only [origin?, Option.bind_eq_bind, Option.bind_eq_some_iff, expect?_eq_some_iff hsolid]
  constructor
  · rintro ⟨quoted, ⟨gap, hgap, ht⟩, hread⟩
    exact ⟨gap, quoted, hgap, ht, hread⟩
  · rintro ⟨gap, quoted, hgap, ht, hread⟩
    exact ⟨quoted, ⟨gap, hgap, ht⟩, hread⟩

/-! ## Semicolons -/

theorem semicolon_append_return (t : Text) :
    semicolon (t ++ ['\r']) = ((semicolon t).1, (semicolon t).2 ++ ['\r']) := by
  rw [semicolon, semicolon, expect?_append_return (by decide) (by decide)]
  cases expect? ";" t with
  | none => rfl
  | some rest => rfl

/-- What follows a statement is a text whose front is no semicolon that was not read. -/
theorem semicolon_renderSemicolon {present : Bool} {trailing : Text}
    (htrailing : present = false → expect? ";" trailing = none) :
    semicolon (renderSemicolon present ++ trailing) = (present, trailing) := by
  cases present with
  | true =>
      have hsolid : StartsSolid ";" := ⟨';', [], rfl, by decide⟩
      have hread : expect? ";" (';' :: trailing) = some trailing :=
        (expect?_eq_some_iff hsolid).2 ⟨[], by simp, rfl⟩
      simp [semicolon, renderSemicolon, hread]
  | false => simp [semicolon, renderSemicolon, htrailing rfl]

theorem expect?_of_semicolon {t trailing : Text} (hread : semicolon t = (false, trailing)) :
    expect? ";" trailing = none := by
  unfold semicolon at hread
  split at hread
  · cases hread
  · rename_i hnone
    cases hread
    exact hnone

/-! ## What is read is part of the text -/

theorem suffix_of_expect? {phrase : String} {t rest : Text} (hread : expect? phrase t = some rest) :
    rest <:+ t := by
  have hstart : t.trimStart = phrase.toList ++ rest := Text.after?_eq_some_iff.1 hread
  have hsuffix : rest <:+ t.trimStart := by
    rw [hstart]
    exact List.suffix_append _ _
  exact hsuffix.trans (List.dropWhile_suffix _)

theorem suffix_of_braced? {t rest : Text} {entries : List Text}
    (hread : braced? t = some (entries, rest)) : rest <:+ t := by
  obtain ⟨gap, body, -, -, rfl, -⟩ := braced?_eq_some_iff.1 hread
  exact ⟨gap ++ '\x7b' :: (body ++ ['\x7d']), by simp⟩

theorem suffix_of_origin? {t rest : Text} {origin : Origin}
    (hread : origin? t = some (origin, rest)) : rest <:+ t := by
  obtain ⟨gap, quoted, -, rfl, hquoted⟩ := origin?_eq_some_iff.1 hread
  obtain ⟨gap', closing, -, -, -, -, rfl⟩ := quoted?_eq_some_iff.1 hquoted
  exact ⟨gap ++ "from".toList ++ gap' ++ origin.quote :: (origin.path ++ [closing]), by simp⟩

theorem suffix_of_semicolon {t trailing : Text} {present : Bool}
    (hread : semicolon t = (present, trailing)) : trailing <:+ t := by
  unfold semicolon at hread
  split at hread
  · rename_i rest hrest
    cases hread
    exact suffix_of_expect? hrest
  · cases hread
    exact List.suffix_refl t

theorem mem_of_braced? {t rest entry : Text} {entries : List Text}
    (hread : braced? t = some (entries, rest)) (hentry : entry ∈ entries) {c : Char}
    (hc : c ∈ entry) : c ∈ t := by
  obtain ⟨gap, body, -, -, rfl, rfl⟩ := braced?_eq_some_iff.1 hread
  simp [mem_of_mem_names hentry hc]

theorem mem_of_origin? {t rest : Text} {origin : Origin} (hread : origin? t = some (origin, rest))
    {c : Char} (hc : c ∈ origin.path) : c ∈ t := by
  obtain ⟨gap, quoted, -, rfl, hquoted⟩ := origin?_eq_some_iff.1 hread
  obtain ⟨gap', closing, -, -, -, -, rfl⟩ := quoted?_eq_some_iff.1 hquoted
  simp [hc]

end Clause

end Transplant
