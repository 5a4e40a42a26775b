import Transplant.Proofs.Steps

/-!
# Uses of a name

The search for a name goes through a line once and skips the characters of an occurrence that it has
rejected.  For an identifier nothing is missed: inside of such an occurrence no other can start.  So
a line mentions a name exactly if the name stands in it as a word of its own, and the search sees
neither a carriage return at the end of the line nor an export marker in front of it.
-/

namespace Transplant

/-! ## Characters of names -/

theorem isNameChar_of_isIdentStart {c : Char} (hc : isIdentStart c) : isNameChar c := by
  simp only [isIdentStart, Bool.or_eq_true, beq_iff_eq] at hc
  obtain (halpha | rfl) | rfl := hc
  · rw [isNameChar, Text.isAlphanumeric, if_pos (toNat_lt_of_alphanumeric (.inl halpha)),
      Text.isAsciiAlphanumeric, halpha]
    rfl
  · decide
  · decide

theorem isNameChar_of_isDigit {c : Char} (hc : c.isDigit) : isNameChar c := by
  rw [isNameChar, Text.isAlphanumeric, if_pos (toNat_lt_of_alphanumeric (.inr hc)),
    Text.isAsciiAlphanumeric, hc, Bool.or_true]
  rfl

theorem Identifier.isNameChar (name : Identifier) : ∀ c ∈ name.text, isNameChar c := by
  obtain ⟨t, hvalid⟩ := name
  cases t with
  | nil => simp
  | cons c rest =>
      simp only [isIdentifier, Bool.and_eq_true, List.all_eq_true, Bool.or_eq_true] at hvalid
      intro d hd
      obtain rfl | hrest := List.mem_cons.1 hd
      · exact isNameChar_of_isIdentStart hvalid.1
      · obtain hstart | hdigit := hvalid.2 d hrest
        · exact isNameChar_of_isIdentStart hstart
        · exact isNameChar_of_isDigit hdigit

theorem mayStart_of_isNameChar {c : Char} (hc : isNameChar c) (before : Text) :
    mayStart (c :: before) = false := by
  have hdot : c ≠ '.' := by
    rintro rfl
    exact absurd hc (by decide)
  unfold mayStart
  split <;> simp_all

theorem mayEnd_of_isNameChar {c : Char} (hc : isNameChar c) (after : Text) :
    mayEnd (c :: after) = false := by
  simp [mayEnd, hc]

/-! ## Occurrences -/

/-- The name stands in the text as a word of its own, not before a given position. -/
def StandsIn (name before : Text) (pending : Nat) (t : Text) : Prop :=
  ∃ front after, t = front ++ (name ++ after) ∧ pending ≤ front.length ∧
    mayStart (front.reverse ++ before) ∧ mayEnd after

theorem standsIn_cons_succ {name before rest : Text} {c : Char} {pending : Nat} :
    StandsIn name before (pending + 1) (c :: rest) ↔ StandsIn name (c :: before) pending rest := by
  constructor
  · rintro ⟨front, after, ht, hlength, hstart, hend⟩
    cases front with
    | nil => simp at hlength
    | cons d front =>
        cases ht
        exact ⟨front, after, rfl, by simpa using hlength, by simpa using hstart, hend⟩
  · rintro ⟨front, after, rfl, hlength, hstart, hend⟩
    exact ⟨c :: front, after, rfl, by simpa using hlength, by simpa using hstart, hend⟩

/-- A name stands at the front of a text or behind its first character. -/
theorem standsIn_zero_iff {name before t : Text} :
    StandsIn name before 0 t ↔
      (∃ after, t = name ++ after ∧ mayStart before ∧ mayEnd after) ∨
        StandsIn name before 1 t := by
  constructor
  · rintro ⟨front, after, ht, -, hstart, hend⟩
    cases front with
    | nil => exact .inl ⟨after, ht, hstart, hend⟩
    | cons d front => exact .inr ⟨d :: front, after, ht, by simp, hstart, hend⟩
  · rintro (⟨after, ht, hstart, hend⟩ | ⟨front, after, ht, -, hstart, hend⟩)
    · exact ⟨[], after, ht, Nat.zero_le _, hstart, hend⟩
    · exact ⟨front, after, ht, Nat.zero_le _, hstart, hend⟩

/-- Inside of an occurrence of a name no other occurrence starts. -/
theorem standsIn_append {name before tail : Text} (hne : name ≠ [])
    (hname : ∀ c ∈ name, isNameChar c) :
    StandsIn name before 1 (name ++ tail) ↔ StandsIn name before name.length (name ++ tail) := by
  constructor
  · rintro ⟨front, after, ht, hlength, hstart, hend⟩
    refine ⟨front, after, ht, ?_, hstart, hend⟩
    by_contra hshort
    have hnonempty : front ≠ [] := by
      rintro rfl
      simp at hlength
    obtain ⟨init, c, rfl⟩ := (List.eq_nil_or_concat front).resolve_left hnonempty
    have hfront : init.concat c <+: name :=
      List.prefix_of_prefix_length_le ⟨name ++ after, ht.symm⟩ (List.prefix_append name tail)
        (by omega)
    have hc : isNameChar c := hname c (hfront.subset (by simp))
    rw [List.concat_eq_append, List.reverse_append, List.reverse_singleton,
      List.singleton_append, List.cons_append, mayStart_of_isNameChar hc] at hstart
    cases hstart
  · rintro ⟨front, after, ht, hlength, hstart, hend⟩
    have hpos := List.length_pos_iff.2 hne
    exact ⟨front, after, ht, by omega, hstart, hend⟩

/-- The search finds a name where it stands. -/
theorem mentionsFrom_iff {name before t : Text} {pending : Nat} (hne : name ≠ [])
    (hname : ∀ c ∈ name, isNameChar c) :
    mentionsFrom name before pending t ↔ StandsIn name before pending t := by
  induction t generalizing before pending with
  | nil =>
      have hnot : ¬ StandsIn name before pending [] := by
        rintro ⟨front, after, ht, -⟩
        obtain ⟨-, hrest⟩ := List.append_eq_nil_iff.1 ht.symm
        exact hne (List.append_eq_nil_iff.1 hrest).1
      simp [mentionsFrom, hnot]
  | cons c rest ih =>
      cases pending with
      | succ pending => rw [mentionsFrom, ih, standsIn_cons_succ]
      | zero =>
          rw [mentionsFrom, standsIn_zero_iff]
          cases hafter : Text.after? name (c :: rest) with
          | none =>
              have hnone : ∀ after, c :: rest ≠ name ++ after := by
                intro after ht
                rw [Text.after?_eq_some_iff.2 ht] at hafter
                cases hafter
              simp only [ih, standsIn_cons_succ]
              constructor
              · exact .inr
              · rintro (⟨after, ht, -⟩ | hlater)
                · exact absurd ht (hnone after)
                · exact hlater
          | some tail =>
              have ht := Text.after?_eq_some_iff.1 hafter
              have hlength : name.length = name.length - 1 + 1 :=
                (Nat.succ_pred_eq_of_pos (List.length_pos_iff.2 hne)).symm
              have hlater : StandsIn name before 1 (c :: rest) ↔
                  StandsIn name (c :: before) (name.length - 1) rest := by
                rw [← standsIn_cons_succ, ← hlength, ht]
                exact standsIn_append hne hname
              rw [hlater, Bool.or_eq_true, Bool.and_eq_true, ih]
              constructor
              · rintro (⟨hstart, hend⟩ | hlater)
                · exact .inl ⟨tail, ht, hstart, hend⟩
                · exact .inr hlater
              · rintro (⟨after, ht', hstart, hend⟩ | hlater)
                · rw [ht] at ht'
                  cases List.append_cancel_left ht'
                  exact .inl ⟨hstart, hend⟩
                · exact .inr hlater

/-- A line mentions an identifier exactly if the identifier stands in it as a word of its own. -/
theorem mentions_iff (line : Text) (name : Identifier) :
    mentions line name.text ↔ ∃ front after, line = front ++ (name.text ++ after) ∧
      mayStart front.reverse ∧ mayEnd after := by
  have hne := name.isWord.ne_nil
  have hnonempty : name.text.isEmpty = false := by simpa using hne
  rw [mentions, hnonempty, Bool.not_false, Bool.true_and,
    mentionsFrom_iff hne name.isNameChar, StandsIn]
  simp

/-! ## Lines around a name -/

theorem mayEnd_append_return (after : Text) : mayEnd (after ++ ['\r']) = mayEnd after := by
  cases after with
  | nil => decide
  | cons c after => rfl

theorem mentions_append_return (line : Text) (name : Identifier) :
    mentions (line ++ ['\r']) name.text = mentions line name.text := by
  rw [Bool.eq_iff_iff, mentions_iff, mentions_iff]
  constructor
  · rintro ⟨front, after, hline, hstart, hend⟩
    have hreturn : '\r' ∉ name.text := name.isWord.not_mem (by decide)
    obtain rfl | ⟨init, c, rfl⟩ := List.eq_nil_or_concat after
    · have hlast := congrArg List.getLast? hline
      rw [List.append_nil, List.getLast?_concat] at hlast
      have hmem : '\r' ∈ name.text := by
        obtain ⟨start, c, hconcat⟩ := (List.eq_nil_or_concat name.text).resolve_left
          name.isWord.ne_nil
        rw [hconcat, List.concat_eq_append, ← List.append_assoc, List.getLast?_concat] at hlast
        cases hlast
        simp [hconcat]
      exact absurd hmem hreturn
    · rw [List.concat_eq_append, ← List.append_assoc, ← List.append_assoc] at hline
      obtain ⟨rfl, hc⟩ := List.append_inj' hline rfl
      cases hc
      rw [List.concat_eq_append, mayEnd_append_return] at hend
      exact ⟨front, init, by rw [List.append_assoc], hstart, hend⟩
  · rintro ⟨front, after, rfl, hstart, hend⟩
    refine ⟨front, after ++ ['\r'], by simp, hstart, ?_⟩
    rwa [mayEnd_append_return]

theorem mayStart_cons_of_ne {c : Char} (hc : c ≠ '.') (before : Text) :
    mayStart (c :: before) = !isNameChar c := by
  unfold mayStart
  split <;> simp_all

theorem mayStart_dot (before : Text) :
    mayStart ('.' :: before) = ['.', '.'].isPrefixOf before := by
  cases before with
  | nil => rfl
  | cons c before =>
      by_cases hc : c = '.'
      · subst hc
        cases before with
        | nil => rfl
        | cons d before =>
            by_cases hd : d = '.'
            · subst hd
              rfl
            · simp [mayStart, List.isPrefixOf, hd, Ne.symm hd]
      · simp [mayStart, List.isPrefixOf, hc, Ne.symm hc]

/-- A blank in front of a line is as good as its start. -/
theorem mayStart_append_blank (before more : Text) :
    mayStart (before ++ ' ' :: more) = mayStart before := by
  cases before with
  | nil => exact mayStart_cons_of_ne (by decide) more
  | cons c before =>
      by_cases hc : c = '.'
      · subst hc
        rw [List.cons_append, mayStart_dot, mayStart_dot]
        match before with
        | [] => rfl
        | [d] => simp [List.isPrefixOf]
        | d :: e :: rest => rfl
      · rw [List.cons_append, mayStart_cons_of_ne hc, mayStart_cons_of_ne hc]

/-! ## The marker in front of a line -/

/-- The word in front of a line is the only one that is mentioned in addition. -/
theorem mentions_append_word {word : Text} (hword : ∀ c ∈ word, isNameChar c) (line : Text)
    {name : Identifier} (hname : name.text ≠ word) :
    mentions (word ++ ' ' :: line) name.text = mentions line name.text := by
  rw [Bool.eq_iff_iff, mentions_iff, mentions_iff]
  constructor
  · rintro ⟨front, after, hline, hstart, hend⟩
    have hblank : ' ' ∉ name.text := name.isWord.not_mem (by decide)
    obtain ⟨rest, rfl, hrest⟩ | ⟨rest, hfront, hrest⟩ := List.append_eq_append_iff.1 hline
    · -- The name starts behind the word, so it starts behind the blank.
      cases rest with
      | nil =>
          obtain ⟨c, tail, htext⟩ := List.exists_cons_of_ne_nil name.isWord.ne_nil
          rw [List.nil_append, htext] at hrest
          cases hrest
          exact absurd (by simp [htext]) hblank
      | cons c rest =>
          cases hrest
          rw [List.reverse_append, List.reverse_cons, List.append_assoc, List.singleton_append,
            mayStart_append_blank] at hstart
          exact ⟨rest, after, rfl, hstart, hend⟩
    · -- The name starts in the word: at its front, or it is not a word of its own.
      obtain rfl | ⟨init, c, rfl⟩ := List.eq_nil_or_concat front
      · rw [List.nil_append] at hfront
        subst hfront
        obtain ⟨more, hmore, hafter⟩ | ⟨more, hmore, hafter⟩ := List.append_eq_append_iff.1 hrest
        · cases more with
          | nil => exact absurd (by rw [hmore, List.append_nil]) hname
          | cons c more =>
              have hc : isNameChar c := hword c (by simp [hmore])
              rw [hafter, List.cons_append, mayEnd_of_isNameChar hc] at hend
              cases hend
        · cases more with
          | nil => exact absurd (by rw [hmore, List.append_nil]) hname
          | cons c more =>
              cases hafter
              exact absurd (by simp [hmore]) hblank
      · have hc : isNameChar c := hword c (by simp [hfront])
        rw [List.concat_eq_append, List.reverse_append, List.reverse_singleton,
          List.singleton_append, mayStart_of_isNameChar hc] at hstart
        cases hstart
  · rintro ⟨front, after, rfl, hstart, hend⟩
    refine ⟨word ++ ' ' :: front, after, by simp, ?_, hend⟩
    rw [List.reverse_append, List.reverse_cons, List.append_assoc, List.singleton_append,
      mayStart_append_blank]
    exact hstart

theorem mentions_exportMarker (line : Text) {name : Identifier}
    (hname : name.text ≠ "export".toList) :
    mentions (exportMarker ++ line) name.text = mentions line name.text := by
  have hmarker : exportMarker ++ line = "export".toList ++ ' ' :: line := rfl
  rw [hmarker]
  exact mentions_append_word (List.all_eq_true.1 (by decide)) line hname

/-! ## The code of a line -/

theorem cut?_concat {phrase : Text} {c : Char} (hne : phrase ≠ []) (hphrase : c ∉ phrase)
    (t : Text) : Text.cut? phrase (t ++ [c]) =
      (Text.cut? phrase t).map fun cut => (cut.1, cut.2 ++ [c]) := by
  have hnil : Text.after? phrase [] = none := by
    cases phrase with
    | nil => exact absurd rfl hne
    | cons p phrase => rfl
  induction t with
  | nil =>
      have hafter := Text.after?_concat hphrase []
      rw [hnil, Option.map_none, List.nil_append] at hafter
      simp [Text.cut?, hnil, hafter]
  | cons d t ih =>
      have hafter := Text.after?_concat hphrase (d :: t)
      rw [List.cons_append] at hafter ⊢
      rw [Text.cut?, Text.cut?, hafter, ih]
      cases Text.after? phrase (d :: t) with
      | none => cases Text.cut? phrase t <;> rfl
      | some rest => rfl

theorem cut?_append_of_not_mem {c : Char} {phrase s : Text} (hs : c ∉ s) (t : Text) :
    Text.cut? (c :: phrase) (s ++ t) =
      (Text.cut? (c :: phrase) t).map fun cut => (s ++ cut.1, cut.2) := by
  induction s with
  | nil => simp
  | cons d s ih =>
      obtain ⟨hd, hs⟩ := not_or.1 (mt List.mem_cons.2 hs)
      rw [List.cons_append, Text.cut?, ih hs]
      simp only [Text.after?, if_neg hd]
      cases Text.cut? (c :: phrase) t <;> rfl

theorem codePart_append_of_not_mem {front : Text} (hslash : '/' ∉ front) (t : Text) :
    codePart (front ++ t) = front ++ codePart t := by
  rw [codePart, codePart, Text.before, Text.before, cut?_append_of_not_mem hslash]
  cases Text.cut? ['/', '/'] t <;> rfl

theorem mentions_codePart_append_return (line : Text) (name : Identifier) :
    mentions (codePart (line ++ ['\r'])) name.text = mentions (codePart line) name.text := by
  rw [codePart, codePart, Text.before, Text.before, cut?_concat (c := '\r') (by simp) (by decide)]
  cases Text.cut? ['/', '/'] line with
  | none => exact mentions_append_return line name
  | some cut => rfl

theorem codePart_exportMarker (line : Text) :
    codePart (exportMarker ++ line) = exportMarker ++ codePart line :=
  codePart_append_of_not_mem (by decide) line

/-! ## Lines that link modules -/

def reexportTail? (line : Text) : Option Text :=
  (Clause.expect? "export" line).bind fun rest =>
    ((Clause.expect? "*" rest).or ((Clause.braced? rest).map (·.2))).bind (Clause.expect? "from")

theorem startsReexport_eq (line : Text) : startsReexport line =
    (reexportTail? line).any fun rest => rest.trimStart.head?.any Prologue.isQuote := by
  rw [reexportTail?, startsReexport]
  cases Clause.expect? "export" line with
  | none => rfl
  | some rest =>
      simp only [Option.bind_some]
      cases Clause.expect? "*" rest with
      | some names =>
          rw [Option.some_or, Option.bind_some]
          cases htail : Clause.expect? "from" names with
          | none => simp [htail]
          | some tail => cases hstart : tail.trimStart <;> simp [htail, hstart]
      | none =>
          cases Clause.braced? rest with
          | none => rfl
          | some names =>
              rw [Option.none_or, Option.map_some, Option.bind_some]
              cases htail : Clause.expect? "from" names.2 with
              | none => simp [htail]
              | some tail => cases hstart : tail.trimStart <;> simp [htail, hstart]

theorem reexportTail?_append_return (line : Text) :
    reexportTail? (line ++ ['\r']) = (reexportTail? line).map (· ++ ['\r']) := by
  rw [reexportTail?, reexportTail?, Clause.expect?_append_return (by decide) (by decide)]
  cases Clause.expect? "export" line with
  | none => rfl
  | some rest =>
      rw [Option.map_some, Option.bind_some, Option.bind_some,
        Clause.expect?_append_return (by decide) (by decide), Clause.braced?_append_return]
      cases Clause.expect? "*" rest with
      | some rest => exact Clause.expect?_append_return (by decide) (by decide) rest
      | none =>
          cases Clause.braced? rest with
          | none => rfl
          | some names => exact Clause.expect?_append_return (by decide) (by decide) names.2

theorem startsReexport_append_return (line : Text) :
    startsReexport (line ++ ['\r']) = startsReexport line := by
  have hhead : ∀ t : Text, (t ++ ['\r']).trimStart.head?.any Prologue.isQuote =
      t.trimStart.head?.any Prologue.isQuote := by
    intro t
    rw [Text.trimStart_append_return]
    cases t.trimStart <;> rfl
  rw [startsReexport_eq, startsReexport_eq, reexportTail?_append_return, Option.any_map]
  congr 1
  funext t
  exact hhead t

theorem linksModules_append_return (line : Text) :
    linksModules (line ++ ['\r']) = linksModules line := by
  rw [linksModules, linksModules, NamedImport.parse?_append_return, Option.isSome_map,
    startsReexport_append_return, Text.startsWith_trimStart_append_return (by decide)]

theorem looksLikeComment_append_return (line : Text) :
    looksLikeComment (line ++ ['\r']) = looksLikeComment line := by
  simp only [looksLikeComment]
  rw [Text.startsWith_trimStart_append_return (by decide),
    Text.startsWith_trimStart_append_return (by decide),
    Text.startsWith_trimStart_append_return (by decide)]

theorem reexportTail?_of_head {line : Text} {h : Head} (hread : Head.parse? line = some h) :
    reexportTail? line = none := by
  rw [Option.eq_none_iff_forall_ne_some]
  intro tail htail
  obtain ⟨rest, hexport, htail⟩ := Option.bind_eq_some_iff.1 htail
  obtain ⟨names, hnames, -⟩ := Option.bind_eq_some_iff.1 htail
  obtain hstar | ⟨-, hbraces⟩ := Option.or_eq_some_iff.1 hnames
  · have hstart : rest.trimStart = '*' :: names := Text.after?_eq_some_iff.1 hstar
    rw [Head.parse?_of_expect? hexport hstart (by decide)] at hread
    cases hread
  · obtain ⟨⟨entries, clause⟩, hbraces, -⟩ := Option.map_eq_some_iff.1 hbraces
    rw [Head.parse?_of_braces hexport hbraces] at hread
    cases hread

theorem startsWith_of_head {line phrase : Text} {h : Head} (hread : Head.parse? line = some h)
    (hphrase : ∀ word ∈ "export" :: Head.bodyWords,
      ¬ word.toList <+: phrase ∧ ¬ phrase <+: word.toList) :
    line.trimStart.startsWith phrase = false := by
  by_contra hstarts
  obtain ⟨rest, hrest⟩ := Text.startsWith_iff.1 (Bool.not_eq_false _ ▸ hstarts)
  have hfront : phrase <+: line.trimStart := ⟨rest, hrest.symm⟩
  rw [Head.parse?_of_lead hphrase hfront] at hread
  cases hread

/-- Declaration lines are code. -/
theorem linksModules_of_head {line : Text} {h : Head} (hread : Head.parse? line = some h) :
    linksModules line = false := by
  rw [linksModules, Head.import_of_parse? hread, startsReexport_eq, reexportTail?_of_head hread,
    startsWith_of_head hread (by decide)]
  rfl

theorem looksLikeComment_of_head {line : Text} {h : Head} (hread : Head.parse? line = some h) :
    looksLikeComment line = false := by
  simp only [looksLikeComment]
  rw [startsWith_of_head hread (by decide), startsWith_of_head hread (by decide),
    startsWith_of_head hread (by decide)]
  rfl

/-! ## Uses as a view -/

theorem mem_of_mem_codePart {line : Text} {c : Char} (hc : c ∈ codePart line) : c ∈ line := by
  rw [codePart, Text.before] at hc
  split at hc
  · rename_i head rest hcut
    rw [Text.eq_of_cut? hcut]
    simp [hc]
  · exact hc

theorem mentions_of_blank {line : Text} (hblank : ∀ c ∈ line, Text.isBlank c) (name : Identifier) :
    mentions line name.text = false := by
  by_contra hmentions
  obtain ⟨front, after, rfl, -⟩ := (mentions_iff line name).1 (Bool.not_eq_false _ ▸ hmentions)
  obtain ⟨c, rest, htext⟩ := List.exists_cons_of_ne_nil name.isWord.ne_nil
  have hc : c ∈ name.text := by simp [htext]
  have hclash := hblank c (by simp [hc])
  rw [isBlank_of_isIdentPart (name.isWord.parts c hc)] at hclash
  cases hclash

def usesView (name : Identifier) : LineView Unit where
  read line :=
    if !linksModules line && !looksLikeComment line && mentions (codePart line) name.text then
      some ()
    else none
  read_blank line hblank := by
    have hcode : ∀ c ∈ codePart line, Text.isBlank c :=
      fun c hc => Text.trim_eq_nil_iff.1 hblank c (mem_of_mem_codePart hc)
    rw [mentions_of_blank hcode, Bool.and_false, if_neg Bool.false_ne_true]
  read_return line := by
    rw [linksModules_append_return, looksLikeComment_append_return,
      mentions_codePart_append_return]

theorem uses_iff {t : Text} {name : Identifier} :
    uses t name.text ↔ (usesView name).of t.lines ≠ [] := by
  have hview : (usesView name).of t.lines = [] ↔ ∀ line ∈ t.lines,
      ¬ (!linksModules line && !looksLikeComment line && mentions (codePart line) name.text) := by
    rw [LineView.of, List.filterMap_eq_nil_iff]
    apply forall₂_congr
    intro line _
    simp only [usesView]
    split <;> simp_all
  rw [Ne, hview, uses, codeLines, List.any_filter, List.any_eq_true]
  simp [and_assoc]

/-- Marking a declaration does not make a text use another name. -/
theorem Exported.read_uses {names : List Text} {old new : Text} {name : Identifier}
    (hchange : Exported names old new) (hname : name.text ≠ "export".toList) :
    (usesView name).read new = (usesView name).read old := by
  cases hchange with
  | same => rfl
  | marked h hread hlisted _ hmarker =>
      have hnew := Exported.parse?_marked hread hlisted hmarker
      simp only [usesView]
      rw [linksModules_of_head hread, linksModules_of_head hnew, looksLikeComment_of_head hread,
        looksLikeComment_of_head hnew, codePart_exportMarker, mentions_exportMarker _ hname]

end Transplant
