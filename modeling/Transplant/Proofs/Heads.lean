import Transplant.Declaration.Marker
import Transplant.Proofs.Clauses

/-!
# Heads of declaration lines

How the reader of declaration lines takes to small changes of a line.  A carriage return at the end
is not seen.  The words of a head stand at the front of the line, so a line that starts with another
word (an import, an export list, a comment) has no head.  Taking the export marker off a line or
putting it on changes the marker of the head and nothing else.
-/

namespace Transplant

/-! ## Blanks -/

namespace Text

def blanks : List Char :=
  [' ', '\t', '\n', '\u000b', '\u000c', '\r', '\u0085', '\u00a0', '\u1680', '\u2000', '\u2001',
    '\u2002', '\u2003', '\u2004', '\u2005', '\u2006', '\u2007', '\u2008', '\u2009', '\u200a',
    '\u2028', '\u2029', '\u202f', '\u205f', '\u3000']

theorem mem_blanks {c : Char} (hc : isBlank c) : c ∈ blanks := by
  have hrange : ∀ first last : Char, first ≤ c → c ≤ last →
      (∀ code ∈ List.range' first.toNat (last.toNat + 1 - first.toNat),
        Char.ofNat code ∈ blanks) → c ∈ blanks := by
    intro first last hfirst hlast hall
    have hlower : first.toNat ≤ c.toNat := hfirst
    have hupper : c.toNat ≤ last.toNat := hlast
    have hmem := hall c.toNat (List.mem_range'_1.2 ⟨hlower, by omega⟩)
    rwa [Char.ofNat_toNat] at hmem
  simp only [isBlank, Bool.or_eq_true, Bool.and_eq_true, beq_iff_eq, decide_eq_true_eq] at hc
  obtain (((((((((rfl | h) | rfl) | rfl) | rfl) | h) | rfl) | rfl) | rfl) | rfl) | rfl := hc
  · decide
  · exact hrange _ _ h.1 h.2 (by decide)
  · decide
  · decide
  · decide
  · exact hrange _ _ h.1 h.2 (by decide)
  all_goals decide

end Text

theorem isBlank_of_isIdentStart {c : Char} (hc : isIdentStart c) : Text.isBlank c = false := by
  have hblanks : Text.blanks.all (isIdentStart · = false) := by decide
  by_contra hblank
  have hstart := List.all_eq_true.1 hblanks c (Text.mem_blanks (by simpa using hblank))
  rw [hc] at hstart
  cases hstart

namespace Head

/-! ## Keywords -/

/-- A text without blanks.  No keyword of a declaration stands in it, because a blank follows every
keyword. -/
def Solid (t : Text) : Prop :=
  ∀ c ∈ t, Text.isBlank c = false

instance (t : Text) : Decidable (Solid t) :=
  List.decidableBAll _ t

theorem keyword?_eq_some_iff {phrase : String} {t rest : Text} :
    keyword? phrase t = some rest ↔
      ∃ (c : Char) (tail : Text), Text.isBlank c ∧ t = phrase.toList ++ c :: tail ∧
        rest = tail.trimStart := by
  constructor
  · intro hread
    unfold keyword? at hread
    split at hread
    · rename_i c tail hafter
      split at hread
      · rename_i hblank
        cases hread
        exact ⟨c, tail, hblank, Text.after?_eq_some_iff.1 hafter, rfl⟩
      · cases hread
    · cases hread
  · rintro ⟨c, tail, hblank, rfl, rfl⟩
    simp [keyword?, hblank]

theorem keyword?_of_solid {t : Text} (hsolid : Solid t) (phrase : String) :
    keyword? phrase t = none := by
  rw [Option.eq_none_iff_forall_ne_some]
  intro rest hread
  obtain ⟨c, tail, hblank, rfl, -⟩ := keyword?_eq_some_iff.1 hread
  rw [hsolid c (by simp)] at hblank
  cases hblank

theorem skip_of_solid {t : Text} (hsolid : Solid t) (phrase : String) : skip phrase t = t := by
  rw [skip, keyword?_of_solid hsolid, Option.getD_none]

/-- Where a word is skipped, the text starts with it. -/
theorem skip_eq_or (phrase : String) (t : Text) :
    skip phrase t = t ∨ ∃ (c : Char) (tail : Text), Text.isBlank c ∧
      t = phrase.toList ++ c :: tail ∧ skip phrase t = tail.trimStart := by
  rw [skip]
  cases hread : keyword? phrase t with
  | none => exact .inl rfl
  | some rest =>
      obtain ⟨c, tail, hblank, ht, rfl⟩ := keyword?_eq_some_iff.1 hread
      exact .inr ⟨c, tail, hblank, ht, rfl⟩

theorem functionName?_of_solid {t : Text} (hsolid : Solid t) : functionName? t = none := by
  unfold functionName?
  split
  · rfl
  · rename_i rest hafter
    have ht : t = "function".toList ++ rest := Text.after?_eq_some_iff.1 hafter
    split
    · rename_i tail hstar
      have htail : Solid tail := by
        intro c hc
        apply hsolid
        have hrest : c ∈ rest := (List.dropWhile_suffix Text.isBlank).subset (by
          rw [← Text.trimStart, hstar]
          exact List.mem_cons_of_mem _ hc)
        simp [ht, hrest]
      have htrim : Text.trimStart tail = tail := by
        cases tail with
        | nil => rfl
        | cons c tail => exact Text.trimStart_cons (htail c (by simp)) tail
      simp [htrim]
    · rw [named?, keyword?_of_solid hsolid]
      rfl

/-- The forms of a declaration, in the order in which they are tried. -/
theorem declared?_eq (t : Text) : declared? t =
    ((named? "interface" t).map (Kind.interfaceDecl, ·)).or
    (((named? "type" t).map (Kind.typeDecl, ·)).or
    (((named? "class" t).map (Kind.classDecl, ·)).or
    (((functionName? t).map (Kind.functionDecl, ·)).or
    (((named? "enum" (skip "const" t)).map (Kind.enumDecl, ·)).or
    (((named? "const" t).map (Kind.variableDecl, ·)).or
    (((named? "let" t).map (Kind.variableDecl, ·)).or
    ((named? "var" t).map (Kind.variableDecl, ·)))))))) := rfl

theorem declared?_of_solid {t : Text} (hsolid : Solid t) : declared? t = none := by
  have hnamed : ∀ phrase, named? phrase t = none := by
    intro phrase
    rw [named?, keyword?_of_solid hsolid]
    rfl
  rw [declared?_eq, skip_of_solid hsolid]
  simp only [hnamed, functionName?_of_solid hsolid, Option.map_none, Option.or_none]

/-! ## Carriage returns -/

theorem name?_append_return (t : Text) : name? (t ++ ['\r']) = name? t := by
  cases t with
  | nil => rfl
  | cons c rest =>
      have hrest : (rest ++ ['\r']).takeWhile isIdentPart = rest.takeWhile isIdentPart := by
        have hreturn : isIdentPart '\r' = false := by decide
        rw [List.takeWhile_append]
        split
        · rename_i hall
          simp [hreturn, (List.takeWhile_prefix _).eq_of_length hall]
        · rfl
      simp only [name?, List.cons_append, hrest]

theorem named?_append_return {phrase : String} (hphrase : '\r' ∉ phrase.toList) (t : Text) :
    named? phrase (t ++ ['\r']) = named? phrase t := by
  rw [named?, named?, keyword?, keyword?, Text.after?_concat hphrase]
  cases Text.after? phrase.toList t with
  | none => rfl
  | some rest =>
      cases rest with
      | nil => rfl
      | cons c rest =>
          simp only [Option.map_some, List.cons_append]
          split
          · simp only [Option.bind_eq_bind, Option.bind_some]
            rw [Text.trimStart_append_return]
            split
            · rename_i hnil
              rw [hnil]
            · exact name?_append_return _
          · rfl

theorem functionName?_append_return (t : Text) :
    functionName? (t ++ ['\r']) = functionName? t := by
  have hword : '\r' ∉ "function".toList := by decide
  rw [functionName?, functionName?, Text.after?_concat hword, named?_append_return hword]
  cases Text.after? "function".toList t with
  | none => rfl
  | some rest =>
      simp only [Option.map_some]
      rw [Text.trimStart_append_return]
      cases hstart : rest.trimStart with
      | nil => rfl
      | cons c tail =>
          by_cases hstar : c = '*'
          · subst hstar
            simp only [reduceCtorEq, if_false, List.cons_append]
            rw [Text.trimStart_append_return]
            by_cases hnil : Text.trimStart tail = []
            · simp [hnil, name?]
            · simp [hnil, name?_append_return]
          · simp [hstar]

theorem solid_nil : Solid [] := by
  simp [Solid]

/-- Two texts of which the second is the first with a carriage return at the end, unless no word of
a head can follow in either. -/
def Twin (t u : Text) : Prop :=
  u = t ++ ['\r'] ∨ Solid t ∧ u = []

theorem Twin.skip {t u : Text} (htwin : Twin t u) {phrase : String}
    (hphrase : Solid phrase.toList) : Twin (skip phrase t) (skip phrase u) := by
  have hreturn : '\r' ∉ phrase.toList := fun hmem => absurd (hphrase _ hmem) (by decide)
  obtain rfl | ⟨hsolid, rfl⟩ := htwin
  · rw [Head.skip, Head.skip, keyword?, keyword?, Text.after?_concat hreturn]
    cases hafter : Text.after? phrase.toList t with
    | none => exact .inl rfl
    | some rest =>
        cases rest with
        | nil =>
            rw [Text.after?_eq_some_iff, List.append_nil] at hafter
            subst hafter
            exact .inr ⟨hphrase, rfl⟩
        | cons c rest =>
            simp only [Option.map_some, List.cons_append]
            split
            · simp only [Option.getD_some]
              rw [Text.trimStart_append_return]
              split
              · rename_i hnil
                rw [hnil]
                exact .inr ⟨solid_nil, rfl⟩
              · exact .inl rfl
            · exact .inl rfl
  · rw [skip_of_solid hsolid, skip_of_solid solid_nil]
    exact .inr ⟨hsolid, rfl⟩

theorem Twin.named? {t u : Text} (htwin : Twin t u) {phrase : String}
    (hphrase : '\r' ∉ phrase.toList) : named? phrase u = named? phrase t := by
  obtain rfl | ⟨hsolid, rfl⟩ := htwin
  · exact named?_append_return hphrase t
  · rw [Head.named?, Head.named?, keyword?_of_solid hsolid, keyword?_of_solid solid_nil]

theorem Twin.declared? {t u : Text} (htwin : Twin t u) : declared? u = declared? t := by
  have hconst : Twin (Head.skip "const" t) (Head.skip "const" u) := htwin.skip (by decide)
  have hfunction : functionName? u = functionName? t := by
    obtain rfl | ⟨hsolid, rfl⟩ := htwin
    · exact functionName?_append_return t
    · rw [functionName?_of_solid hsolid, functionName?_of_solid solid_nil]
  rw [declared?_eq, declared?_eq, htwin.named? (by decide), htwin.named? (by decide),
    htwin.named? (by decide), hfunction, hconst.named? (by decide), htwin.named? (by decide),
    htwin.named? (by decide), htwin.named? (by decide)]

/-! ## The parts of a line -/

def isIndent (c : Char) : Bool :=
  c == ' ' || c == '\t'

def unindented (line : Text) : Text :=
  line.dropWhile isIndent

def unmarked (line : Text) : Text :=
  skip "export" (unindented line)

/-- The export marker of a line, with the blanks after it. -/
def marker? (line : Text) : Option Text :=
  if (unmarked line).length < (unindented line).length then
    some ((unindented line).take ((unindented line).length - (unmarked line).length))
  else none

/-- The kind and the name after an optional `default`. -/
def body? (t : Text) : Option (Kind × Text) :=
  declared? (skip "async" (skip "abstract" (skip "declare" t)))

theorem parse?_eq (line : Text) :
    parse? line = (body? (skip "default" (unmarked line))).map fun declared =>
      { indent := line.takeWhile isIndent
        marker := marker? line
        isDefault := decide ((skip "default" (unmarked line)).length < (unmarked line).length)
        kind := declared.1
        name := declared.2 } := rfl

theorem body?_of_solid {t : Text} (hsolid : Solid t) : body? t = none := by
  rw [body?, skip_of_solid hsolid, skip_of_solid hsolid, skip_of_solid hsolid,
    declared?_of_solid hsolid]

theorem Twin.body? {t u : Text} (htwin : Twin t u) : body? u = body? t :=
  (((htwin.skip (by decide)).skip (by decide)).skip (by decide)).declared?

theorem Twin.eq_append {t u : Text} (htwin : Twin t u) (hsolid : ¬ Solid t) : u = t ++ ['\r'] :=
  htwin.resolve_right fun h => hsolid h.1

/-- A carriage return at the end of a line is not seen. -/
theorem parse?_append_return (line : Text) : parse? (line ++ ['\r']) = parse? line := by
  have hstart : unindented (line ++ ['\r']) = unindented line ++ ['\r'] := by
    rw [unindented, List.dropWhile_append]
    split
    · rename_i hnil
      rw [unindented, List.isEmpty_iff.1 hnil]
      rfl
    · rfl
  have hindent : (line ++ ['\r']).takeWhile isIndent = line.takeWhile isIndent := by
    rw [List.takeWhile_append]
    split
    · rename_i hall
      rw [(List.takeWhile_prefix _).eq_of_length hall]
      exact List.append_nil line
    · rfl
  have hexport : Twin (unmarked line) (unmarked (line ++ ['\r'])) := by
    rw [unmarked, unmarked, hstart]
    exact Twin.skip (.inl rfl) (by decide)
  have hdefault : Twin (skip "default" (unmarked line))
      (skip "default" (unmarked (line ++ ['\r']))) := hexport.skip (by decide)
  rw [parse?_eq, parse?_eq, hdefault.body?]
  by_cases hsolid : Solid (skip "default" (unmarked line))
  · rw [body?_of_solid hsolid]
    rfl
  · have hunsolid : ¬ Solid (unmarked line) := by
      intro h
      rw [skip_of_solid h] at hsolid
      exact hsolid h
    have hlonger := hexport.eq_append hunsolid
    have hshorter := hdefault.eq_append hsolid
    have hmarker : marker? (line ++ ['\r']) = marker? line := by
      rw [marker?, marker?, hlonger, hstart, List.length_append, List.length_append,
        Nat.add_sub_add_right, List.take_append_of_le_length (Nat.sub_le ..)]
      simp only [Nat.add_lt_add_iff_right]
    rw [hmarker, hindent, hshorter, hlonger, List.length_append, List.length_append]
    simp only [Nat.add_lt_add_iff_right]

/-! ## The words of a head -/

def declaringWords : List String :=
  ["interface", "type", "class", "function", "enum", "const", "let", "var"]

/-- The words that can follow an export marker. -/
def bodyWords : List String :=
  "default" :: "declare" :: "abstract" :: "async" :: declaringWords

/-- A text starts with one of the words. -/
def LedBy (words : List String) (t : Text) : Prop :=
  ∃ word ∈ words, word.toList <+: t

theorem prefix_of_named? {phrase : String} {t name : Text} (hread : named? phrase t = some name) :
    phrase.toList <+: t := by
  obtain ⟨rest, hrest, -⟩ := Option.bind_eq_some_iff.1 hread
  obtain ⟨c, tail, -, rfl, -⟩ := keyword?_eq_some_iff.1 hrest
  exact List.prefix_append _ _

theorem prefix_of_functionName? {t name : Text} (hread : functionName? t = some name) :
    "function".toList <+: t := by
  unfold functionName? at hread
  split at hread
  · cases hread
  · rename_i rest hafter
    rw [Text.after?_eq_some_iff.1 hafter]
    exact List.prefix_append _ _

/-- A text that starts with a word after another word was skipped starts with one of the two. -/
theorem LedBy.of_skip {words : List String} {phrase : String} {t : Text}
    (hled : LedBy words (skip phrase t)) : LedBy (phrase :: words) t := by
  obtain ⟨word, hword, hfront⟩ := hled
  obtain hskip | ⟨c, tail, -, ht, -⟩ := skip_eq_or phrase t
  · exact ⟨word, List.mem_cons_of_mem _ hword, by rwa [← hskip]⟩
  · exact ⟨phrase, List.mem_cons_self .., by rw [ht]; exact List.prefix_append _ _⟩

theorem LedBy.mono {words more : List String} {t : Text} (hled : LedBy words t)
    (hsub : ∀ word ∈ words, word ∈ more) : LedBy more t := by
  obtain ⟨word, hword, hfront⟩ := hled
  exact ⟨word, hsub word hword, hfront⟩

theorem ledBy_of_declared? {t : Text} {declared : Kind × Text}
    (hread : declared? t = some declared) : LedBy declaringWords t := by
  have hnamed : ∀ {phrase : String} {kind : Kind} {u : Text},
      (Head.named? phrase u).map (kind, ·) = some declared → phrase.toList <+: u := by
    intro phrase kind u hsome
    obtain ⟨name, hname, -⟩ := Option.map_eq_some_iff.1 hsome
    exact prefix_of_named? hname
  simp only [declared?_eq, Option.or_eq_some_iff] at hread
  obtain h | ⟨-, h | ⟨-, h | ⟨-, h | ⟨-, h | ⟨-, h | ⟨-, h | ⟨-, h⟩⟩⟩⟩⟩⟩⟩ := hread
  · exact ⟨"interface", by decide, hnamed h⟩
  · exact ⟨"type", by decide, hnamed h⟩
  · exact ⟨"class", by decide, hnamed h⟩
  · obtain ⟨name, hname, -⟩ := Option.map_eq_some_iff.1 h
    exact ⟨"function", by decide, prefix_of_functionName? hname⟩
  · have hled : LedBy ["enum"] (skip "const" t) := ⟨"enum", by decide, hnamed h⟩
    exact hled.of_skip.mono (by decide)
  · exact ⟨"const", by decide, hnamed h⟩
  · exact ⟨"let", by decide, hnamed h⟩
  · exact ⟨"var", by decide, hnamed h⟩

/-- What follows the export marker of a declaration line starts with a word of a head. -/
theorem ledBy_of_body? {t : Text} {declared : Kind × Text}
    (hread : body? (skip "default" t) = some declared) : LedBy bodyWords t :=
  (ledBy_of_declared? hread).of_skip.of_skip.of_skip.of_skip.mono (by decide)

/-- A text that starts with a word of a head does not start with a phrase of another sort. -/
theorem LedBy.not_lead {words : List String} {t phrase : Text} (hled : LedBy words t)
    (hphrase : ∀ word ∈ words, ¬ word.toList <+: phrase ∧ ¬ phrase <+: word.toList) :
    ¬ phrase <+: t := by
  intro hfront
  obtain ⟨word, hword, hlead⟩ := hled
  obtain h | h := List.prefix_or_prefix_of_prefix hlead hfront
  · exact (hphrase word hword).1 h
  · exact (hphrase word hword).2 h

theorem LedBy.exists_cons {words : List String} {t : Text} (hled : LedBy words t)
    (hwords : ∀ word ∈ words, word.toList.head?.any isIdentStart) :
    ∃ c rest, t = c :: rest ∧ isIdentStart c := by
  obtain ⟨word, hword, tail, rfl⟩ := hled
  have hhead := hwords word hword
  cases hlist : word.toList with
  | nil => simp [hlist] at hhead
  | cons c rest =>
      rw [hlist] at hhead
      exact ⟨c, rest ++ tail, rfl, by simpa using hhead⟩

/-- Declaration lines start with one of the words of a head. -/
theorem ledBy_of_parse? {line : Text} {h : Head} (hread : parse? line = some h) :
    LedBy bodyWords (unmarked line) ∧ LedBy ("export" :: bodyWords) (unindented line) := by
  rw [parse?_eq] at hread
  obtain ⟨declared, hbody, -⟩ := Option.map_eq_some_iff.1 hread
  have hled := ledBy_of_body? hbody
  exact ⟨hled, hled.of_skip⟩

theorem trimStart_of_parse? {line : Text} {h : Head} (hread : parse? line = some h) :
    line.trimStart = unindented line := by
  obtain ⟨c, rest, hstart, hc⟩ := (ledBy_of_parse? hread).2.exists_cons (by decide)
  have hindent : ∀ d ∈ line.takeWhile isIndent, Text.isBlank d := by
    intro d hd
    have hspace : isIndent d := List.mem_takeWhile_imp hd
    simp only [isIndent, Bool.or_eq_true, beq_iff_eq] at hspace
    obtain rfl | rfl := hspace <;> decide
  have hline : line = line.takeWhile isIndent ++ unindented line :=
    List.takeWhile_append_dropWhile.symm
  conv_lhs => rw [hline, Text.trimStart_append hindent, hstart]
  rw [Text.trimStart_cons (isBlank_of_isIdentStart hc), hstart]

theorem parse?_of_blank {line : Text} (hblank : line.trim = []) : parse? line = none := by
  rw [Option.eq_none_iff_forall_ne_some]
  intro h hread
  obtain ⟨c, rest, hstart, -⟩ := (ledBy_of_parse? hread).2.exists_cons (by decide)
  have hnil := Text.trimStart_eq_nil_iff.2 (Text.trim_eq_nil_iff.1 hblank)
  rw [trimStart_of_parse? hread, hstart] at hnil
  cases hnil

/-- A line that starts with another word than a head does is no declaration line. -/
theorem parse?_of_lead {phrase line : Text}
    (hphrase : ∀ word ∈ "export" :: bodyWords,
      ¬ word.toList <+: phrase ∧ ¬ phrase <+: word.toList)
    (hfront : phrase <+: line.trimStart) : parse? line = none := by
  rw [Option.eq_none_iff_forall_ne_some]
  intro h hread
  rw [trimStart_of_parse? hread] at hfront
  exact (ledBy_of_parse? hread).2.not_lead hphrase hfront

/-- After `export` a declaration goes on with a word. -/
theorem parse?_of_expect? {line rest : Text} {c : Char} {tail : Text}
    (hexport : Clause.expect? "export" line = some rest) (hrest : rest.trimStart = c :: tail)
    (hc : isIdentStart c = false) : parse? line = none := by
  rw [Option.eq_none_iff_forall_ne_some]
  intro h hread
  have hled := (ledBy_of_parse? hread).1
  have hstart : unindented line = "export".toList ++ rest := by
    rw [← trimStart_of_parse? hread]
    exact Text.after?_eq_some_iff.1 hexport
  rw [unmarked] at hled
  obtain hskip | ⟨d, other, hd, hother, hskip⟩ := skip_eq_or "export" (unindented line)
  · rw [hskip, hstart] at hled
    exact hled.not_lead (by decide) (List.prefix_append _ _)
  · rw [hstart] at hother
    have hcons : rest = d :: other := List.append_cancel_left hother
    obtain ⟨first, more, hfirst, hident⟩ := hled.exists_cons (by decide)
    have htrim : rest.trimStart = Text.trimStart other := by
      rw [hcons, Text.trimStart, List.dropWhile_cons_of_pos hd]
      rfl
    rw [hskip, ← htrim, hrest] at hfirst
    cases hfirst
    rw [hc] at hident
    cases hident

/-! ## Export markers -/

theorem takeWhile_isIndent_of_cons {c : Char} (hc : isIdentStart c) (rest : Text) :
    (c :: rest).takeWhile isIndent = [] := by
  have hindent : isIndent c = false := by
    by_contra hindent
    simp only [isIndent, Bool.not_eq_false, Bool.or_eq_true, beq_iff_eq] at hindent
    obtain rfl | rfl := hindent <;> exact absurd hc (by decide)
  exact List.takeWhile_cons_of_neg (by simp [hindent])

theorem unindented_of_takeWhile {line : Text} (hindent : line.takeWhile isIndent = []) :
    unindented line = line := by
  have hsplit := List.takeWhile_append_dropWhile (p := isIndent) (l := line)
  rwa [hindent, List.nil_append] at hsplit

theorem unmarked_suffix (line : Text) : unmarked line <:+ unindented line := by
  rw [unmarked]
  obtain hskip | ⟨c, tail, -, hline, hskip⟩ := skip_eq_or "export" (unindented line)
  · exact ⟨[], hskip⟩
  · have htail : tail <:+ unindented line := by
      rw [hline]
      exact (List.suffix_cons c tail).trans (List.suffix_append _ _)
    rw [hskip]
    exact (List.dropWhile_suffix _).trans htail

/-- The marker is what stands in front of the rest. -/
theorem drop_marker {line marker : Text} (hmarker : marker? line = some marker) :
    (unindented line).drop marker.length = unmarked line := by
  obtain ⟨front, hfront⟩ := unmarked_suffix line
  have hlength := congrArg List.length hfront
  rw [List.length_append] at hlength
  rw [marker?] at hmarker
  split at hmarker
  · cases hmarker
    have hdiff : (unindented line).length - (unmarked line).length = front.length := by omega
    rw [hdiff, List.length_take, Nat.min_eq_left (by omega)]
    conv_lhs => rw [← hfront]
    rw [List.drop_left]
  · cases hmarker

theorem unmarked_of_marker? {line : Text} (hmarker : marker? line = none) :
    unmarked line = unindented line := by
  rw [marker?] at hmarker
  split at hmarker
  · cases hmarker
  · rename_i hlength
    have hle := (unmarked_suffix line).length_le
    exact (unmarked_suffix line).eq_of_length (by omega)

/-- Nothing stands in front of a text that starts with a word of a head other than `export`. -/
theorem LedBy.unmarked_eq {t : Text} (hled : LedBy bodyWords t) :
    t.takeWhile isIndent = [] ∧ unindented t = t ∧ unmarked t = t := by
  obtain ⟨c, rest, rfl, hc⟩ := hled.exists_cons (by decide)
  have hindent := takeWhile_isIndent_of_cons hc rest
  have hstart := unindented_of_takeWhile hindent
  refine ⟨hindent, hstart, ?_⟩
  rw [unmarked, hstart]
  obtain hskip | ⟨d, tail, -, hline, -⟩ := skip_eq_or "export" (c :: rest)
  · exact hskip
  · rw [hline] at hled
    exact absurd (List.prefix_append _ _) (hled.not_lead (by decide))

/-- Without its marker a line has the same head but for the marker. -/
theorem parse?_unmarked {line : Text} {h : Head} (hread : parse? line = some h) :
    parse? (unmarked line) = some { h with indent := [], marker := none } := by
  obtain ⟨hindent, hstart, hrest⟩ := (ledBy_of_parse? hread).1.unmarked_eq
  have hmarker : marker? (unmarked line) = none := by
    rw [marker?, hstart, hrest, if_neg (Nat.lt_irrefl _)]
  rw [parse?_eq] at hread ⊢
  obtain ⟨declared, hbody, rfl⟩ := Option.map_eq_some_iff.1 hread
  rw [hrest, hbody, hmarker, hindent]
  rfl

/-- With a marker in front, the rest of a line has the same head but for the marker. -/
theorem parse?_marked {line : Text} {h : Head} (hread : parse? line = some h) :
    parse? (exportMarker ++ unmarked line) =
      some { h with indent := [], marker := some exportMarker } := by
  obtain ⟨c, rest, hcons, hc⟩ := (ledBy_of_parse? hread).1.exists_cons (by decide)
  have hindent : (exportMarker ++ unmarked line).takeWhile isIndent = [] := rfl
  have hstart : unindented (exportMarker ++ unmarked line) = exportMarker ++ unmarked line := rfl
  have hrest : unmarked (exportMarker ++ unmarked line) = unmarked line := by
    have hkeyword : keyword? "export" (exportMarker ++ unmarked line) = some (unmarked line) := by
      apply keyword?_eq_some_iff.2
      refine ⟨' ', unmarked line, by decide, rfl, ?_⟩
      rw [hcons, Text.trimStart_cons (isBlank_of_isIdentStart hc)]
    rw [unmarked, hstart, skip, hkeyword, Option.getD_some]
  have hmarker : marker? (exportMarker ++ unmarked line) = some exportMarker := by
    rw [marker?, hstart, hrest, List.length_append, if_pos (Nat.lt_add_of_pos_left (by decide)),
      Nat.add_sub_cancel, List.take_left]
  rw [parse?_eq] at hread ⊢
  obtain ⟨declared, hbody, rfl⟩ := Option.map_eq_some_iff.1 hread
  rw [hrest, hbody, hmarker, hindent]
  rfl

/-- A declaration line in the first column is its marker and the rest. -/
theorem unmarked_eq_drop {line : Text} {h : Head} (hread : parse? line = some h)
    (htop : h.isTopLevel) : unmarked line = line.drop (h.marker.getD []).length := by
  rw [parse?_eq] at hread
  obtain ⟨declared, -, rfl⟩ := Option.map_eq_some_iff.1 hread
  have hstart : unindented line = line :=
    unindented_of_takeWhile (by simpa [isTopLevel] using htop)
  cases hmarker : marker? line with
  | none => simpa [hstart] using unmarked_of_marker? hmarker
  | some marker => simpa [hstart] using (drop_marker hmarker).symm

end Head

/-! ## Declarations as views -/

def headView : LineView Head where
  read := Head.parse?
  read_blank _ hblank := Head.parse?_of_blank hblank
  read_return := Head.parse?_append_return

/-- The heads that count as declarations: in the first column, and no default export. -/
def Head.isListed (h : Head) : Bool :=
  h.isTopLevel && !h.isDefault

def listedView : LineView Head :=
  headView.bind fun h => if h.isListed then some h else none

theorem listedView_read (line : Text) :
    listedView.read line =
      (headView.read line).bind fun h => if h.isListed then some h else none := by
  rfl

theorem listedView_of_head {line : Text} {h : Head} (hread : Head.parse? line = some h)
    (hlisted : h.isListed) : listedView.read line = some h := by
  have hhead : headView.read line = some h := hread
  rw [listedView_read, hhead, Option.bind_some, if_pos hlisted]

theorem headsFrom_cons (index : Nat) (line : Text) (rest : List Text) :
    headsFrom index (line :: rest) =
      match headView.read line with
      | some h =>
        if h.isDefault then headsFrom (index + 1) rest
        else (h, h.toDeclaration index) :: headsFrom (index + 1) rest
      | none => headsFrom (index + 1) rest := by
  rfl

/-- The declarations of a text are its listed heads. -/
theorem declarations_map {β : Type*} (f : Kind → Text → Bool → β) (t : Text) :
    (declarations t).map (fun d => f d.kind d.name d.exported) =
      (listedView.of t.lines).map fun h => f h.kind h.name h.isExported := by
  suffices hlines : ∀ (index : Nat) (lines : List Text),
      ((headsFrom index lines).filter (·.1.isTopLevel)).map
          (fun entry => f entry.2.kind entry.2.name entry.2.exported) =
        (listedView.of lines).map fun h => f h.kind h.name h.isExported by
    rw [declarations, List.map_map]
    exact hlines 0 t.lines
  intro index lines
  induction lines generalizing index with
  | nil => rfl
  | cons line rest ih =>
      rw [headsFrom_cons, listedView.of_cons, listedView_read, List.map_append, ← ih (index + 1)]
      cases headView.read line with
      | none => rfl
      | some h =>
          cases hdefault : h.isDefault <;> cases htop : h.isTopLevel <;>
            simp [hdefault, htop, Head.isListed, Head.toDeclaration]

theorem mem_headsFrom {index : Nat} {lines : List Text} {h : Head} {d : Declaration}
    (hmem : (h, d) ∈ headsFrom index lines) :
    ∃ (offset : Nat) (line : Text), lines[offset]? = some line ∧ headView.read line = some h ∧
      h.isDefault = false ∧ d = h.toDeclaration (index + offset) := by
  induction lines generalizing index with
  | nil => cases hmem
  | cons line rest ih =>
      have hlater : (h, d) ∈ headsFrom (index + 1) rest →
          ∃ (offset : Nat) (other : Text), (line :: rest)[offset]? = some other ∧
            headView.read other = some h ∧ h.isDefault = false ∧
            d = h.toDeclaration (index + offset) := by
        intro hmem
        obtain ⟨offset, other, hother, hread, hdefault, rfl⟩ := ih hmem
        exact ⟨offset + 1, other, hother, hread, hdefault, by rw [Nat.add_assoc, Nat.add_comm 1]⟩
      rw [headsFrom_cons] at hmem
      cases hread : headView.read line with
      | none =>
          rw [hread] at hmem
          exact hlater hmem
      | some first =>
          rw [hread] at hmem
          cases hdefault : first.isDefault with
          | true => exact hlater (by simpa [hdefault] using hmem)
          | false =>
              simp only [hdefault, Bool.false_eq_true, if_false, List.mem_cons,
                Prod.mk.injEq] at hmem
              obtain ⟨rfl, rfl⟩ | hmem := hmem
              · exact ⟨0, line, rfl, hread, hdefault, rfl⟩
              · exact hlater hmem

/-- A declaration stands on the line that it names. -/
theorem exists_line_of_declaration {t : Text} {d : Declaration} (hd : d ∈ declarations t) :
    ∃ (line : Text) (h : Head), t.lines[d.line]? = some line ∧ Head.parse? line = some h ∧
      h.isListed ∧ d = h.toDeclaration d.line := by
  obtain ⟨⟨h, other⟩, hmem, rfl⟩ := List.mem_map.1 hd
  obtain ⟨hmem, htop⟩ := List.mem_filter.1 hmem
  obtain ⟨offset, line, hline, hread, hdefault, rfl⟩ := mem_headsFrom hmem
  refine ⟨line, h, ?_, hread, by simp [Head.isListed, htop, hdefault], ?_⟩
  · simpa [Head.toDeclaration] using hline
  · simp [Head.toDeclaration]

theorem declaresTop_iff {t name : Text} :
    declaresTop t name ↔ ∃ h ∈ listedView.of t.lines, h.name = name := by
  have hnames := declarations_map (fun _ name _ => name) t
  have hmem : ∀ other, other ∈ (declarations t).map (·.name) ↔
      other ∈ (listedView.of t.lines).map (·.name) := by
    intro other
    rw [hnames]
  rw [declaresTop, declarationOf?, List.find?_isSome]
  simpa using hmem name

end Transplant
