import Transplant.Proofs.Mentions

/-!
# The names that a text uses

A line is searched for identifiers after its string literals have been blanked out and its comment
has been cut off.  Whether an identifier counts depends on what stands around it: a name in front of
a colon is the key of a property, but not behind an arbitrary word.  So an export marker in front of
a line could change what the line uses.  It does not, because the first word of a declaration is
followed by another word and never by a colon: the marker adds the word `export` and nothing else.
A carriage return at the end of a line changes nothing either, so the identifiers of the lines are a
view.
-/

namespace Transplant

/-! ## The first words of a declaration -/

namespace Head

/-- A text that starts with a word of a declaration and goes on with another word, or with the star
of a generator. -/
def Opens (t : Text) : Prop :=
  ∃ word ∈ bodyWords, ∃ gap c rest, t = word.toList ++ (gap ++ c :: rest) ∧
    (∀ d ∈ gap, Text.isBlank d) ∧ (gap ≠ [] ∧ isIdentStart c ∨ c = '*')

variable {t : Text} {phrase : String}

theorem opens_of_keyword? {c : Char} {rest : Text} (hphrase : phrase ∈ bodyWords)
    (hread : keyword? phrase t = some (c :: rest)) (hc : isIdentStart c) : Opens t := by
  obtain ⟨d, tail, hd, rfl, hrest⟩ := keyword?_eq_some_iff.1 hread
  refine ⟨phrase, hphrase, d :: tail.takeWhile Text.isBlank, c, rest, ?_, ?_, .inl ⟨by simp, hc⟩⟩
  · rw [hrest, List.cons_append, Text.trimStart, List.takeWhile_append_dropWhile]
  · rw [List.forall_mem_cons]
    exact ⟨hd, fun _ hmem => List.mem_takeWhile_imp hmem⟩

theorem exists_of_name? {name : Text} (hread : name? t = some name) :
    ∃ c rest, t = c :: rest ∧ isIdentStart c := by
  cases t with
  | nil => cases hread
  | cons c rest =>
      rw [name?] at hread
      split at hread
      · rename_i hc
        exact ⟨c, rest, rfl, hc⟩
      · cases hread

theorem opens_of_named? {name : Text} (hphrase : phrase ∈ bodyWords)
    (hread : named? phrase t = some name) : Opens t := by
  obtain ⟨rest, hrest, hname⟩ := Option.bind_eq_some_iff.1 hread
  obtain ⟨c, tail, rfl, hc⟩ := exists_of_name? hname
  exact opens_of_keyword? hphrase hrest hc

theorem opens_of_functionName? {name : Text} (hread : functionName? t = some name) : Opens t := by
  unfold functionName? at hread
  split at hread
  · cases hread
  · rename_i rest hafter
    split at hread
    · rename_i tail hstar
      refine ⟨"function", by decide, rest.takeWhile Text.isBlank, '*', tail, ?_, ?_, .inr rfl⟩
      · rw [Text.after?_eq_some_iff.1 hafter, ← hstar, Text.trimStart,
          List.takeWhile_append_dropWhile]
      · exact fun _ hmem => List.mem_takeWhile_imp hmem
    · exact opens_of_named? (by decide) hread

theorem Opens.exists_cons (hopens : Opens t) : ∃ c rest, t = c :: rest ∧ isIdentStart c := by
  obtain ⟨word, hword, gap, c, rest, rfl, -⟩ := hopens
  have hled : LedBy bodyWords (word.toList ++ (gap ++ c :: rest)) :=
    ⟨word, hword, List.prefix_append _ _⟩
  exact hled.exists_cons (by decide)

theorem Opens.of_skip (hphrase : phrase ∈ bodyWords) (hopens : Opens (skip phrase t)) :
    Opens t := by
  rw [skip] at hopens
  cases hread : keyword? phrase t with
  | none => rwa [hread] at hopens
  | some rest =>
      rw [hread, Option.getD_some] at hopens
      obtain ⟨c, tail, rfl, hc⟩ := hopens.exists_cons
      exact opens_of_keyword? hphrase hread hc

theorem opens_of_declared? {declared : Kind × Text} (hread : declared? t = some declared) :
    Opens t := by
  have hnamed : ∀ {phrase : String} {kind : Kind} {u : Text}, phrase ∈ bodyWords →
      (named? phrase u).map (kind, ·) = some declared → Opens u := by
    intro phrase kind u hphrase hsome
    obtain ⟨name, hname, -⟩ := Option.map_eq_some_iff.1 hsome
    exact opens_of_named? hphrase hname
  simp only [declared?_eq, Option.or_eq_some_iff] at hread
  obtain h | ⟨-, h | ⟨-, h | ⟨-, h | ⟨-, h | ⟨-, h | ⟨-, h | ⟨-, h⟩⟩⟩⟩⟩⟩⟩ := hread
  · exact hnamed (by decide) h
  · exact hnamed (by decide) h
  · exact hnamed (by decide) h
  · obtain ⟨name, hname, -⟩ := Option.map_eq_some_iff.1 h
    exact opens_of_functionName? hname
  · exact (hnamed (by decide) h).of_skip (by decide)
  · exact hnamed (by decide) h
  · exact hnamed (by decide) h
  · exact hnamed (by decide) h

/-- What follows the export marker of a declaration line. -/
theorem opens_of_parse? {line : Text} {h : Head} (hread : parse? line = some h) :
    Opens (unmarked line) := by
  rw [parse?_eq] at hread
  obtain ⟨declared, hbody, -⟩ := Option.map_eq_some_iff.1 hread
  have hdeclare := ((opens_of_declared? hbody).of_skip (by decide)).of_skip (by decide)
  exact (hdeclare.of_skip (by decide)).of_skip (by decide)

/-- The marker of a declaration line in the first column. -/
theorem exists_gap_of_marker {line marker : Text} {h : Head} (hread : parse? line = some h)
    (htop : h.isTopLevel) (hmarker : h.marker = some marker) :
    ∃ gap, gap ≠ [] ∧ (∀ c ∈ gap, Text.isBlank c) ∧
      line = "export".toList ++ (gap ++ unmarked line) := by
  rw [parse?_eq] at hread
  obtain ⟨declared, -, rfl⟩ := Option.map_eq_some_iff.1 hread
  have hstart : unindented line = line :=
    unindented_of_takeWhile (by simpa [isTopLevel] using htop)
  obtain hskip | ⟨c, tail, hc, hline, hskip⟩ := skip_eq_or "export" (unindented line)
  · simp [marker?, unmarked, hskip] at hmarker
  · refine ⟨c :: tail.takeWhile Text.isBlank, by simp, ?_, ?_⟩
    · rw [List.forall_mem_cons]
      exact ⟨hc, fun _ hmem => List.mem_takeWhile_imp hmem⟩
    · rw [unmarked, hskip, List.cons_append, Text.trimStart, List.takeWhile_append_dropWhile,
        ← hline, hstart]

end Head

/-! ## The code of a line -/

/-- What a line is searched for identifiers in. -/
def codeOf (line : Text) : Text :=
  codePart (blankStrings line)

/-- Characters that open no string literal and no comment. -/
def isPlain (c : Char) : Bool :=
  c != '\x27' && c != '"' && c != '\x60' && c != '/'

theorem isPlain_of_isBlank {c : Char} (hc : Text.isBlank c) : isPlain c := by
  have hblanks : Text.blanks.all isPlain := by decide
  exact List.all_eq_true.1 hblanks c (Text.mem_blanks hc)

theorem isPlain_of_isIdentStart {c : Char} (hc : isIdentStart c) : isPlain c := by
  by_contra hplain
  simp only [isPlain, Bool.and_eq_true, bne_iff_ne, ne_eq, not_and_or, not_not] at hplain
  obtain ((rfl | rfl) | rfl) | rfl := hplain <;> exact absurd hc (by decide)

/-- Plain characters in front of a line are code. -/
theorem codeOf_append {front : Text} (hfront : ∀ c ∈ front, isPlain c) (t : Text) :
    codeOf (front ++ t) = front ++ codeOf t := by
  have hblank : blankStrings (front ++ t) = front ++ blankStrings t := by
    rw [blankStrings, blankStrings]
    induction front with
    | nil => rfl
    | cons c front ih =>
        rw [List.forall_mem_cons] at hfront
        have hquote : ¬ (c = '\x27' ∨ c = '"' ∨ c = '\x60') := by
          rintro (rfl | rfl | rfl) <;> exact absurd hfront.1 (by decide)
        simp only [List.cons_append, blankFrom, if_neg hquote, ih hfront.2]
  have hslash : '/' ∉ front := fun hmem => absurd (hfront '/' hmem) (by decide)
  rw [codeOf, codeOf, hblank, codePart_append_of_not_mem hslash]

/-! ## Identifiers behind a marker -/

/-- An occurrence with more text in front of what stands in front of it. -/
def Occurrence.behind (o : Occurrence) (more : Text) : Occurrence :=
  { o with before := o.before ++ more }

theorem identifiersFrom_append (inside : Bool) (before more t : Text) :
    identifiersFrom inside (before ++ more) t =
      (identifiersFrom inside before t).map (·.behind more) := by
  induction t generalizing inside before with
  | nil => rfl
  | cons c t ih =>
      rw [identifiersFrom, identifiersFrom, ← List.cons_append, ih, ih]
      split
      · rfl
      · split
        · rfl
        · rfl

/-- The rest of an identifier is passed over. -/
theorem identifiersFrom_parts {word : Text} (hword : ∀ c ∈ word, isIdentPart c) (before t : Text) :
    identifiersFrom true before (word ++ t) = identifiersFrom true (word.reverse ++ before) t := by
  induction word generalizing before with
  | nil => rfl
  | cons c word ih =>
      rw [List.forall_mem_cons] at hword
      rw [List.cons_append, identifiersFrom, hword.1, Bool.and_self, if_pos rfl, ih hword.2]
      simp

/-- Blanks end an identifier. -/
theorem identifiersFrom_blanks {gap : Text} (hne : gap ≠ []) (hgap : ∀ c ∈ gap, Text.isBlank c)
    (inside : Bool) (before t : Text) :
    identifiersFrom inside before (gap ++ t) =
      identifiersFrom false (gap.reverse ++ before) t := by
  have hstep : ∀ (c : Char) (inside : Bool) (before t : Text), Text.isBlank c →
      identifiersFrom inside before (c :: t) = identifiersFrom false (c :: before) t := by
    intro c inside before t hc
    have hpart : isIdentPart c = false := by
      by_contra hpart
      rw [isBlank_of_isIdentPart (by simpa using hpart)] at hc
      cases hc
    have hstart : isIdentStart c = false := by
      by_contra hstart
      rw [isBlank_of_isIdentStart (by simpa using hstart)] at hc
      cases hc
    simp [identifiersFrom, hpart, hstart]
  induction gap generalizing inside before with
  | nil => exact absurd rfl hne
  | cons c gap ih =>
      rw [List.forall_mem_cons] at hgap
      rw [List.cons_append, hstep c inside before _ hgap.1]
      by_cases hnil : gap = []
      · simp [hnil]
      · rw [ih hnil hgap.2]
        simp

/-- A word of letters is an identifier up to the first character that cannot continue it. -/
theorem identifiersFrom_word {word t : Text} (hne : word ≠ []) (hword : ∀ c ∈ word, isIdentStart c)
    (hend : ∀ c ∈ t.head?, isIdentPart c = false) (before : Text) :
    identifiersFrom false before (word ++ t) =
      { before, name := word, after := t } :: identifiersFrom true (word.reverse ++ before) t := by
  obtain ⟨c, word, rfl⟩ := List.exists_cons_of_ne_nil hne
  rw [List.forall_mem_cons] at hword
  have hparts : ∀ d ∈ word, isIdentPart d := fun d hd => isIdentPart_of_isIdentStart (hword.2 d hd)
  have htake : t.takeWhile isIdentPart = [] := by
    cases t with
    | nil => rfl
    | cons d t => exact List.takeWhile_cons_of_neg (by simp [hend d rfl])
  have hdrop : t.dropWhile isIdentPart = t := by
    cases t with
    | nil => rfl
    | cons d t => exact List.dropWhile_cons_of_neg (by simp [hend d rfl])
  rw [List.cons_append, identifiersFrom, Bool.false_and, if_neg Bool.false_ne_true,
    if_pos hword.1, List.takeWhile_append_of_pos hparts, List.dropWhile_append_of_pos hparts, htake,
    hdrop, List.append_nil, identifiersFrom_parts hparts]
  simp

namespace Occurrence

variable {o : Occurrence}

/-- A word in front of another word is no key. -/
theorem hasColon_of_after {gap rest : Text} {c : Char} (hafter : o.after = gap ++ c :: rest)
    (hgap : ∀ d ∈ gap, Text.isBlank d) (hc : isIdentStart c ∨ c = '*') : o.hasColon = false := by
  have hblank : Text.isBlank c = false := by
    obtain hc | rfl := hc
    · exact isBlank_of_isIdentStart hc
    · decide
  have hmark : c ≠ '?' ∧ c ≠ '!' ∧ c ≠ ':' := by
    refine ⟨?_, ?_, ?_⟩ <;> rintro rfl <;> exact absurd hc (by decide)
  have htrim : o.after.trimStart = c :: rest := by
    rw [hafter, Text.trimStart_append hgap, Text.trimStart_cons hblank]
  simp [hasColon, htrim, hmark, Text.startsWith, Text.after?, hmark.2.2.symm]

/-- A word behind a blank, or at the start, counts unless it is a key. -/
theorem isUse_of_hasColon (hcolon : o.hasColon = false)
    (hbefore : ∀ c ∈ o.before.head?, Text.isBlank c) : o.isUse := by
  have hkey : o.isKey = false := by rw [isKey, hcolon, Bool.false_and]
  cases hcons : o.before with
  | nil => simp [isUse, isMember, isInsideNumber, hkey, hcons]
  | cons c rest =>
      have hc : Text.isBlank c := hbefore c (by simp [hcons])
      have hdot : c ≠ '.' := by
        rintro rfl
        exact absurd hc (by decide)
      have hdigit : c.isDigit = false := by
        have hblanks : Text.blanks.all (·.isDigit = false) := by decide
        simpa using List.all_eq_true.1 hblanks c (Text.mem_blanks hc)
      simp [isUse, isMember, isInsideNumber, hkey, hcons, hdot, hdigit]

/-- What stands in front of the first word of a line does not matter to the later ones, if a blank
parts it from the line. -/
theorem isUse_behind {blank : Char} (more : Text) (hblank : Text.isBlank blank)
    (hword : ∃ c ∈ o.before, Text.isBlank c = false) :
    (o.behind (blank :: more)).isUse = o.isUse := by
  obtain ⟨c, hc, hsolid⟩ := hword
  have hnameChar : isNameChar blank = false := by
    have hblanks : Text.blanks.all (isNameChar · = false) := by decide +kernel
    simpa using List.all_eq_true.1 hblanks blank (Text.mem_blanks hblank)
  have hdot : blank ≠ '.' := by
    rintro rfl
    exact absurd hblank (by decide)
  have hmember : (o.behind (blank :: more)).isMember = o.isMember := by
    simp only [isMember, behind]
    match o.before with
    | [] => simp [hdot]
    | [d] => by_cases hd : d = '.' <;> simp [hd, hdot]
    | [d, e] => by_cases hd : d = '.' <;> by_cases he : e = '.' <;> simp [hd, he, hdot]
    | d :: e :: f :: rest =>
        by_cases hd : d = '.' <;> by_cases he : e = '.' <;> by_cases hf : f = '.' <;>
          simp [hd, he, hf]
  have hnumber : (o.behind (blank :: more)).isInsideNumber = o.isInsideNumber := by
    obtain ⟨d, rest, hcons⟩ := List.exists_cons_of_ne_nil (List.ne_nil_of_mem hc)
    simp [isInsideNumber, behind, hcons]
  have hkey : (o.behind (blank :: more)).isKey = o.isKey := by
    have hrest : o.before.dropWhile Text.isBlank ≠ [] := by
      intro hnil
      rw [List.dropWhile_eq_nil_iff] at hnil
      rw [hnil c hc] at hsolid
      cases hsolid
    obtain ⟨d, rest, hcons⟩ := List.exists_cons_of_ne_nil hrest
    have hdrop : (o.before ++ blank :: more).dropWhile Text.isBlank =
        d :: (rest ++ blank :: more) := by
      rw [List.dropWhile_append, hcons]
      rfl
    have hend : (blank :: more).takeWhile isNameChar = [] :=
      List.takeWhile_cons_of_neg (by simp [hnameChar])
    have htake : (d :: (rest ++ blank :: more)).takeWhile isNameChar =
        (d :: rest).takeWhile isNameChar := by
      rw [← List.cons_append, List.takeWhile_append, hend]
      split
      · rename_i hall
        rw [(List.takeWhile_prefix _).eq_of_length hall, List.append_nil]
      · rfl
    simp only [isKey, behind, hdrop, hcons, htake]
    rfl
  rw [isUse, isUse, hmember, hnumber, hkey]

end Occurrence

/-- The names that are used from a position on. -/
def usesFrom (inside : Bool) (before t : Text) : List Text :=
  ((identifiersFrom inside before t).filter (·.isUse)).map (·.name)

theorem lineIdentifiers_eq (line : Text) :
    lineIdentifiers line = usesFrom false [] (codeOf line) := rfl

/-- A word in front of another word is used. -/
theorem usesFrom_word {word gap rest before : Text} {c : Char} (hne : word ≠ [])
    (hword : ∀ d ∈ word, isIdentStart d) (hgap : ∀ d ∈ gap, Text.isBlank d)
    (hc : gap ≠ [] ∧ isIdentStart c ∨ c = '*') (hbefore : ∀ d ∈ before.head?, Text.isBlank d) :
    usesFrom false before (word ++ (gap ++ c :: rest)) =
      word :: usesFrom true (word.reverse ++ before) (gap ++ c :: rest) := by
  have hend : ∀ d ∈ (gap ++ c :: rest).head?, isIdentPart d = false := by
    intro d hd
    by_contra hpart
    have hsolid := isBlank_of_isIdentPart (by simpa using hpart)
    cases gap with
    | nil =>
        obtain rfl : c = '*' := hc.resolve_left fun h => h.1 rfl
        cases hd
        exact hpart (by decide)
    | cons e gap =>
        obtain rfl : e = d := Option.some.inj hd
        rw [hgap e (by simp)] at hsolid
        cases hsolid
  have hcolon : (Occurrence.mk before word (gap ++ c :: rest)).hasColon = false :=
    Occurrence.hasColon_of_after rfl hgap (hc.imp_left And.right)
  rw [usesFrom, identifiersFrom_word hne hword hend,
    List.filter_cons_of_pos (Occurrence.isUse_of_hasColon hcolon hbefore)]
  rfl

/-- Behind a word, the text in front of a blank does not matter. -/
theorem usesFrom_behind {word t : Text} {blank : Char} (hne : word ≠ [])
    (hword : ∀ d ∈ word, isIdentStart d) (hblank : Text.isBlank blank) (more : Text) :
    usesFrom true (word.reverse ++ blank :: more) t = usesFrom true word.reverse t := by
  have hsolid : ∀ o ∈ identifiersFrom true word.reverse t,
      (o.behind (blank :: more)).isUse = o.isUse := by
    intro o ho
    apply Occurrence.isUse_behind more hblank
    obtain ⟨c, hc⟩ := List.exists_mem_of_ne_nil word hne
    rw [← List.nil_append word.reverse, identifiersFrom_append, List.mem_map] at ho
    obtain ⟨first, -, rfl⟩ := ho
    exact ⟨c, by simp [Occurrence.behind, hc], isBlank_of_isIdentStart (hword c hc)⟩
  rw [usesFrom, usesFrom, identifiersFrom_append, List.filter_map, List.map_map]
  exact congrArg (List.map Occurrence.name) (List.filter_congr hsolid)

theorem usesFrom_blanks {gap : Text} (hne : gap ≠ []) (hgap : ∀ c ∈ gap, Text.isBlank c)
    (inside : Bool) (before t : Text) :
    usesFrom inside before (gap ++ t) = usesFrom false (gap.reverse ++ before) t := by
  rw [usesFrom, identifiersFrom_blanks hne hgap, ← usesFrom]

/-- A marker in front of a declaration adds the word `export` to what its line uses. -/
theorem lineIdentifiers_marker {gap body : Text} (hne : gap ≠ [])
    (hgap : ∀ c ∈ gap, Text.isBlank c) (hopens : Head.Opens body) :
    lineIdentifiers ("export".toList ++ (gap ++ body)) =
      "export".toList :: lineIdentifiers body := by
  obtain ⟨first, hfirst, inner, c, rest, rfl, hinner, hc⟩ := hopens
  have hletters : ∀ word ∈ "export" :: Head.bodyWords, word.toList ≠ [] ∧
      word.toList.all isIdentStart := by decide
  simp only [List.all_eq_true] at hletters
  obtain ⟨hword, hparts⟩ := hletters first (List.mem_cons_of_mem _ hfirst)
  obtain ⟨hmarker, hmarkerParts⟩ := hletters "export" (List.mem_cons_self ..)
  generalize first.toList = word at hword hparts
  generalize "export".toList = marker at hmarker hmarkerParts
  have hcode : codeOf (inner ++ c :: rest) = inner ++ c :: codeOf rest := by
    have hcplain : isPlain c := by
      obtain ⟨-, hc⟩ | rfl := hc
      · exact isPlain_of_isIdentStart hc
      · decide
    have hcons : codeOf ([c] ++ rest) = [c] ++ codeOf rest :=
      codeOf_append (by simpa using hcplain) rest
    rw [codeOf_append fun d hd => isPlain_of_isBlank (hinner d hd)]
    exact congrArg (inner ++ ·) hcons
  rw [lineIdentifiers_eq, lineIdentifiers_eq,
    codeOf_append fun d hd => isPlain_of_isIdentStart (hmarkerParts d hd),
    codeOf_append fun d hd => isPlain_of_isBlank (hgap d hd),
    codeOf_append fun d hd => isPlain_of_isIdentStart (hparts d hd), hcode]
  obtain ⟨a, tail, rfl⟩ := List.exists_cons_of_ne_nil hword
  obtain ⟨last, init, hreverse⟩ := List.exists_cons_of_ne_nil (List.reverse_ne_nil_iff.2 hne)
  have hlast : Text.isBlank last := hgap last (by rw [← List.mem_reverse, hreverse]; simp)
  -- The marker stands in front of the first word, and the first word in front of the second.
  rw [List.cons_append, usesFrom_word hmarker hmarkerParts hgap (.inl ⟨hne, hparts a (by simp)⟩)
      (by simp), usesFrom_blanks hne hgap, ← List.cons_append, List.append_nil, hreverse,
    List.cons_append, usesFrom_word hword hparts hinner hc (by simpa using hlast),
    usesFrom_behind hword hparts hlast, usesFrom_word hword hparts hinner hc (by simp),
    List.append_nil]

/-! ## Changes of export markers -/

theorem Head.bodyOf_eq {line : Text} {h : Head} (hread : parse? line = some h)
    (hlisted : h.isListed) : h.bodyOf line = unmarked line :=
  (unmarked_eq_drop hread (isTopLevel_of_isListed hlisted)).symm

theorem mem_lineIdentifiers_bodyOf {line name : Text} {h : Head}
    (hread : Head.parse? line = some h) (hlisted : h.isListed) (hname : name ≠ "export".toList) :
    name ∈ lineIdentifiers line ↔ name ∈ lineIdentifiers (h.bodyOf line) := by
  cases hmarker : h.marker with
  | none => rw [Head.bodyOf_of_marker hmarker]
  | some marker =>
      obtain ⟨gap, hne, hgap, hline⟩ :=
        Head.exists_gap_of_marker hread (Head.isTopLevel_of_isListed hlisted) hmarker
      rw [Head.bodyOf_eq hread hlisted]
      conv_lhs => rw [hline, lineIdentifiers_marker hne hgap (Head.opens_of_parse? hread)]
      rw [List.mem_cons, or_iff_right hname]

theorem mem_lineIdentifiers_marked {line name : Text} {h : Head}
    (hread : Head.parse? line = some h) (hlisted : h.isListed) (hname : name ≠ "export".toList) :
    name ∈ lineIdentifiers (exportMarker ++ h.bodyOf line) ↔ name ∈ lineIdentifiers line := by
  have hmarked : exportMarker ++ h.bodyOf line = "export".toList ++ ([' '] ++ h.bodyOf line) := rfl
  have hblank : ∀ c ∈ [' '], Text.isBlank c := List.forall_mem_singleton.2 (by decide)
  rw [mem_lineIdentifiers_bodyOf hread hlisted hname, hmarked, Head.bodyOf_eq hread hlisted,
    lineIdentifiers_marker (by simp) hblank (Head.opens_of_parse? hread), List.mem_cons,
    or_iff_right hname]

def LineUses (name line : Text) : Prop :=
  linksModules line = false ∧ looksLikeComment line = false ∧ name ∈ lineIdentifiers line

theorem mem_usedNames_iff {t name : Text} :
    name ∈ usedNames t ↔ ∃ line ∈ t.lines, LineUses name line := by
  simp [usedNames, Text.mem_sortedSet, codeLines, LineUses, and_assoc]

namespace Remarked

variable {old new : Text}

/-- A change of a marker does not change what a line uses, but for the word `export`. -/
theorem lineUses_iff {name : Text} (hchange : Remarked old new) (hname : name ≠ "export".toList) :
    LineUses name new ↔ LineUses name old := by
  obtain rfl | ⟨h, marker, hold, hlisted, hnew⟩ := hchange.parse?
  · rfl
  · rw [LineUses, LineUses, linksModules_of_head hold, linksModules_of_head hnew,
      looksLikeComment_of_head hold, looksLikeComment_of_head hnew]
    cases hchange with
    | same => rfl
    | without h hread hlisted => rw [mem_lineIdentifiers_bodyOf hread hlisted hname]
    | marked h hread hlisted => rw [mem_lineIdentifiers_marked hread hlisted hname]

end Remarked

/-! ## Lines of changed texts -/

theorem Head.dropReturn_bodyOf {line : Text} {h : Head} (hread : parse? line = some h)
    (hlisted : h.isListed) : (h.bodyOf line).dropReturn = h.bodyOf line.dropReturn := by
  by_cases hlast : line.getLast? = some '\r'
  · obtain ⟨front, rfl⟩ := List.getLast?_eq_some_iff.1 hlast
    rw [parse?_append_return] at hread
    have hlength : (h.marker.getD []).length ≤ front.length := by
      obtain ⟨c, rest, hcons, -⟩ := (opens_of_parse? hread).exists_cons
      rw [← bodyOf_eq hread hlisted, bodyOf] at hcons
      have hlength := congrArg List.length hcons
      rw [List.length_drop, List.length_cons] at hlength
      omega
    rw [bodyOf, List.drop_append_of_le_length hlength, Text.dropReturn_append_return,
      Text.dropReturn_append_return, bodyOf]
  · rw [Text.dropReturn_of_ne hlast,
      Text.dropReturn_of_ne ((Remarked.without h hread hlisted).getLast? hlast)]

namespace Remarked

variable {old new : Text}

theorem dropReturn (hchange : Remarked old new) : Remarked old.dropReturn new.dropReturn := by
  have hparse : ∀ {h : Head}, Head.parse? old = some h → Head.parse? old.dropReturn = some h :=
    fun hread => (headView.read_dropReturn old).trans hread
  cases hchange with
  | same => exact .same
  | without h hread hlisted =>
      rw [Head.dropReturn_bodyOf hread hlisted]
      exact .without h (hparse hread) hlisted
  | marked h hread hlisted =>
      rw [Text.dropReturn_append (by decide), Head.dropReturn_bodyOf hread hlisted]
      exact .marked h (hparse hread) hlisted

theorem eq_nil_iff (hchange : Remarked old new) : new = [] ↔ old = [] := by
  obtain rfl | ⟨h, marker, hold, -, hnew⟩ := hchange.parse?
  · rfl
  · have hne : ∀ {line : Text} {h : Head}, Head.parse? line = some h → line ≠ [] := by
      rintro line h hread rfl
      cases hread
    exact iff_of_false (hne hnew) (hne hold)

end Remarked

/-- Texts that have the same pieces up to markers have the same lines up to markers. -/
theorem forall₂_lines {t u : Text}
    (hpieces : List.Forall₂ Remarked (t.pieces '\n') (u.pieces '\n')) :
    List.Forall₂ Remarked t.lines u.lines := by
  rw [Text.lines, Text.lines]
  generalize t.pieces '\n' = olds at hpieces
  generalize u.pieces '\n' = news at hpieces
  induction hpieces with
  | nil => exact .nil
  | @cons old new olds news hchange hrest ih =>
      cases hrest with
      | nil =>
          simp only [Text.linesOfPieces, hchange.eq_nil_iff]
          split
          · exact .nil
          · exact .cons hchange .nil
      | cons hsecond hrest => exact .cons hchange.dropReturn ih

/-- A change of markers does not change what a text uses, but for the word `export`. -/
theorem mem_usedNames_remarked {t u name : Text}
    (hpieces : List.Forall₂ Remarked (t.pieces '\n') (u.pieces '\n'))
    (hname : name ≠ "export".toList) : name ∈ usedNames u ↔ name ∈ usedNames t := by
  have hlines := forall₂_lines hpieces
  rw [mem_usedNames_iff, mem_usedNames_iff]
  generalize t.lines = olds at hlines
  generalize u.lines = news at hlines
  induction hlines with
  | nil => rfl
  | cons hchange _ ih =>
      simp only [List.exists_mem_cons_iff, hchange.lineUses_iff hname, ih]

/-! ## The end of a line -/

/-- A carriage return at the end of a line stays at its end, or a blank stands for it. -/
theorem blankFrom_append_return (state : LiteralState) (t : Text) :
    ∃ c, Text.isBlank c ∧ blankFrom state (t ++ ['\r']) = blankFrom state t ++ [c] := by
  induction t generalizing state with
  | nil =>
      cases state with
      | code substitution => exact ⟨'\r', by decide, by simp [blankFrom]⟩
      | literal quote substitution =>
          by_cases hquote : '\r' = quote
          · exact ⟨'\r', by decide, by simp [blankFrom, ← hquote]⟩
          · exact ⟨' ', by decide, by simp [blankFrom, hquote]⟩
      | escape quote substitution => exact ⟨' ', by decide, by simp [blankFrom]⟩
      | opening => exact ⟨'\r', by decide, by simp [blankFrom]⟩
  | cons d t ih =>
      have hhead : (t ++ ['\r']).head? = some '\x7b' ↔ t.head? = some '\x7b' := by
        cases t <;> simp
      have hstep : ∃ (e : Char) (next : LiteralState), ∀ rest : Text,
          (rest.head? = some '\x7b' ↔ t.head? = some '\x7b') →
            blankFrom state (d :: rest) = e :: blankFrom next rest := by
        cases state with
        | code substitution => exact ⟨_, _, fun rest _ => rfl⟩
        | escape quote substitution => exact ⟨_, _, fun rest _ => rfl⟩
        | opening => exact ⟨_, _, fun rest _ => rfl⟩
        | literal quote substitution =>
            simp only [blankFrom]
            by_cases hescape : d = '\\'
            · exact ⟨_, _, fun rest _ => by rw [if_pos hescape]⟩
            · by_cases hquote : d = quote
              · exact ⟨_, _, fun rest _ => by rw [if_neg hescape, if_pos hquote]⟩
              · by_cases hopen : quote = '\x60' ∧ d = '$' ∧ t.head? = some '\x7b'
                · exact ⟨_, _, fun rest hrest => by
                    rw [if_neg hescape, if_neg hquote, if_pos (by rwa [hrest])]⟩
                · exact ⟨_, _, fun rest hrest => by
                    rw [if_neg hescape, if_neg hquote, if_neg (by rwa [hrest])]⟩
      obtain ⟨e, next, hstep⟩ := hstep
      obtain ⟨c, hc, hrest⟩ := ih next
      refine ⟨c, hc, ?_⟩
      rw [List.cons_append, hstep _ hhead, hstep _ Iff.rfl, hrest, List.cons_append]

/-- A blank at the end of a line is code at most at the end. -/
theorem codePart_append_blank {c : Char} (hc : Text.isBlank c) (t : Text) :
    codePart (t ++ [c]) = codePart t ∨ codePart (t ++ [c]) = codePart t ++ [c] := by
  have hslash : c ∉ ['/', '/'] := by
    simp only [List.mem_cons, List.not_mem_nil, or_false, or_self]
    rintro rfl
    exact absurd hc (by decide)
  rw [codePart, codePart, Text.before, Text.before, cut?_concat (by simp) hslash]
  cases Text.cut? ['/', '/'] t with
  | none => exact .inr rfl
  | some cut => exact .inl rfl

def Occurrence.ahead (o : Occurrence) (more : Text) : Occurrence :=
  { o with after := o.after ++ more }

theorem identifiersFrom_append_blank {c : Char} (hc : Text.isBlank c) (inside : Bool)
    (before t : Text) :
    identifiersFrom inside before (t ++ [c]) =
      (identifiersFrom inside before t).map (·.ahead [c]) := by
  have hpart : isIdentPart c = false := by
    by_contra hpart
    rw [isBlank_of_isIdentPart (by simpa using hpart)] at hc
    cases hc
  induction t generalizing inside before with
  | nil =>
      have hblanks := identifiersFrom_blanks (by simp) (List.forall_mem_singleton.2 hc) inside
        before []
      rw [List.append_nil] at hblanks
      rw [List.nil_append, hblanks]
      rfl
  | cons d t ih =>
      have htake : (t ++ [c]).takeWhile isIdentPart = t.takeWhile isIdentPart := by
        rw [List.takeWhile_append]
        split
        · rename_i hall
          rw [(List.takeWhile_prefix _).eq_of_length hall,
            List.takeWhile_cons_of_neg (by simp [hpart]), List.append_nil]
        · rfl
      have hdrop : (t ++ [c]).dropWhile isIdentPart = t.dropWhile isIdentPart ++ [c] := by
        rw [List.dropWhile_append]
        split
        · rename_i hnil
          rw [List.isEmpty_iff.1 hnil, List.dropWhile_cons_of_neg (by simp [hpart]),
            List.nil_append]
        · rfl
      rw [List.cons_append, identifiersFrom, identifiersFrom, ih, ih, htake, hdrop]
      split
      · rfl
      · split
        · rfl
        · rfl

/-- A blank at the end is not a colon and hides none. -/
theorem startsWith_colon_append_blank {c : Char} (hc : Text.isBlank c) (t : Text) :
    (t ++ [c]).trimStart.startsWith [':'] = t.trimStart.startsWith [':'] := by
  have hcolon : c ∉ [':'] := by
    rw [List.mem_singleton]
    rintro rfl
    exact absurd hc (by decide)
  rw [Text.trimStart_concat hc]
  split
  · rename_i hnil
    rw [hnil]
  · rw [Text.startsWith, Text.after?_concat hcolon, Option.isSome_map, Text.startsWith]

theorem Occurrence.isUse_ahead {c : Char} (hc : Text.isBlank c) (o : Occurrence) :
    (o.ahead [c]).isUse = o.isUse := by
  have hcolon : (o.ahead [c]).hasColon = o.hasColon := by
    have hplain := startsWith_colon_append_blank hc o.after
    have hafter := Text.trimStart_concat hc o.after
    rw [hasColon, hasColon, ahead]
    cases hstart : o.after.trimStart with
    | nil =>
        rw [hstart, if_pos rfl] at hafter
        simp only [hafter]
    | cons d rest =>
        rw [hstart, if_neg (by simp), List.cons_append] at hafter
        rw [hstart, hafter] at hplain
        -- Behind a mark, blanks are skipped once more.
        by_cases hmark : d = '?' ∨ d = '!'
        · obtain rfl | rfl := hmark
          · simpa only [hafter] using startsWith_colon_append_blank hc rest
          · simpa only [hafter] using startsWith_colon_append_blank hc rest
        · rw [not_or] at hmark
          simpa [hafter, hmark.1, hmark.2] using hplain
  simp only [isUse, isKey, hcolon]
  rfl

theorem lineIdentifiers_append_return (line : Text) :
    lineIdentifiers (line ++ ['\r']) = lineIdentifiers line := by
  obtain ⟨c, hc, hblank⟩ := blankFrom_append_return (.code none) line
  have hnames : ∀ t, usesFrom false [] (t ++ [c]) = usesFrom false [] t := by
    intro t
    have huses : (fun o : Occurrence => (o.ahead [c]).isUse) = fun o => o.isUse :=
      funext fun o => o.isUse_ahead hc
    rw [usesFrom, identifiersFrom_append_blank hc, List.filter_map, List.map_map, usesFrom]
    exact congrArg (fun p => ((identifiersFrom false [] t).filter p).map (·.name)) huses
  rw [lineIdentifiers_eq, lineIdentifiers_eq, codeOf, codeOf, blankStrings, blankStrings, hblank]
  obtain hsame | hmore := codePart_append_blank hc (blankFrom (.code none) line)
  · rw [hsame]
  · rw [hmore, hnames]

theorem lineIdentifiers_of_blank {line : Text} (hblank : line.trim = []) :
    lineIdentifiers line = [] := by
  have hall : ∀ c ∈ line, Text.isBlank c := Text.trim_eq_nil_iff.1 hblank
  have hcode : codeOf line = line := by
    have happend := codeOf_append (fun c hc => isPlain_of_isBlank (hall c hc)) []
    rw [List.append_nil] at happend
    rw [happend]
    exact List.append_nil line
  rw [lineIdentifiers_eq, hcode, usesFrom]
  by_cases hnil : line = []
  · rw [hnil]
    rfl
  · have hnone := identifiersFrom_blanks hnil hall false [] []
    rw [List.append_nil] at hnone
    rw [hnone]
    rfl

def identifierView : LineView (List Text) where
  read line :=
    if linksModules line || looksLikeComment line || (lineIdentifiers line).isEmpty then none
    else some (lineIdentifiers line)
  read_blank line hblank := by simp [lineIdentifiers_of_blank hblank]
  read_return line := by
    rw [linksModules_append_return, looksLikeComment_append_return, lineIdentifiers_append_return]

theorem mem_usedNames_iff_view {t name : Text} :
    name ∈ usedNames t ↔ ∃ names ∈ identifierView.of t.lines, name ∈ names := by
  rw [mem_usedNames_iff]
  constructor
  · rintro ⟨line, hline, hlinks, hcomment, hname⟩
    have hread : identifierView.read line = some (lineIdentifiers line) := by
      simp [identifierView, hlinks, hcomment, List.ne_nil_of_mem hname]
    exact ⟨_, List.mem_filterMap.2 ⟨line, hline, hread⟩, hname⟩
  · rintro ⟨names, hnames, hname⟩
    obtain ⟨line, hline, hread⟩ := List.mem_filterMap.1 hnames
    simp only [identifierView] at hread
    split at hread
    · cases hread
    · rename_i hcode
      cases hread
      simp only [Bool.or_eq_true, not_or, Bool.not_eq_true] at hcode
      exact ⟨line, hline, hcode.1.1, hcode.1.2, hname⟩

end Transplant
