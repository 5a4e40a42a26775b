import Transplant.Proofs.Names

/-!
# Name clashes

A clash is not looked for among the declarations of a text but by a search of its own: a keyword,
blanks and the name, with word boundaries around them.  This module proves what the search finds,
and that it finds every declared name behind its keyword.  There is one form of declaration that the
search does not know.  The star of a generator function stands between the keyword and the name, so
a name that is declared by generator functions only is overlooked.
-/

namespace Transplant

/-! ## What the search finds -/

/-- No identifier goes on at the front of the text. -/
def EndsBefore (t : Text) : Prop :=
  ∀ c ∈ t.head?, isIdentPart c = false

/-- No identifier is open at the end of the text. -/
def EndsBehind (t : Text) : Prop :=
  ∀ c ∈ t.getLast?, isIdentPart c = false

/-- The text starts with one of the words, blanks and the name. -/
def OpensWith (words : List Text) (name t : Text) : Prop :=
  ∃ word ∈ words, ∃ gap after, t = word ++ (gap ++ (name ++ after)) ∧ gap ≠ [] ∧
    (∀ c ∈ gap, Text.isBlank c) ∧ EndsBefore after

/-- One of the words, blanks and the name stand in the text as words of their own. -/
def StandsBehind (words : List Text) (name t : Text) : Prop :=
  ∃ before rest, t = before ++ rest ∧ EndsBehind before ∧ OpensWith words name rest

/-- What holds at the end of both parts holds at the end of a text. -/
theorem forall_getLast?_append {p : Char → Prop} {s t : Text} (hs : ∀ c ∈ s.getLast?, p c)
    (ht : ∀ c ∈ t.getLast?, p c) : ∀ c ∈ (s ++ t).getLast?, p c := by
  intro c hc
  rw [List.getLast?_append, Option.mem_def, Option.or_eq_some_iff] at hc
  obtain hc | ⟨-, hc⟩ := hc
  · exact ht c hc
  · exact hs c hc

theorem endsBefore_of_blank {t : Text} (hblank : ∀ c ∈ t.head?, Text.isBlank c) : EndsBefore t := by
  intro c hc
  by_contra hpart
  rw [Bool.not_eq_false] at hpart
  have hc := hblank c hc
  rw [isBlank_of_isIdentPart hpart] at hc
  cases hc

theorem endsBehind_of_blank {t : Text} (hblank : ∀ c ∈ t.getLast?, Text.isBlank c) :
    EndsBehind t := by
  rw [EndsBehind, ← List.head?_reverse]
  exact endsBefore_of_blank (by rwa [List.head?_reverse])

theorem startsWithName_iff {name t : Text} :
    startsWithName name t ↔ ∃ after, t = name ++ after ∧ EndsBefore after := by
  rw [startsWithName]
  cases hafter : Text.after? name t with
  | none =>
      refine iff_of_false (by simp) ?_
      rintro ⟨after, rfl, -⟩
      simp at hafter
  | some rest =>
      rw [Text.after?_eq_some_iff] at hafter
      subst hafter
      cases rest with
      | nil => simp [EndsBefore]
      | cons c rest => simp [EndsBefore]

theorem afterBlanks_iff {accept : Text → Bool} {t : Text} :
    afterBlanks accept t ↔ ∃ gap rest, t = gap ++ rest ∧ gap ≠ [] ∧
      (∀ c ∈ gap, Text.isBlank c) ∧ accept rest := by
  induction t with
  | nil => simp [afterBlanks]
  | cons c t ih =>
      rw [afterBlanks, Bool.and_eq_true, Bool.or_eq_true, ih]
      constructor
      · rintro ⟨hc, haccept | ⟨gap, rest, rfl, -, hgap, haccept⟩⟩
        · exact ⟨[c], t, rfl, by simp, by simpa using hc, haccept⟩
        · exact ⟨c :: gap, rest, rfl, by simp, List.forall_mem_cons.2 ⟨hc, hgap⟩, haccept⟩
      · rintro ⟨gap, rest, ht, hne, hgap, haccept⟩
        obtain ⟨d, gap, rfl⟩ := List.exists_cons_of_ne_nil hne
        obtain ⟨hd, htail⟩ := List.forall_mem_cons.1 hgap
        cases ht
        refine ⟨hd, ?_⟩
        cases gap with
        | nil => exact .inl haccept
        | cons e gap => exact .inr ⟨e :: gap, rest, rfl, by simp, htail, haccept⟩

theorem clashesHere_iff {name t : Text} :
    clashesHere name t ↔ OpensWith clashKeywords name t := by
  rw [clashesHere, List.any_eq_true]
  refine exists_congr fun keyword => and_congr_right fun _ => ?_
  cases hafter : Text.after? keyword t with
  | none =>
      refine iff_of_false (by simp) ?_
      rintro ⟨gap, after, rfl, -⟩
      simp at hafter
  | some rest =>
      rw [Text.after?_eq_some_iff] at hafter
      subst hafter
      simp only [afterBlanks_iff, startsWithName_iff, List.append_cancel_left_eq]
      constructor
      · rintro ⟨gap, rest, rfl, hne, hgap, after, rfl, hafter⟩
        exact ⟨gap, after, rfl, hne, hgap, hafter⟩
      · rintro ⟨gap, after, rfl, hne, hgap, hafter⟩
        exact ⟨gap, name ++ after, rfl, hne, hgap, after, rfl, hafter⟩

theorem OpensWith.ne_nil {name t : Text} (hopens : OpensWith clashKeywords name t) : t ≠ [] := by
  have hwords : ∀ word ∈ clashKeywords, word ≠ [] := by decide
  obtain ⟨word, hword, gap, after, rfl, -⟩ := hopens
  simp [hwords word hword]

/-- The search goes over all places behind which no identifier is open. -/
theorem clashesFrom_iff {name t : Text} {wordBefore : Bool} :
    clashesFrom name wordBefore t ↔ ∃ before rest, t = before ++ rest ∧
      (before = [] → wordBefore = false) ∧ EndsBehind before ∧
      OpensWith clashKeywords name rest := by
  induction t generalizing wordBefore with
  | nil =>
      refine iff_of_false (by simp [clashesFrom]) ?_
      rintro ⟨before, rest, ht, -, -, hopens⟩
      exact hopens.ne_nil (List.append_eq_nil_iff.1 ht.symm).2
  | cons c t ih =>
      rw [clashesFrom, Bool.or_eq_true, Bool.and_eq_true, clashesHere_iff, ih, Bool.not_eq_true']
      constructor
      · rintro (⟨hword, hopens⟩ | ⟨before, rest, rfl, hstart, hbehind, hopens⟩)
        · exact ⟨[], c :: t, rfl, fun _ => hword, by simp [EndsBehind], hopens⟩
        · refine ⟨c :: before, rest, rfl, by simp, ?_, hopens⟩
          cases before with
          | nil => simpa [EndsBehind] using hstart
          | cons d before => simpa [EndsBehind] using hbehind
      · rintro ⟨before, rest, ht, hstart, hbehind, hopens⟩
        cases before with
        | nil => exact .inl ⟨hstart rfl, by rwa [ht]⟩
        | cons d before =>
            cases ht
            refine .inr ⟨before, rest, rfl, ?_, ?_, hopens⟩
            · rintro rfl
              simpa [EndsBehind] using hbehind
            · cases before with
              | nil => simp [EndsBehind]
              | cons e before => simpa [EndsBehind] using hbehind

/-- The search for a clash finds a keyword and the name behind it, wherever they stand. -/
theorem clashesAnywhere_iff {target name : Text} :
    clashesAnywhere target name ↔ StandsBehind clashKeywords name target := by
  simp [clashesAnywhere, clashesFrom_iff, StandsBehind]

/-- What stands in a part of a text stands in the text, if the part is bounded by no identifier. -/
theorem StandsBehind.append {words : List Text} {name t front back : Text}
    (hstands : StandsBehind words name t) (hfront : EndsBehind front) (hback : EndsBefore back) :
    StandsBehind words name (front ++ t ++ back) := by
  obtain ⟨before, rest, rfl, hbefore, word, hword, gap, after, rfl, hne, hgap, hafter⟩ := hstands
  refine ⟨front ++ before, word ++ (gap ++ (name ++ (after ++ back))), by simp, ?_, word, hword,
    gap, after ++ back, rfl, hne, hgap, ?_⟩
  · exact forall_getLast?_append hfront hbefore
  · intro c hc
    rw [List.head?_append, Option.mem_def, Option.or_eq_some_iff] at hc
    obtain hc | ⟨-, hc⟩ := hc
    · exact hafter c hc
    · exact hback c hc

/-! ## Names behind their keywords -/

namespace Head

/-- A text stands at the end of another one, at its front or behind a blank. -/
def BehindBlank (u t : Text) : Prop :=
  ∃ front, t = front ++ u ∧ ∀ c ∈ front.getLast?, Text.isBlank c

theorem BehindBlank.trans {t u w : Text} (hinner : BehindBlank u t) (houter : BehindBlank t w) :
    BehindBlank u w := by
  obtain ⟨front, rfl, hfront⟩ := hinner
  obtain ⟨more, rfl, hmore⟩ := houter
  exact ⟨more ++ front, by simp, forall_getLast?_append hmore hfront⟩

theorem behindBlank_skip (phrase : String) (t : Text) : BehindBlank (skip phrase t) t := by
  obtain hskip | ⟨c, tail, hc, ht, hskip⟩ := skip_eq_or phrase t
  · exact ⟨[], by rw [hskip]; rfl, by simp⟩
  · have hblanks : ∀ d ∈ c :: tail.takeWhile Text.isBlank, Text.isBlank d :=
      List.forall_mem_cons.2 ⟨hc, fun _ => List.mem_takeWhile_imp⟩
    refine ⟨phrase.toList ++ c :: tail.takeWhile Text.isBlank, ?_, ?_⟩
    · rw [hskip, List.append_assoc, List.cons_append, Text.trimStart,
        List.takeWhile_append_dropWhile]
      exact ht
    · intro d hd
      rw [List.getLast?_append_of_ne_nil _ (by simp)] at hd
      exact hblanks d (List.mem_of_getLast? hd)

theorem behindBlank_unindented (line : Text) : BehindBlank (unindented line) line := by
  refine ⟨line.takeWhile isIndent, List.takeWhile_append_dropWhile.symm, ?_⟩
  intro c hc
  have hindent : isIndent c := List.mem_takeWhile_imp (List.mem_of_getLast? hc)
  obtain rfl | rfl : c = ' ' ∨ c = '\t' := by simpa [isIndent] using hindent
  · decide
  · decide

/-- The line behind its indent, its marker and its modifiers. -/
def unmodified (line : Text) : Text :=
  skip "async" (skip "abstract" (skip "declare" (skip "default" (unmarked line))))

theorem behindBlank_unmodified (line : Text) : BehindBlank (unmodified line) line :=
  ((((behindBlank_skip "async" _).trans (behindBlank_skip "abstract" _)).trans
    (behindBlank_skip "declare" _)).trans (behindBlank_skip "default" _)).trans
      ((behindBlank_skip "export" _).trans (behindBlank_unindented line))

/-- The star of a generator follows the keyword of a function. -/
def isGenerator (line : Text) : Bool :=
  (Text.after? "function".toList (unmodified line)).any fun rest => rest.trimStart.startsWith ['*']

/-- A name is read up to its end. -/
theorem exists_of_name?_eq_some {t name : Text} (hread : name? t = some name) :
    ∃ after, t = name ++ after ∧ EndsBefore after := by
  cases t with
  | nil => cases hread
  | cons c rest =>
      rw [name?] at hread
      split at hread
      · cases hread
        refine ⟨rest.dropWhile isIdentPart, ?_, ?_⟩
        · rw [List.cons_append, List.takeWhile_append_dropWhile]
        · intro d hd
          have hend := List.head?_dropWhile_not isIdentPart rest
          rw [Option.mem_def.1 hd] at hend
          simpa using hend
      · cases hread

theorem opensWith_of_named? {phrase : String} {t name : Text} {words : List Text}
    (hphrase : phrase.toList ∈ words) (hread : named? phrase t = some name) :
    OpensWith words name t := by
  obtain ⟨rest, hrest, hname⟩ := Option.bind_eq_some_iff.1 hread
  obtain ⟨c, tail, hc, rfl, rfl⟩ := keyword?_eq_some_iff.1 hrest
  obtain ⟨after, htail, hafter⟩ := exists_of_name?_eq_some hname
  refine ⟨phrase.toList, hphrase, c :: tail.takeWhile Text.isBlank, after, ?_, by simp, ?_, hafter⟩
  · rw [← htail, List.cons_append, Text.trimStart, List.takeWhile_append_dropWhile]
  · exact List.forall_mem_cons.2 ⟨hc, fun _ => List.mem_takeWhile_imp⟩

/-- Behind the modifiers of a line stands the keyword that the name clashes behind, unless the line
declares a variable or a generator function. -/
theorem standsBehind_of_parse? {line : Text} {h : Head} (hread : parse? line = some h)
    (hkind : h.kind ≠ .variableDecl) (hstar : h.kind = .functionDecl → isGenerator line = false) :
    StandsBehind clashKeywords h.name line := by
  have hbehind : ∀ {u : Text}, BehindBlank u line → OpensWith clashKeywords h.name u →
      StandsBehind clashKeywords h.name line := by
    rintro u ⟨front, hline, hfront⟩ hopens
    exact ⟨front, u, hline, endsBehind_of_blank hfront, hopens⟩
  have hcore := behindBlank_unmodified line
  rw [parse?_eq] at hread
  obtain ⟨declared, hbody, rfl⟩ := Option.map_eq_some_iff.1 hread
  have hbody : declared? (unmodified line) = some declared := hbody
  simp only [declared?_eq, Option.or_eq_some_iff, Option.map_eq_some_iff] at hbody
  obtain h | ⟨-, h | ⟨-, h | ⟨-, h | ⟨-, h | ⟨-, h | ⟨-, h | ⟨-, h⟩⟩⟩⟩⟩⟩⟩ := hbody
  · obtain ⟨name, hname, rfl⟩ := h
    exact hbehind hcore (opensWith_of_named? (by decide) hname)
  · obtain ⟨name, hname, rfl⟩ := h
    exact hbehind hcore (opensWith_of_named? (by decide) hname)
  · obtain ⟨name, hname, rfl⟩ := h
    exact hbehind hcore (opensWith_of_named? (by decide) hname)
  · obtain ⟨name, hname, rfl⟩ := h
    have hplain := hstar rfl
    unfold functionName? at hname
    split at hname
    · cases hname
    · rename_i rest hafter
      split at hname
      · rename_i tail htail
        have hgenerator : Text.startsWith ('*' :: tail) ['*'] := Text.startsWith_iff.2 ⟨tail, rfl⟩
        rw [isGenerator, hafter, Option.any_some, htail, hgenerator] at hplain
        cases hplain
      · exact hbehind hcore (opensWith_of_named? (by decide) hname)
  · obtain ⟨name, hname, rfl⟩ := h
    exact hbehind ((behindBlank_skip "const" _).trans hcore)
      (opensWith_of_named? (by decide) hname)
  all_goals
    obtain ⟨name, -, rfl⟩ := h
    exact absurd rfl hkind

end Head

/-! ## Declared names -/

/-- A piece of a text and what stands around it. -/
theorem Text.exists_around_of_mem_pieces {sep : Char} {t piece : Text}
    (hpiece : piece ∈ pieces sep t) :
    ∃ front back, t = front ++ piece ++ back ∧ (∀ c ∈ front.getLast?, c = sep) ∧
      ∀ c ∈ back.head?, c = sep := by
  rw [← join_pieces sep t]
  generalize pieces sep t = parts at hpiece
  induction parts with
  | nil => cases hpiece
  | cons first parts ih =>
      cases parts with
      | nil =>
          obtain rfl := List.mem_singleton.1 hpiece
          exact ⟨[], [], by simp, by simp, by simp⟩
      | cons second parts =>
          rw [join_cons_cons]
          obtain rfl | hlater := List.mem_cons.1 hpiece
          · exact ⟨[], [sep] ++ join [sep] (second :: parts), by simp, by simp, by simp⟩
          · obtain ⟨front, back, hjoin, hfront, hback⟩ := ih hlater
            have hsep : ∀ c ∈ (first ++ [sep]).getLast?, c = sep := by simp
            exact ⟨first ++ [sep] ++ front, back, by rw [hjoin]; simp,
              forall_getLast?_append hsep hfront, hback⟩

/-- What stands on a line of a text stands in the text. -/
theorem StandsBehind.of_line {words : List Text} {name t line : Text} {index : Nat}
    (hstands : StandsBehind words name line) (hline : t.lines[index]? = some line) :
    StandsBehind words name t := by
  obtain ⟨piece, hpiece, hreturn⟩ := Text.exists_piece_of_lines hline
  obtain ⟨front, back, ht, hfront, hback⟩ :=
    Text.exists_around_of_mem_pieces (List.mem_of_getElem? hpiece)
  have hpiece : StandsBehind words name piece := by
    obtain rfl | rfl := hreturn
    · exact hstands
    · have hfront : EndsBehind [] := by simp [EndsBehind]
      have hback : EndsBefore ['\r'] := endsBefore_of_blank (by simp; decide)
      simpa using hstands.append hfront hback
  rw [ht]
  apply hpiece.append
  · apply endsBehind_of_blank
    intro c hc
    rw [hfront c hc]
    decide
  · apply endsBefore_of_blank
    intro c hc
    rw [hback c hc]
    decide

def Declaration.isGeneratorIn (t : Text) (d : Declaration) : Bool :=
  d.kind = .functionDecl && t.lines[d.line]?.any Head.isGenerator

/-- A declaration that is neither a variable nor a generator function clashes with its name. -/
theorem clashesAnywhere_of_declaration {target : Text} {d : Declaration}
    (hd : d ∈ declarations target) (hkind : d.kind ≠ .variableDecl)
    (hgenerator : d.isGeneratorIn target = false) : clashesAnywhere target d.name := by
  obtain ⟨line, h, hline, hread, -, heq⟩ := exists_line_of_declaration hd
  have hname : d.name = h.name := by rw [heq]; rfl
  have hsame : d.kind = h.kind := by rw [heq]; rfl
  rw [clashesAnywhere_iff, hname]
  refine (Head.standsBehind_of_parse? hread (hsame ▸ hkind) ?_).of_line hline
  intro hfunction
  simpa [Declaration.isGeneratorIn, hline, hsame, hfunction] using hgenerator

/-- A moved declaration of a name passes for new in the target exactly if the name stands behind no
keyword there and the target declares it by generator functions only, or by variables beside which
an interface or a type may stand. -/
theorem clashesWith_eq_false_iff (target name : Text) (kind : Kind) :
    clashesWith target name (some kind) = false ↔
      ¬ StandsBehind clashKeywords name target ∧
        ∀ d ∈ declarations target, d.name = name → d.isGeneratorIn target ∨
          d.kind = .variableDecl ∧ (kind = .interfaceDecl ∨ kind = .typeDecl) := by
  have hvalue : isValueKind (some kind) = false ↔ kind = .interfaceDecl ∨ kind = .typeDecl := by
    cases kind <;> simp [isValueKind]
  rw [clashesWith, Bool.or_eq_false_iff, ← clashesAnywhere_iff, Bool.not_eq_true, ← hvalue]
  refine and_congr_right fun hnone => ?_
  constructor
  · intro hvariables d hd hname
    by_cases hkind : d.kind = .variableDecl
    · refine .inr ⟨hkind, ?_⟩
      by_contra hvalue
      have hany : (declarations target).any (fun d => d.name = name && d.kind = .variableDecl) :=
        List.any_eq_true.2 ⟨d, hd, by simp [hname, hkind]⟩
      simp [hany, hvalue] at hvariables
    · left
      by_contra hgenerator
      have hclash := clashesAnywhere_of_declaration hd hkind (by simpa using hgenerator)
      rw [hname, hnone] at hclash
      cases hclash
  · intro hdeclared
    rw [Bool.and_eq_false_iff]
    by_cases hvalue : isValueKind (some kind) = false
    · exact .inl hvalue
    · right
      rw [List.any_eq_false]
      intro d hd hvariable
      simp only [Bool.and_eq_true, decide_eq_true_eq] at hvariable
      obtain hgenerator | ⟨-, hother⟩ := hdeclared d hd hvariable.1
      · simp [Declaration.isGeneratorIn, hvariable.2] at hgenerator
      · exact hvalue hother

def generatorText : Text :=
  "function* gen() \x7b\x7d\n".toList

/-- A second declaration of the name of a generator function passes for new, whatever its kind. -/
theorem clashesWith_eq_false_iff_generator :
    (declarations generatorText).map (fun d => (d.kind, d.name)) =
        [(.functionDecl, "gen".toList)] ∧
      ¬ StandsBehind clashKeywords "gen".toList generatorText ∧
      ∀ kind, clashesWith generatorText "gen".toList (some kind) = false := by
  have hclash : ∀ kind, clashesWith generatorText "gen".toList (some kind) = false := by
    intro kind
    cases kind <;> decide +kernel
  exact ⟨by decide +kernel, ((clashesWith_eq_false_iff _ _ .functionDecl).1 (hclash _)).1, hclash⟩

end Transplant
