import Transplant.ExportList
import Transplant.Import
import Transplant.Proofs.Clauses

/-!
# Reading back written statements

A named import or an export list that was read from a line can be changed and written anew.  What is
written is read back as it was meant, provided that the parts are well formed; and the parts of a
statement that was read are.  Both kinds of statement are views of the lines of a text.
-/

namespace Transplant

theorem Text.mem_join {sep : Text} {parts : List Text} {c : Char} (hc : c ∈ join sep parts) :
    c ∈ sep ∨ ∃ part ∈ parts, c ∈ part := by
  induction parts with
  | nil => cases hc
  | cons first parts ih =>
      cases parts with
      | nil => exact .inr ⟨first, by simp, by simpa using hc⟩
      | cons second parts =>
          rw [join_cons_cons, List.mem_append, List.mem_append] at hc
          obtain (hfirst | hsep) | hrest := hc
          · exact .inr ⟨first, by simp, hfirst⟩
          · exact .inl hsep
          · obtain hsep | ⟨part, hpart, hc⟩ := ih hrest
            · exact .inl hsep
            · exact .inr ⟨part, List.mem_cons_of_mem _ hpart, hc⟩

theorem Text.takeWhile_isBlank_append {gap : Text} (hgap : ∀ c ∈ gap, isBlank c) {c : Char}
    (hc : isBlank c = false) (rest : Text) : (gap ++ c :: rest).takeWhile isBlank = gap := by
  rw [List.takeWhile_append_of_pos hgap, List.takeWhile_cons_of_neg (by simp [hc]), List.append_nil]

namespace Clause

/-- A module path that is read back from between quotation marks. -/
structure Origin.WellFormed (origin : Origin) : Prop where
  quote : Prologue.isQuote origin.quote
  path : ∀ c ∈ origin.path, Prologue.isQuote c = false

theorem wellFormed_of_origin? {t rest : Text} {origin : Origin}
    (hread : origin? t = some (origin, rest)) : origin.WellFormed := by
  obtain ⟨_, _, -, -, hquoted⟩ := origin?_eq_some_iff.1 hread
  obtain ⟨_, _, -, hquote, -, hpath, -⟩ := quoted?_eq_some_iff.1 hquoted
  exact ⟨hquote, hpath⟩

theorem braced?_renderNames {entries : List Text} (hentries : ∀ entry ∈ entries, IsEntry entry)
    {gap : Text} (hgap : ∀ c ∈ gap, Text.isBlank c) (rest : Text) :
    braced? (gap ++ renderNames entries ++ rest) = some (entries, rest) := by
  apply braced?_eq_some_iff.2
  refine ⟨gap, ' ' :: (Text.join ", ".toList entries ++ [' ']), hgap, ?_, ?_, ?_⟩
  · intro hbrace
    rw [List.mem_cons, List.mem_append] at hbrace
    obtain hbrace | hbrace | hbrace := hbrace
    · exact absurd hbrace (by decide)
    · obtain hsep | ⟨entry, hentry, hbrace⟩ := Text.mem_join hbrace
      · exact absurd hsep (by decide)
      · exact (hentries entry hentry).brace hbrace
    · exact absurd hbrace (by decide)
  · simp [renderNames]
  · exact (names_join hentries).symm

theorem Origin.render_eq (origin : Origin) :
    origin.render = " from ".toList ++ origin.quote :: (origin.path ++ [origin.quote]) := rfl

theorem origin?_render {origin : Origin} (horigin : origin.WellFormed) (rest : Text) :
    origin? (origin.render ++ rest) = some (origin, rest) := by
  apply origin?_eq_some_iff.2
  have hspace : ∀ c ∈ [' '], Text.isBlank c := List.forall_mem_singleton.2 (by decide)
  refine ⟨[' '], ' ' :: origin.quote :: (origin.path ++ origin.quote :: rest), hspace, ?_, ?_⟩
  · rw [Origin.render_eq]
    simp
  · apply quoted?_eq_some_iff.2
    exact ⟨[' '], origin.quote, hspace, horigin.quote, horigin.quote, horigin.path, rfl⟩

/-- The names and the origin of a new statement, written from their parts. -/
theorem render_single (name path : Text) :
    renderNames [name] ++ ({ quote := '\x27', path } : Origin).render ++ renderSemicolon true =
      "\x7b ".toList ++ name ++ " \x7d from '".toList ++ path ++ "';".toList := by
  have hnames : renderNames [name] = "\x7b ".toList ++ (name ++ " \x7d".toList) := by
    rw [renderNames, Text.join_singleton, List.append_assoc]
  rw [hnames, Origin.render_eq]
  simp only [renderSemicolon, List.append_assoc, List.cons_append, if_true]
  rfl

/-- A clause that starts with neither blanks nor `from` has no origin. -/
theorem origin?_eq_none {t : Text} (hstart : ∀ rest, t.trimStart ≠ "from".toList ++ rest) :
    origin? t = none := by
  have hexpect : expect? "from" t = none := by
    rw [Option.eq_none_iff_forall_ne_some]
    intro rest hrest
    exact hstart rest (Text.after?_eq_some_iff.1 hrest)
  rw [origin?, hexpect]
  rfl

theorem not_mem_renderNames {entries : List Text} (hentries : ∀ entry ∈ entries, '\n' ∉ entry) :
    '\n' ∉ renderNames entries := by
  have hjoin : '\n' ∉ Text.join ", ".toList entries := by
    intro hmem
    obtain hsep | ⟨entry, hentry, hmem⟩ := Text.mem_join hmem
    · exact absurd hsep (by decide)
    · exact hentries entry hentry hmem
  rw [renderNames, List.mem_append, List.mem_append]
  rintro ((hopen | hmem) | hclose)
  · exact absurd hopen (by decide)
  · exact hjoin hmem
  · exact absurd hclose (by decide)

theorem Origin.WellFormed.quote_ne {origin : Origin} (horigin : origin.WellFormed) {c : Char}
    (hc : Prologue.isQuote c = false) : origin.quote ≠ c := by
  rintro rfl
  rw [horigin.quote] at hc
  cases hc

theorem not_mem_origin_render {origin : Origin} (horigin : origin.WellFormed)
    (hpath : '\n' ∉ origin.path) : '\n' ∉ origin.render := by
  have hquote : origin.quote ≠ '\n' := horigin.quote_ne (by decide)
  rw [Origin.render_eq]
  simp [hpath, hquote.symm]

theorem getLast?_origin_render (front : Text) (origin : Origin) :
    (front ++ origin.render).getLast? = some origin.quote := by
  have hsplit : origin.render =
      (" from ".toList ++ origin.quote :: origin.path) ++ [origin.quote] := by
    rw [Origin.render_eq]
    simp
  rw [hsplit, ← List.append_assoc, List.getLast?_concat]

theorem not_mem_renderSemicolon (present : Bool) : '\n' ∉ renderSemicolon present := by
  cases present <;> decide

theorem getLast?_renderSemicolon {front : Text} (hfront : front.getLast? ≠ some '\r')
    (present : Bool) : (front ++ renderSemicolon present).getLast? ≠ some '\r' := by
  apply Text.getLast?_append_ne hfront
  cases present <;> decide

end Clause

/-! ## Named imports -/

namespace NamedImport

theorem parse?_eq_some_iff {line : Text} {i : NamedImport} :
    parse? line = some i ↔ ∃ list clause tail : Text,
      Clause.expect? "import" line = some list ∧
        Clause.braced? list = some (i.names, clause) ∧
        Clause.origin? clause = some (i.origin, tail) ∧
        Clause.semicolon tail = (i.semicolon, i.trailing) ∧
        '\n' ∉ i.trailing ∧ i.indent = line.takeWhile Text.isBlank := by
  simp only [parse?, Option.bind_eq_bind, Option.bind_eq_some_iff, Prod.exists]
  constructor
  · rintro ⟨list, hlist, names, clause, hclause, origin, tail, htail, hread⟩
    split at hread
    · cases hread
    · rename_i hbreak
      cases hread
      exact ⟨list, clause, tail, hlist, hclause, htail, rfl, hbreak, rfl⟩
  · rintro ⟨list, clause, tail, hlist, hclause, htail, hsemicolon, hbreak, hindent⟩
    refine ⟨list, hlist, i.names, clause, hclause, i.origin, tail, htail, ?_⟩
    simp only [hsemicolon, if_neg hbreak, ← hindent]

/-- An import whose parts are read back when it is written. -/
structure WellFormed (i : NamedImport) : Prop where
  indent : ∀ c ∈ i.indent, Text.isBlank c
  names : ∀ entry ∈ i.names, Clause.IsEntry entry
  origin : i.origin.WellFormed
  semicolon : i.semicolon = false → Clause.expect? ";" i.trailing = none
  trailing : '\n' ∉ i.trailing

theorem wellFormed_of_parse? {line : Text} {i : NamedImport} (hread : parse? line = some i) :
    i.WellFormed := by
  obtain ⟨list, clause, tail, -, hlist, hclause, htail, hbreak, hindent⟩ :=
    parse?_eq_some_iff.1 hread
  obtain ⟨_, body, -, hbody, -, hnames⟩ := Clause.braced?_eq_some_iff.1 hlist
  constructor
  · rw [hindent]
    exact fun c hc => List.mem_takeWhile_imp hc
  · rw [hnames]
    exact fun entry hentry => Clause.isEntry_of_mem_names hbody hentry
  · exact Clause.wellFormed_of_origin? hclause
  · intro habsent
    rw [habsent] at htail
    exact Clause.expect?_of_semicolon htail
  · exact hbreak

/-- A well-formed import is read back as it was written. -/
theorem parse?_render {i : NamedImport} (hi : i.WellFormed) : parse? i.render = some i := by
  have hsolid : Clause.StartsSolid "import" := ⟨'i', "mport".toList, rfl, by decide⟩
  have hspace : ∀ c ∈ [' '], Text.isBlank c := List.forall_mem_singleton.2 (by decide)
  apply parse?_eq_some_iff.2
  refine ⟨[' '] ++ Clause.renderNames i.names ++
      (i.origin.render ++ (Clause.renderSemicolon i.semicolon ++ i.trailing)),
    i.origin.render ++ (Clause.renderSemicolon i.semicolon ++ i.trailing),
    Clause.renderSemicolon i.semicolon ++ i.trailing, ?_, ?_, ?_, ?_, hi.trailing, ?_⟩
  · apply (Clause.expect?_eq_some_iff hsolid).2
    exact ⟨i.indent, hi.indent, by simp [render]⟩
  · exact Clause.braced?_renderNames hi.names hspace _
  · exact Clause.origin?_render hi.origin _
  · exact Clause.semicolon_renderSemicolon hi.semicolon
  · have hline : i.render = i.indent ++ 'i' :: ("mport ".toList ++ Clause.renderNames i.names ++
        i.origin.render ++ Clause.renderSemicolon i.semicolon ++ i.trailing) := by
      simp [render]
    rw [hline, Text.takeWhile_isBlank_append hi.indent (by decide)]

/-- A carriage return at the end of a line belongs to what follows the statement. -/
theorem parse?_append_return (line : Text) :
    parse? (line ++ ['\r']) =
      (parse? line).map fun i => { i with trailing := i.trailing ++ ['\r'] } := by
  simp only [parse?, Option.bind_eq_bind]
  rw [Clause.expect?_append_return (by decide) (by decide)]
  cases hlist : Clause.expect? "import" line with
  | none => rfl
  | some list =>
      have hindent : (line ++ ['\r']).takeWhile Text.isBlank = line.takeWhile Text.isBlank := by
        apply Text.takeWhile_append_of_dropWhile
        intro hblank
        rw [Clause.expect?, Text.trimStart, hblank] at hlist
        cases hlist
      simp only [Option.map_some, Option.bind_some, Clause.braced?_append_return, hindent]
      cases Clause.braced? list with
      | none => rfl
      | some pair =>
          simp only [Option.map_some, Option.bind_some, Clause.origin?_append_return]
          cases Clause.origin? pair.2 with
          | none => rfl
          | some pair =>
              simp only [Option.map_some, Option.bind_some, Clause.semicolon_append_return]
              by_cases hbreak : '\n' ∈ (Clause.semicolon pair.2).2
              · simp [hbreak]
              · simp [hbreak]

theorem parse?_of_blank {line : Text} (hblank : line.trim = []) : parse? line = none := by
  have hstart : line.trimStart = [] :=
    Text.trimStart_eq_nil_iff.2 (Text.trim_eq_nil_iff.1 hblank)
  have hexpect : Clause.expect? "import" line = none := by
    rw [Clause.expect?, hstart]
    rfl
  simp [parse?, hexpect]

theorem suffix_of_parse? {line : Text} {i : NamedImport} (hread : parse? line = some i) :
    i.trailing <:+ line := by
  obtain ⟨list, clause, tail, hline, hlist, hclause, htail, -, -⟩ := parse?_eq_some_iff.1 hread
  exact (Clause.suffix_of_semicolon htail).trans <| (Clause.suffix_of_origin? hclause).trans <|
    (Clause.suffix_of_braced? hlist).trans (Clause.suffix_of_expect? hline)

/-- No part of an import that stands on one line holds a line break. -/
structure OneLine (i : NamedImport) : Prop where
  indent : '\n' ∉ i.indent
  names : ∀ entry ∈ i.names, '\n' ∉ entry
  path : '\n' ∉ i.origin.path

theorem oneLine_of_parse? {line : Text} {i : NamedImport} (hbreak : '\n' ∉ line)
    (hread : parse? line = some i) : i.OneLine := by
  obtain ⟨list, clause, tail, hline, hlist, hclause, htail, -, hindent⟩ :=
    parse?_eq_some_iff.1 hread
  have hin : ∀ c ∈ list, c ∈ line := (Clause.suffix_of_expect? hline).subset
  constructor
  · rw [hindent]
    exact fun h => hbreak ((List.takeWhile_prefix _).subset h)
  · exact fun entry hentry h => hbreak (hin _ (Clause.mem_of_braced? hlist hentry h))
  · intro h
    exact hbreak (hin _ ((Clause.suffix_of_braced? hlist).subset (Clause.mem_of_origin? hclause h)))

theorem not_mem_render {i : NamedImport} (hi : i.WellFormed) (hline : i.OneLine) :
    '\n' ∉ i.render := by
  have hnames := Clause.not_mem_renderNames hline.names
  have horigin := Clause.not_mem_origin_render hi.origin hline.path
  have hsemicolon := Clause.not_mem_renderSemicolon i.semicolon
  have hword : '\n' ∉ "import ".toList := by decide
  simp only [render, List.mem_append, not_or]
  exact ⟨⟨⟨⟨⟨hline.indent, hword⟩, hnames⟩, horigin⟩, hsemicolon⟩, hi.trailing⟩

theorem getLast?_render {i : NamedImport} (hi : i.WellFormed)
    (htrailing : i.trailing.getLast? ≠ some '\r') : i.render.getLast? ≠ some '\r' := by
  have hquote : i.origin.quote ≠ '\r' := hi.origin.quote_ne (by decide)
  apply Text.getLast?_append_ne _ htrailing
  apply Clause.getLast?_renderSemicolon
  rw [Clause.getLast?_origin_render]
  simpa using hquote

/-- The import of one name, as it is written when a text has no import of the module yet. -/
def single (name path : Text) : NamedImport :=
  { indent := [], names := [name], origin := { quote := '\x27', path }, semicolon := true,
    trailing := [] }

/-- The keyword of a new statement and what follows it. -/
theorem statement_eq (name path : Text) :
    statement name path =
      "import ".toList ++
        ("\x7b ".toList ++ name ++ " \x7d from '".toList ++ path ++ "';".toList) := by
  delta statement
  simp only [List.append_assoc]
  rfl

theorem render_single (name path : Text) : (single name path).render = statement name path := by
  rw [statement_eq, ← Clause.render_single]
  simp only [render, single, List.append_assoc, List.nil_append, List.append_nil]

theorem wellFormed_single {name path : Text} (hname : Clause.IsEntry name)
    (hpath : ∀ c ∈ path, Prologue.isQuote c = false) : (single name path).WellFormed where
  indent := by simp [single]
  names := by simpa [single] using hname
  origin := { quote := rfl, path := hpath }
  semicolon := by simp [single]
  trailing := by simp [single]

theorem parse?_statement {name path : Text} (hname : Clause.IsEntry name)
    (hpath : ∀ c ∈ path, Prologue.isQuote c = false) :
    parse? (statement name path) = some (single name path) := by
  rw [← render_single]
  exact parse?_render (wellFormed_single hname hpath)

theorem wellFormed_insert {i : NamedImport} {name : Text} (hi : i.WellFormed)
    (hname : Clause.IsEntry name) : (i.insert name).WellFormed :=
  { hi with
    names := by
      intro entry hentry
      rw [insert, (inNameOrder_perm _).mem_iff, List.mem_append, List.mem_singleton] at hentry
      obtain hentry | rfl := hentry
      · exact hi.names entry hentry
      · exact hname }

theorem wellFormed_erase {i : NamedImport} (hi : i.WellFormed) (name : Text) :
    (i.erase name).WellFormed :=
  { hi with names := fun entry hentry => hi.names entry (List.mem_of_mem_erase hentry) }

theorem oneLine_insert {i : NamedImport} {name : Text} (hi : i.OneLine) (hname : '\n' ∉ name) :
    (i.insert name).OneLine :=
  { hi with
    names := by
      intro entry hentry
      rw [insert, (inNameOrder_perm _).mem_iff, List.mem_append, List.mem_singleton] at hentry
      obtain hentry | rfl := hentry
      · exact hi.names entry hentry
      · exact hname }

theorem oneLine_erase {i : NamedImport} (hi : i.OneLine) (name : Text) : (i.erase name).OneLine :=
  { hi with names := fun entry hentry => hi.names entry (List.mem_of_mem_erase hentry) }

end NamedImport

/-! ## Export lists -/

namespace ExportList

/-- The end of the reading of a list, once its names and its origin are known. -/
def finish? (indent : Text) (entries : List Text) (origin : Option Clause.Origin) (tail : Text) :
    Option ExportList :=
  if '\n' ∈ (Clause.semicolon tail).2 then none
  else if (Clause.semicolon tail).2.trim.isEmpty ||
      (Clause.semicolon tail).2.trimStart.startsWith ['/', '/'] then
    some { indent, names := entries, origin, semicolon := (Clause.semicolon tail).1,
           trailing := (Clause.semicolon tail).2 }
  else none

theorem parse?_eq (line : Text) :
    parse? line = (Clause.expect? "export" line).bind fun list =>
      (Clause.braced? list).bind fun names =>
        match Clause.origin? names.2 with
        | some origin =>
            finish? (line.takeWhile Text.isBlank) names.1 (some origin.1) origin.2
        | none => finish? (line.takeWhile Text.isBlank) names.1 none names.2 := by
  rw [parse?, Option.bind_eq_bind]
  congr 1
  funext list
  rw [Option.bind_eq_bind]
  congr 1
  funext names
  cases h : Clause.origin? names.2 <;> simp only [finish?, h]

theorem finish?_eq_some_iff {indent tail : Text} {entries : List Text}
    {origin : Option Clause.Origin} {l : ExportList} :
    finish? indent entries origin tail = some l ↔
      entries = l.names ∧ origin = l.origin ∧
        Clause.semicolon tail = (l.semicolon, l.trailing) ∧ '\n' ∉ l.trailing ∧
        (l.trailing.trim = [] ∨ l.trailing.trimStart.startsWith ['/', '/']) ∧
        l.indent = indent := by
  rw [finish?]
  constructor
  · intro hread
    split at hread
    · cases hread
    · rename_i hbreak
      split at hread
      · rename_i hend
        cases hread
        exact ⟨rfl, rfl, rfl, hbreak, by simpa using hend, rfl⟩
      · cases hread
  · rintro ⟨rfl, rfl, hsemicolon, hbreak, hend, rfl⟩
    rw [hsemicolon, if_neg hbreak, if_pos (by simpa using hend)]

theorem finish?_append_return (indent : Text) (entries : List Text)
    (origin : Option Clause.Origin) (tail : Text) :
    finish? indent entries origin (tail ++ ['\r']) =
      (finish? indent entries origin tail).map fun l =>
        { l with trailing := l.trailing ++ ['\r'] } := by
  have hcomment : ∀ t : Text, (t ++ ['\r']).trimStart.startsWith ['/', '/'] =
      t.trimStart.startsWith ['/', '/'] := Text.startsWith_trimStart_append_return (by decide)
  simp only [finish?, Clause.semicolon_append_return, Text.trim_append_return, hcomment,
    List.mem_append, show '\n' ∉ ['\r'] by decide, or_false]
  split
  · rfl
  · split <;> rfl

theorem parse?_eq_some_iff {line : Text} {l : ExportList} :
    parse? line = some l ↔ ∃ list clause tail : Text,
      Clause.expect? "export" line = some list ∧
        Clause.braced? list = some (l.names, clause) ∧
        (∀ origin, l.origin = some origin → Clause.origin? clause = some (origin, tail)) ∧
        (l.origin = none → Clause.origin? clause = none ∧ tail = clause) ∧
        Clause.semicolon tail = (l.semicolon, l.trailing) ∧ '\n' ∉ l.trailing ∧
        (l.trailing.trim = [] ∨ l.trailing.trimStart.startsWith ['/', '/']) ∧
        l.indent = line.takeWhile Text.isBlank := by
  simp only [parse?_eq, Option.bind_eq_some_iff, Prod.exists]
  constructor
  · rintro ⟨list, hlist, entries, clause, hclause, hread⟩
    cases horigin : Clause.origin? clause with
    | none =>
        rw [horigin] at hread
        obtain ⟨rfl, hnone, hrest⟩ := finish?_eq_some_iff.1 hread
        exact ⟨list, clause, clause, hlist, hclause, by simp [← hnone], by simp [horigin], hrest⟩
    | some pair =>
        rw [horigin] at hread
        obtain ⟨rfl, hsome, hrest⟩ := finish?_eq_some_iff.1 hread
        exact ⟨list, clause, pair.2, hlist, hclause, by simp [← hsome, horigin],
          by simp [← hsome], hrest⟩
  · rintro ⟨list, clause, tail, hlist, hclause, hsome, hnone, hrest⟩
    refine ⟨list, hlist, l.names, clause, hclause, ?_⟩
    cases horigin : l.origin with
    | none =>
        obtain ⟨hread, rfl⟩ := hnone horigin
        rw [hread]
        exact finish?_eq_some_iff.2 ⟨rfl, horigin.symm, hrest⟩
    | some origin =>
        rw [hsome origin horigin]
        exact finish?_eq_some_iff.2 ⟨rfl, horigin.symm, hrest⟩

/-- A list whose parts are read back when it is written. -/
structure WellFormed (l : ExportList) : Prop where
  indent : ∀ c ∈ l.indent, Text.isBlank c
  names : ∀ entry ∈ l.names, Clause.IsEntry entry
  origin : ∀ origin, l.origin = some origin → origin.WellFormed
  semicolon : l.semicolon = false → Clause.expect? ";" l.trailing = none
  trailing : '\n' ∉ l.trailing
  ending : l.trailing.trim = [] ∨ l.trailing.trimStart.startsWith ['/', '/']

theorem wellFormed_of_parse? {line : Text} {l : ExportList} (hread : parse? line = some l) :
    l.WellFormed := by
  obtain ⟨list, clause, tail, -, hlist, hsome, -, htail, hbreak, hend, hindent⟩ :=
    parse?_eq_some_iff.1 hread
  obtain ⟨_, body, -, hbody, -, hnames⟩ := Clause.braced?_eq_some_iff.1 hlist
  constructor
  · rw [hindent]
    exact fun c hc => List.mem_takeWhile_imp hc
  · rw [hnames]
    exact fun entry hentry => Clause.isEntry_of_mem_names hbody hentry
  · exact fun origin horigin => Clause.wellFormed_of_origin? (hsome origin horigin)
  · intro habsent
    rw [habsent] at htail
    exact Clause.expect?_of_semicolon htail
  · exact hbreak
  · exact hend

/-- What follows a list without an origin is not taken for one. -/
theorem origin?_ending {trailing : Text} {present : Bool}
    (hend : trailing.trim = [] ∨ trailing.trimStart.startsWith ['/', '/']) :
    Clause.origin? (Clause.renderSemicolon present ++ trailing) = none := by
  apply Clause.origin?_eq_none
  intro rest
  cases present with
  | true =>
      have hsolid : Text.isBlank ';' = false := by decide
      simp [Clause.renderSemicolon, Text.trimStart_cons hsolid]
  | false =>
      obtain hblank | hcomment := hend
      · have hnil := Text.trimStart_eq_nil_iff.2 (Text.trim_eq_nil_iff.1 hblank)
        simp [Clause.renderSemicolon, hnil]
      · obtain ⟨comment, hcomment⟩ := Text.startsWith_iff.1 hcomment
        simp [Clause.renderSemicolon, hcomment]

theorem render_eq (l : ExportList) : l.render = l.indent ++ "export".toList ++
    ([' '] ++ Clause.renderNames l.names ++ ((l.origin.elim [] (·.render)) ++
      (Clause.renderSemicolon l.semicolon ++ l.trailing))) := by
  cases h : l.origin <;> simp [render, h]

/-- A well-formed list is read back as it was written. -/
theorem parse?_render {l : ExportList} (hl : l.WellFormed) : parse? l.render = some l := by
  have hsolid : Clause.StartsSolid "export" := ⟨'e', "xport".toList, rfl, by decide⟩
  have hspace : ∀ c ∈ [' '], Text.isBlank c := List.forall_mem_singleton.2 (by decide)
  rw [parse?_eq_some_iff, render_eq]
  refine ⟨_, _, Clause.renderSemicolon l.semicolon ++ l.trailing,
    (Clause.expect?_eq_some_iff hsolid).2 ⟨l.indent, hl.indent, rfl⟩,
    Clause.braced?_renderNames hl.names hspace _, ?_, ?_, ?_, hl.trailing, hl.ending, ?_⟩
  · intro origin horigin
    rw [horigin]
    exact Clause.origin?_render (hl.origin origin horigin) _
  · intro hnone
    rw [hnone]
    exact ⟨origin?_ending hl.ending, rfl⟩
  · exact Clause.semicolon_renderSemicolon hl.semicolon
  · rw [List.append_assoc, show "export".toList = 'e' :: "xport".toList from rfl, List.cons_append,
      Text.takeWhile_isBlank_append hl.indent (by decide)]

/-- A carriage return at the end of a line belongs to what follows the statement. -/
theorem parse?_append_return (line : Text) :
    parse? (line ++ ['\r']) =
      (parse? line).map fun l => { l with trailing := l.trailing ++ ['\r'] } := by
  rw [parse?_eq, parse?_eq, Clause.expect?_append_return (by decide) (by decide)]
  cases hlist : Clause.expect? "export" line with
  | none => rfl
  | some list =>
      have hindent : (line ++ ['\r']).takeWhile Text.isBlank = line.takeWhile Text.isBlank := by
        apply Text.takeWhile_append_of_dropWhile
        intro hblank
        rw [Clause.expect?, Text.trimStart, hblank] at hlist
        cases hlist
      simp only [Option.map_some, Option.bind_some, Clause.braced?_append_return, hindent]
      cases Clause.braced? list with
      | none => rfl
      | some names =>
          simp only [Option.map_some, Option.bind_some, Clause.origin?_append_return]
          cases Clause.origin? names.2 with
          | none => exact finish?_append_return _ _ _ _
          | some origin => exact finish?_append_return _ _ _ _

theorem parse?_of_blank {line : Text} (hblank : line.trim = []) : parse? line = none := by
  have hstart : line.trimStart = [] :=
    Text.trimStart_eq_nil_iff.2 (Text.trim_eq_nil_iff.1 hblank)
  have hexpect : Clause.expect? "export" line = none := by
    rw [Clause.expect?, hstart]
    rfl
  simp [parse?, hexpect]

/-- What follows the names, with the origin or without it, is part of the line. -/
theorem suffix_of_clause {l : ExportList} {clause tail : Text}
    (hsome : ∀ origin, l.origin = some origin → Clause.origin? clause = some (origin, tail))
    (hnone : l.origin = none → Clause.origin? clause = none ∧ tail = clause) : tail <:+ clause := by
  cases horigin : l.origin with
  | none => exact ⟨[], (hnone horigin).2⟩
  | some origin => exact Clause.suffix_of_origin? (hsome origin horigin)

theorem suffix_of_parse? {line : Text} {l : ExportList} (hread : parse? line = some l) :
    l.trailing <:+ line := by
  obtain ⟨list, clause, tail, hline, hlist, hsome, hnone, htail, -⟩ := parse?_eq_some_iff.1 hread
  exact (Clause.suffix_of_semicolon htail).trans <| (suffix_of_clause hsome hnone).trans <|
    (Clause.suffix_of_braced? hlist).trans (Clause.suffix_of_expect? hline)

/-- No part of a list that stands on one line holds a line break. -/
structure OneLine (l : ExportList) : Prop where
  indent : '\n' ∉ l.indent
  names : ∀ entry ∈ l.names, '\n' ∉ entry
  path : ∀ origin, l.origin = some origin → '\n' ∉ origin.path

theorem oneLine_of_parse? {line : Text} {l : ExportList} (hbreak : '\n' ∉ line)
    (hread : parse? line = some l) : l.OneLine := by
  obtain ⟨list, clause, tail, hline, hlist, hsome, -, -, -, -, hindent⟩ :=
    parse?_eq_some_iff.1 hread
  have hin : ∀ c ∈ list, c ∈ line := (Clause.suffix_of_expect? hline).subset
  constructor
  · rw [hindent]
    exact fun h => hbreak ((List.takeWhile_prefix _).subset h)
  · exact fun entry hentry h => hbreak (hin _ (Clause.mem_of_braced? hlist hentry h))
  · intro origin horigin h
    have hclause := Clause.mem_of_origin? (hsome origin horigin) h
    exact hbreak (hin _ ((Clause.suffix_of_braced? hlist).subset hclause))

theorem not_mem_render {l : ExportList} (hl : l.WellFormed) (hline : l.OneLine) :
    '\n' ∉ l.render := by
  have hnames := Clause.not_mem_renderNames hline.names
  have horigin : '\n' ∉ l.origin.elim [] (·.render) := by
    cases h : l.origin with
    | none => simp
    | some origin => exact Clause.not_mem_origin_render (hl.origin origin h) (hline.path origin h)
  have hsemicolon := Clause.not_mem_renderSemicolon l.semicolon
  have hword : '\n' ∉ "export".toList := by decide
  have hspace : '\n' ∉ [' '] := by decide
  rw [render_eq]
  simp only [List.mem_append, not_or]
  exact ⟨⟨hline.indent, hword⟩, ⟨hspace, hnames⟩, horigin, hsemicolon, hl.trailing⟩

theorem getLast?_render {l : ExportList} (hl : l.WellFormed)
    (htrailing : l.trailing.getLast? ≠ some '\r') : l.render.getLast? ≠ some '\r' := by
  have hnames : ∀ front : Text, (front ++ Clause.renderNames l.names).getLast? = some '\x7d' := by
    intro front
    rw [Clause.renderNames, show " \x7d".toList = [' '] ++ ['\x7d'] from rfl,
      ← List.append_assoc, ← List.append_assoc, List.getLast?_concat]
  rw [render_eq]
  simp only [← List.append_assoc]
  apply Text.getLast?_append_ne _ htrailing
  apply Clause.getLast?_renderSemicolon
  cases horigin : l.origin with
  | none =>
      rw [Option.elim_none, List.append_nil, hnames]
      decide
  | some origin =>
      have hquote : origin.quote ≠ '\r' := (hl.origin origin horigin).quote_ne (by decide)
      rw [Option.elim_some, Clause.getLast?_origin_render]
      simpa using hquote

/-- The list that forwards one name, as it is written when a text forwards nothing from the module
yet. -/
def single (name path : Text) : ExportList :=
  { indent := [], names := [name], origin := some { quote := '\x27', path }, semicolon := true,
    trailing := [] }

theorem render_single (name path : Text) : (single name path).render = statement name path := by
  have hsplit : statement name path =
      "export ".toList ++
        ("\x7b ".toList ++ name ++ " \x7d from '".toList ++ path ++ "';".toList) := by
    delta statement
    simp only [List.append_assoc]
    rfl
  rw [hsplit, ← Clause.render_single]
  simp only [render, single, List.append_assoc, List.nil_append, List.append_nil]

theorem wellFormed_single {name path : Text} (hname : Clause.IsEntry name)
    (hpath : ∀ c ∈ path, Prologue.isQuote c = false) : (single name path).WellFormed where
  indent := by simp [single]
  names := by simpa [single] using hname
  origin := by
    rintro origin heq
    cases heq
    exact { quote := rfl, path := hpath }
  semicolon := by simp [single]
  trailing := by simp [single]
  ending := .inl rfl

theorem parse?_statement {name path : Text} (hname : Clause.IsEntry name)
    (hpath : ∀ c ∈ path, Prologue.isQuote c = false) :
    parse? (statement name path) = some (single name path) := by
  rw [← render_single]
  exact parse?_render (wellFormed_single hname hpath)

theorem wellFormed_insert {l : ExportList} {name : Text} (hl : l.WellFormed)
    (hname : Clause.IsEntry name) : (l.insert name).WellFormed :=
  { hl with
    names := by
      intro entry hentry
      rw [insert, (inNameOrder_perm _).mem_iff, List.mem_append, List.mem_singleton] at hentry
      obtain hentry | rfl := hentry
      · exact hl.names entry hentry
      · exact hname }

theorem wellFormed_erase {l : ExportList} (hl : l.WellFormed) (name : Text) :
    (l.erase name).WellFormed :=
  { hl with names := fun entry hentry => hl.names entry (List.mem_of_mem_eraseP hentry) }

theorem oneLine_insert {l : ExportList} {name : Text} (hl : l.OneLine) (hname : '\n' ∉ name) :
    (l.insert name).OneLine :=
  { hl with
    names := by
      intro entry hentry
      rw [insert, (inNameOrder_perm _).mem_iff, List.mem_append, List.mem_singleton] at hentry
      obtain hentry | rfl := hentry
      · exact hl.names entry hentry
      · exact hname }

theorem oneLine_erase {l : ExportList} (hl : l.OneLine) (name : Text) : (l.erase name).OneLine :=
  { hl with names := fun entry hentry => hl.names entry (List.mem_of_mem_eraseP hentry) }

end ExportList

/-! ## Statements that are read back -/

/-- What a line was read as is read again from what it is written as, part by part: imports as well
as export lists, whatever blanks, quotation marks and trailing text the line has. -/
theorem statements_readBack :
    (∀ line i, NamedImport.parse? line = some i → NamedImport.parse? i.render = some i) ∧
      ∀ line l, ExportList.parse? line = some l → ExportList.parse? l.render = some l := by
  constructor
  · intro line i hread
    exact NamedImport.parse?_render (NamedImport.wellFormed_of_parse? hread)
  · intro line l hread
    exact ExportList.parse?_render (ExportList.wellFormed_of_parse? hread)

/-- Lines that are not written as they are read: other blanks, unlike quotation marks, empty
entries, a second semicolon, and a comment that looks like the rest of the statement. -/
theorem statements_readBack_uneven :
    let i : NamedImport :=
      { indent := "\t".toList, names := ["a".toList, "b as c".toList]
        origin := { quote := '\x27', path := "./m".toList }, semicolon := true
        trailing := " ; x".toList }
    let l : ExportList :=
      { indent := [], names := ["a".toList, "b".toList], origin := none, semicolon := false
        trailing := " // from './m';".toList }
    NamedImport.parse? "\timport\x7ba ,,\u00a0b as c\x7dfrom'./m\" ; ; x".toList = some i ∧
      NamedImport.parse? i.render = some i ∧
      ExportList.parse? "export \x7ba,b\x7d // from './m';".toList = some l ∧
      ExportList.parse? l.render = some l :=
  have himport := by decide +kernel
  have hlist := by decide +kernel
  ⟨himport, statements_readBack.1 _ _ himport, hlist, statements_readBack.2 _ _ hlist⟩

/-! ## Statements as views -/

def importView : LineView (Text × List Text) where
  read line := (NamedImport.parse? line).map fun i => (i.origin.path, i.names)
  read_blank line hblank := by rw [NamedImport.parse?_of_blank hblank, Option.map_none]
  read_return line := by
    rw [NamedImport.parse?_append_return, Option.map_map]
    rfl

/-- The export lists of a text: module path, if there is one, and entries. -/
def exportView : LineView (Option Text × List Text) where
  read line := (ExportList.parse? line).map fun l => (l.origin.map (·.path), l.names)
  read_blank line hblank := by rw [ExportList.parse?_of_blank hblank, Option.map_none]
  read_return line := by
    rw [ExportList.parse?_append_return, Option.map_map]
    rfl

end Transplant
