import Transplant.Proofs.Markers

/-!
# Declarations and the lines they stand on

A declaration names its line by the number of lines above it.  So the declarations of a text are
those of the lines above some line, then the one on that line if there is one, then those below,
with the line counted in.  Putting a marker on one line changes the declaration on that line and no
other: the first declaration of a name is found on the same line afterwards.
-/

namespace Transplant

def declarationsFrom (index : Nat) (lines : List Text) : List Declaration :=
  ((headsFrom index lines).filter (·.1.isTopLevel)).map (·.2)

theorem headsFrom_linesOfPieces (index : Nat) (pieces : List Text) :
    headsFrom index (Text.linesOfPieces pieces) = headsFrom index pieces := by
  induction pieces generalizing index with
  | nil => rfl
  | cons piece rest ih =>
      cases rest with
      | nil =>
          rw [Text.linesOfPieces]
          split
          · rename_i hnil
            rw [hnil, headsFrom_cons, headView.read_nil]
            rfl
          · rfl
      | cons second rest =>
          rw [Text.linesOfPieces_cons_cons, headsFrom_cons, headsFrom_cons,
            headView.read_dropReturn, ih]

theorem declarations_eq (t : Text) : declarations t = declarationsFrom 0 (t.pieces '\n') := by
  rw [declarations, Text.lines, headsFrom_linesOfPieces, declarationsFrom]

theorem declarationsFrom_cons (index : Nat) (line : Text) (rest : List Text) :
    declarationsFrom index (line :: rest) =
      ((listedView.read line).map (·.toDeclaration index)).toList ++
        declarationsFrom (index + 1) rest := by
  rw [declarationsFrom, headsFrom_cons, listedView_read]
  cases headView.read line with
  | none => rfl
  | some h =>
      cases hdefault : h.isDefault <;> cases htop : h.isTopLevel <;>
        simp [hdefault, htop, Head.isListed, declarationsFrom]

theorem declarationsFrom_append (index : Nat) (above below : List Text) :
    declarationsFrom index (above ++ below) =
      declarationsFrom index above ++ declarationsFrom (index + above.length) below := by
  induction above generalizing index with
  | nil => rfl
  | cons line above ih =>
      rw [List.cons_append, declarationsFrom_cons, declarationsFrom_cons, ih, List.append_assoc,
        List.length_cons, Nat.add_assoc, Nat.add_comm 1]

/-- A declaration stands among the lines that it was read from. -/
theorem line_lt_of_mem_declarationsFrom {index : Nat} {lines : List Text} {d : Declaration}
    (hd : d ∈ declarationsFrom index lines) : d.line < index + lines.length := by
  induction lines generalizing index with
  | nil => cases hd
  | cons line rest ih =>
      rw [declarationsFrom_cons, List.mem_append, Option.mem_toList] at hd
      rw [List.length_cons]
      obtain hhere | hbelow := hd
      · obtain ⟨h, -, rfl⟩ := Option.map_eq_some_iff.1 hhere
        simp [Head.toDeclaration]
      · have hline := ih hbelow
        omega

/-- The declarations around a declaration line. -/
theorem declarations_of_pieces {t line : Text} {above below : List Text} {h : Head}
    (hpieces : t.pieces '\n' = above ++ line :: below) (hread : Head.parse? line = some h)
    (hlisted : h.isListed) :
    declarations t = declarationsFrom 0 above ++
      h.toDeclaration above.length :: declarationsFrom (above.length + 1) below := by
  rw [declarations_eq, hpieces, declarationsFrom_append, declarationsFrom_cons,
    listedView_of_head hread hlisted, Nat.zero_add]
  rfl

/-- Two declarations of a text do not share a line. -/
theorem declaration_ext {t : Text} {d e : Declaration} (hd : d ∈ declarations t)
    (he : e ∈ declarations t) (hline : d.line = e.line) : d = e := by
  obtain ⟨line, h, hget, hread, -, hdecl⟩ := exists_line_of_declaration hd
  obtain ⟨line', h', hget', hread', -, hdecl'⟩ := exists_line_of_declaration he
  rw [hline, hget'] at hget
  cases hget
  rw [hread] at hread'
  cases hread'
  rw [hdecl, hdecl', hline]

/-! ## Putting a marker on -/

/-- Nothing above the first declaration of a name is of that name: it would have been found
first. -/
theorem GainsMarker.find?_above {t name line : Text} {above below : List Text} {h : Head}
    (hgain : GainsMarker t name above line below h) :
    (declarationsFrom 0 above).find? (·.name = name) = none := by
  have hfind := hgain.found
  rw [declarationOf?, declarations_of_pieces hgain.pieces hgain.read hgain.listed,
    List.find?_append] at hfind
  cases hearly : (declarationsFrom 0 above).find? (·.name = name) with
  | none => rfl
  | some d =>
      have hline := line_lt_of_mem_declarationsFrom (List.mem_of_find?_eq_some hearly)
      rw [hearly, Option.some_or, Option.some.injEq] at hfind
      rw [hfind, Head.toDeclaration, Nat.zero_add] at hline
      exact absurd hline (Nat.lt_irrefl _)

/-- The first declaration of a name gains a marker; those of other names stay as they are. -/
theorem declarationOf?_markExported (t name other : Text) :
    declarationOf? (markExported t name) other =
      (declarationOf? t other).map fun d =>
        if other = name then { d with exported := true } else d := by
  obtain ⟨hsame, hexported⟩ | ⟨above, line, below, h, hgain⟩ := markExported_cases t name
  · rw [hsame]
    cases hother : declarationOf? t other with
    | none => rfl
    | some d =>
        rw [Option.map_some]
        split
        · rename_i hname
          rw [← hexported d (hname ▸ hother)]
        · rfl
  · rw [declarationOf?, declarationOf?,
      declarations_of_pieces hgain.pieces hgain.read hgain.listed,
      declarations_of_pieces hgain.pieces_markExported hgain.parse?_marked hgain.listed,
      List.find?_append, List.find?_append]
    by_cases hother : other = name
    · subst hother
      simp [hgain.find?_above, Head.toDeclaration, hgain.name, Head.isExported]
    · have hne : h.name ≠ other := fun hname => hother (by rw [← hname, hgain.name])
      simp [Head.toDeclaration, hne, hother]

/-- The first declaration of each of the names gains a marker. -/
theorem declarationOf?_markAllExported (t : Text) (names : List Text) (other : Text) :
    declarationOf? (markAllExported t names) other =
      (declarationOf? t other).map fun d =>
        if other ∈ names then { d with exported := true } else d := by
  induction names generalizing t with
  | nil => simp [markAllExported]
  | cons name names ih =>
      rw [markAllExported, List.foldl_cons, ← markAllExported, ih, declarationOf?_markExported,
        Option.map_map]
      apply congrArg (Option.map · (declarationOf? t other))
      funext d
      by_cases hname : other = name <;> by_cases hnames : other ∈ names <;>
        simp [hname, hnames]

end Transplant
