import Mathlib.Data.Multiset.AddSub
import Transplant.Proofs.TargetLinks

/-!
# Public names

The names under which other modules can import from a text: one for each exported declaration and
one for each entry of an export list, which is the alias if the entry has one.  They form a
multiset, because a name that is exported twice is an error in the module.

Each edit of exports is measured by what it does to that multiset.  Marking declarations adds the
names whose declarations had no marker, forwarding a name adds it unless some entry forwards it
already, and taking a name out of the local lists adds nothing.
-/

namespace Transplant

/-! ## Entries of export lists -/

namespace ExportList

/-- The text behind the first word. -/
def behindWord (t : Text) : Text :=
  t.trimStart.dropWhile (!Text.isBlank ·)

def alias? (entry : Text) : Option Text :=
  if (behindWord entry).firstWord? = some "as".toList then
    (behindWord (behindWord entry)).firstWord?
  else none

/-- The name under which an entry exports: its alias, or else its name. -/
def publicName (entry : Text) : Text :=
  (alias? entry).getD (entry.firstWord?.getD [])

end ExportList

theorem IsWord.publicName {name : Text} (hname : IsWord name) :
    ExportList.publicName name = name := by
  have hblank : ∀ c ∈ name, (!Text.isBlank c) = true := by
    intro c hc
    rw [isBlank_of_isIdentPart (hname.parts c hc)]
    rfl
  have hbehind : ExportList.behindWord name = [] := by
    rw [ExportList.behindWord, List.dropWhile_eq_nil_iff]
    exact fun c hc => hblank c ((List.dropWhile_suffix _).subset hc)
  have halias : ExportList.alias? name = none := by
    rw [ExportList.alias?, hbehind]
    rfl
  rw [ExportList.publicName, halias, hname.firstWord?]
  rfl

/-! ## The public names of a text -/

/-- The names that a text exports, each as often as it is exported. -/
def publicNames (t : Text) : Multiset Text :=
  ((t.lines.filterMap ExportList.parse?).flatMap fun l => l.names.map ExportList.publicName) +
    (((declarations t).filter (·.exported)).map (·.name) : List Text)

def publicView : LineView (List Text) where
  read line :=
    match exportView.read line with
    | some entry => some (entry.2.map ExportList.publicName)
    | none => (listedView.read line).bind fun h => if h.isExported then some [h.name] else none
  read_blank line hblank := by
    rw [exportView.read_blank line hblank, listedView.read_blank line hblank]
    rfl
  read_return line := by rw [exportView.read_return, listedView.read_return]

def exposedBy (lines : List Text) : Multiset Text :=
  ((publicView.of lines).flatten : List Text)

@[simp]
theorem exposedBy_nil : exposedBy [] = 0 := rfl

@[simp]
theorem exposedBy_append (above below : List Text) :
    exposedBy (above ++ below) = exposedBy above + exposedBy below := by
  rw [exposedBy, publicView.of_append, List.flatten_append, ← Multiset.coe_add]
  rfl

theorem exposedBy_cons (line : Text) (rest : List Text) :
    exposedBy (line :: rest) = exposedBy [line] + exposedBy rest :=
  exposedBy_append [line] rest

theorem publicView_of_list {line : Text} {l : ExportList}
    (hread : ExportList.parse? line = some l) :
    publicView.read line = some (l.names.map ExportList.publicName) := by
  simp [publicView, exportView_read hread]

theorem exposedBy_of_list {line : Text} {l : ExportList}
    (hread : ExportList.parse? line = some l) :
    exposedBy [line] = (l.names.map ExportList.publicName : List Text) := by
  simp [exposedBy, LineView.of, publicView_of_list hread]

theorem publicView_of_head {line : Text} {h : Head} (hread : Head.parse? line = some h)
    (hlisted : h.isListed) :
    publicView.read line = if h.isExported then some [h.name] else none := by
  have hlist : exportView.read line = none := by
    simp [exportView, Head.exportList_of_parse? hread]
  simp [publicView, hlist, listedView_of_head hread hlisted]

theorem publicNames_eq (t : Text) : publicNames t = exposedBy t.lines := by
  have hmarked : ((declarations t).filter (·.exported)).map (·.name) =
      ((listedView.of t.lines).filter (·.isExported)).map (·.name) := by
    have hpairs := congrArg (fun pairs => (pairs.filter (·.2)).map (·.1))
      (declarations_map (fun _ name exported => (name, exported)) t)
    simpa [List.filter_map, Function.comp_def] using hpairs
  rw [publicNames, hmarked]
  induction t.lines with
  | nil => rfl
  | cons line rest ih =>
      rw [exposedBy_cons, ← ih, listedView.of_cons, List.filter_append, List.map_append,
        ← Multiset.coe_add]
      cases hread : ExportList.parse? line with
      | some l =>
          have hnone : listedView.read line = none := by
            simp [listedView, LineView.bind, headView, Head.parse?_of_exportList hread]
          rw [List.filterMap_cons_some hread, List.flatMap_cons, ← Multiset.coe_add, hnone,
            exposedBy_of_list hread]
          simp
      | none =>
          have hlist : exportView.read line = none := by simp [exportView, hread]
          have hline : exposedBy [line] =
              (((listedView.read line).toList.filter (·.isExported)).map (·.name) : List Text) := by
            cases hhead : listedView.read line with
            | none => simp [exposedBy, LineView.of, publicView, hlist, hhead]
            | some h =>
                cases hexported : h.isExported <;>
                  simp [exposedBy, LineView.of, publicView, hlist, hhead, hexported]
          rw [List.filterMap_cons_none hread, hline]
          exact add_left_comm _ _ _

/-- An edit of lines that export nothing changes no public name. -/
theorem Relines.publicNames {p : Text → Bool} {t u : Text} (hedits : Relines p t u)
    (hhidden : ∀ line, p line → publicView.read line = none) :
    Transplant.publicNames u = Transplant.publicNames t := by
  rw [publicNames_eq, publicNames_eq, exposedBy, exposedBy, hedits.of_lines publicView hhidden]

theorem publicView_of_isLinking (line : Text) (hline : Move.isLinking line) :
    publicView.read line = none := by
  have hlist := Move.exportView_of_isLinking line hline
  simp only [Move.isLinking, Bool.or_eq_true, List.isEmpty_iff] at hline
  obtain hblank | himport := hline
  · exact publicView.read_blank line hblank
  · obtain ⟨i, hread⟩ := Option.isSome_iff_exists.1 himport
    simp [publicView, hlist, listedView, LineView.bind, headView, Head.parse?_of_import hread]

theorem exposedBy_splitLines (t : Text) : exposedBy (LinedText.splitLines t) = publicNames t := by
  rw [publicNames_eq, exposedBy, publicView.of_splitLines, exposedBy]

theorem exposedBy_pieces (t : Text) : exposedBy (t.pieces '\n') = publicNames t := by
  rw [publicNames_eq, exposedBy, exposedBy, publicView.of_lines]

/-! ## Local lists -/

/-- Taking a name out of a local list exports nothing. -/
theorem exposedBy_removeFrom_le {line : Text} (hbreak : '\n' ∉ line) (name : Text) :
    exposedBy (ExportList.removeFrom name line).toList ≤ exposedBy [line] := by
  cases hread : ExportList.parse? line with
  | none => rw [ExportList.removeFrom_of_parse? hread, Option.toList_some]
  | some l =>
      cases hnew : ExportList.removeFrom name line with
      | none => exact Multiset.zero_le _
      | some new =>
          obtain ⟨m, hparse, hnames, -⟩ := ExportList.removeFrom_spec hbreak hread hnew
          rw [Option.toList_some, exposedBy_of_list hparse, exposedBy_of_list hread,
            Multiset.coe_le]
          exact (hnames.map _).subperm

/-- Edits of single lines that export nothing. -/
theorem exposedBy_filterMap_le {edit : Text → Option Text} {lines : List Text}
    (hedit : ∀ line ∈ lines, exposedBy (edit line).toList ≤ exposedBy [line]) :
    exposedBy (lines.filterMap edit) ≤ exposedBy lines := by
  induction lines with
  | nil => exact le_refl _
  | cons line rest ih =>
      obtain ⟨hline, hrest⟩ := List.forall_mem_cons.1 hedit
      have hcons : (line :: rest).filterMap edit = (edit line).toList ++ rest.filterMap edit := by
        rw [List.filterMap_cons]
        cases edit line <;> rfl
      rw [hcons, exposedBy_append, exposedBy_cons]
      exact add_le_add hline (ih hrest)

/-- Taking a name out of the local lists exports nothing. -/
theorem publicNames_unlist_le (t name : Text) : publicNames (unlist t name) ≤ publicNames t := by
  have hbreak : ∀ line ∈ LinedText.splitLines t, '\n' ∉ line :=
    fun _ => LinedText.not_mem_of_mem_splitLines
  have hnewBreak : ∀ new ∈ (LinedText.splitLines t).filterMap (ExportList.removeFrom name),
      '\n' ∉ new := by
    intro new hnew
    obtain ⟨line, hline, hremove⟩ := List.mem_filterMap.1 hnew
    exact ExportList.not_mem_removeFrom (hbreak line hline) hremove
  have hlines : publicNames (unlist t name) =
      exposedBy ((LinedText.splitLines t).filterMap (ExportList.removeFrom name)) := by
    rw [publicNames_eq, unlist, exposedBy, publicView.of_toText hnewBreak]
    rfl
  rw [hlines, ← exposedBy_splitLines t]
  exact exposedBy_filterMap_le fun line hline => exposedBy_removeFrom_le (hbreak line hline) name

/-! ## Forwarding -/

/-- Forwarding a name exports it, unless the text forwards it already. -/
theorem publicNames_addForwarding {t name path : Text} (hname : IsWord name)
    (hplain : Move.PlainPath path) :
    publicNames (addForwarding t name path) =
      publicNames t + if forwardsFrom t name path then 0 else {name} := by
  have hnamebreak : '\n' ∉ name := hname.not_mem (by decide)
  simp only [addForwarding]
  split
  · exact (add_zero _).symm
  · rw [publicNames_eq, publicNames_eq]
    split
    · rename_i index l hfind
      obtain ⟨offset, line, rfl, hindex, hread, -⟩ := findForwarding?_spec hfind
      rw [Nat.zero_add]
      obtain ⟨hparse, hbreak, -⟩ :=
        ExportList.insert_spec (not_mem_of_getElem? hindex) hread hname
      obtain ⟨above, below, hbefore, hafter⟩ := publicView.of_set hindex hbreak
      have hnames : ((l.insert name).names.map ExportList.publicName : Multiset Text) =
          (l.names.map ExportList.publicName : List Text) + {name} := by
        have horder := ((inNameOrder_perm (l.names ++ [name])).map ExportList.publicName)
        rw [List.map_append, List.map_singleton, hname.publicName] at horder
        exact Multiset.coe_eq_coe.2 horder
      rw [exposedBy, exposedBy, hbefore, hafter, publicView_of_list hread,
        publicView_of_list hparse]
      simp only [Option.toList_some, List.flatten_append, List.flatten_singleton,
        ← Multiset.coe_add, hnames]
      abel
    · have hread := ExportList.parse?_statement hname.isEntry fun c hc => (hplain c hc).1
      have hbreak := ExportList.not_mem_statement hnamebreak hplain.not_mem
      obtain ⟨above, below, hbefore, hafter⟩ :=
        publicView.of_insertAt t _ (List.forall_mem_singleton.2 hbreak)
      have hnew : publicView.of [ExportList.statement name path] = [[name]] := by
        simp [LineView.of, publicView_of_list hread, ExportList.single, hname.publicName]
      rw [exposedBy, exposedBy, hbefore, hafter, hnew]
      simp only [List.flatten_append, List.flatten_singleton, ← Multiset.coe_add,
        Multiset.coe_singleton]
      abel

/-! ## Markers -/

def markerView (name : Text) : LineView Bool :=
  listedView.bind fun h => if h.name = name then some h.isExported else none

theorem markerView_of_declaresNothing (name line : Text) (hline : declaresNothing line) :
    (markerView name).read line = none := by
  have hread : (markerView name).read line = (listedView.read line).bind fun h =>
      if h.name = name then some h.isExported else none := rfl
  rw [hread, listedView_of_declaresNothing line hline]
  rfl

/-- Whether the first declaration of a name is exported. -/
theorem exported_declarationOf? (t name : Text) :
    (declarationOf? t name).map (·.exported) = ((markerView name).of t.lines).head? := by
  have hview : (markerView name).of t.lines = ((listedView.of t.lines).map fun h =>
      (h.name, h.isExported)).filterMap fun entry =>
        if entry.1 = name then some entry.2 else none := by
    rw [markerView, LineView.of, List.filterMap_map, LineView.of, List.filterMap_filterMap]
    rfl
  rw [hview, ← declarations_map fun _ name exported => (name, exported), declarationOf?]
  induction declarations t with
  | nil => rfl
  | cons d rest ih =>
      by_cases hname : d.name = name
      · simp [hname]
      · simpa [hname] using ih

/-- A marker does not show in the declarations of other names. -/
theorem Exported.read_markerView {names : List Text} {name old new : Text}
    (hchange : Exported names old new) (hname : name ∉ names) :
    (markerView name).read new = (markerView name).read old := by
  have hother : ∀ {line : Text} {h : Head}, Head.parse? line = some h → h.name ≠ name →
      (markerView name).read line = none := by
    intro line h hread hne
    have hread : headView.read line = some h := hread
    cases hlisted : h.isListed <;> simp [markerView, listedView, LineView.bind, hread, hlisted, hne]
  cases hchange with
  | same => rfl
  | marked h hread hlisted hmem hmarker =>
      have hne : h.name ≠ name := by
        rintro rfl
        exact hname hmem
      rw [hother hread hne, hother (Exported.parse?_marked hread hlisted hmarker) hne]

/-- The names whose first declaration has no marker. -/
def unmarked (t : Text) (names : List Text) : List Text :=
  names.filter fun name => (declarationOf? t name).any (!·.exported)

theorem unmarked_congr {t u : Text} {names : List Text}
    (hview : ∀ name ∈ names, (markerView name).of t.lines = (markerView name).of u.lines) :
    unmarked t names = unmarked u names := by
  apply List.filter_congr
  intro name hname
  have hany : ∀ t, (declarationOf? t name).any (!·.exported) =
      ((markerView name).of t.lines).head?.any (!·) := by
    intro t
    rw [← exported_declarationOf?, Option.any_map]
  rw [hany, hany, hview name hname]

theorem publicNames_markExported (t name : Text) :
    publicNames (markExported t name) = publicNames t + (unmarked t [name] : List Text) := by
  obtain ⟨hsame, hexported⟩ | ⟨above, line, below, h, hgain⟩ := markExported_cases t name
  · have hnone : unmarked t [name] = [] := by
      cases hfind : declarationOf? t name with
      | none => simp [unmarked, hfind]
      | some d => simp [unmarked, hfind, hexported d hfind]
    rw [hsame, hnone, Multiset.coe_nil, add_zero]
  · have hold : exposedBy [line] = 0 := by
      simp [exposedBy, LineView.of, publicView_of_head hgain.read hgain.listed, Head.isExported,
        hgain.unmarked]
    have hnew : exposedBy [exportMarker ++ line] = {name} := by
      rw [exposedBy, LineView.of, List.filterMap_cons,
        publicView_of_head hgain.parse?_marked hgain.listed]
      simp [Head.isExported, hgain.name]
    have hadded : unmarked t [name] = [name] := by
      simp [unmarked, hgain.found, Head.toDeclaration, Head.isExported, hgain.unmarked]
    rw [← exposedBy_pieces, ← exposedBy_pieces t, hgain.pieces_markExported, hgain.pieces,
      exposedBy_append, exposedBy_append, exposedBy_cons, exposedBy_cons line, hold, hnew, hadded,
      Multiset.coe_singleton]
    abel

/-- Marking declarations exports the names whose first declaration had no marker. -/
theorem publicNames_markAllExported {names : List Text} (hnodup : names.Nodup) (t : Text) :
    publicNames (markAllExported t names) = publicNames t + (unmarked t names : List Text) := by
  induction names generalizing t with
  | nil => exact (add_zero _).symm
  | cons name names ih =>
      obtain ⟨hname, hnodup⟩ := List.nodup_cons.1 hnodup
      -- A marker on one declaration is none on the declarations of the other names.
      have hothers : unmarked (markExported t name) names = unmarked t names := by
        apply unmarked_congr
        intro other hother
        apply (markerView other).of_lines_eq_of_forall₂ (forall₂_markExported t name)
        intro old new hchange
        apply hchange.read_markerView
        rw [List.mem_singleton]
        rintro rfl
        exact hname hother
      have hcons : unmarked t (name :: names) = unmarked t [name] ++ unmarked t names := by
        rw [unmarked, unmarked, unmarked, ← List.filter_append, List.singleton_append]
      rw [markAllExported, List.foldl_cons, ← markAllExported, ih hnodup, publicNames_markExported,
        hothers, hcons, ← Multiset.coe_add, add_assoc]

end Transplant
