import Transplant.Proofs.PublicNames

/-!
# What a move exports

The public names of both texts of a move, counted.  The source keeps the names that its other lines
export, without the local exports of a symbol that is forwarded, and gains the forwarded symbol and
the carried names that had no marker.  The target keeps its names and gains those of the moved
lines.

From these two equations follows which names get lost and which get exported twice.  An alias of a
forwarded symbol goes with its list entry, because only the symbol itself is forwarded.  A marker is
written although a list exports the name, and the moved lines may export what the target exports.
-/

namespace Transplant

theorem publicNames_pasteBelow (target block : Text) {marker : Option Text}
    (hmarker : ∀ line ∈ marker, '\n' ∉ line) :
    publicNames (Move.pasteBelow target block marker) =
      publicNames target + exposedBy marker.toList + publicNames block := by
  rw [publicNames_eq, publicNames_eq, publicNames_eq, exposedBy,
    Move.of_pasteBelow publicView _ _ hmarker, List.flatten_append, List.flatten_append,
    ← Multiset.coe_add, ← Multiset.coe_add, ← add_assoc]
  rfl

theorem publicNames_cutOut_le (source : Text) {range : LineSpan}
    (hrange : range.first ≤ range.last + 1) :
    publicNames (Move.cutOut source range) ≤ publicNames source := by
  have hperm := (Move.perm_within_outside publicView (LinedText.splitLines source) hrange).flatten
  rw [List.flatten_append] at hperm
  have hsource : publicNames source = exposedBy (range.outside (LinedText.splitLines source)) +
      exposedBy (range.within (LinedText.splitLines source)) := by
    rw [← exposedBy_splitLines]
    exact Multiset.coe_eq_coe.2 hperm.symm
  rw [hsource, publicNames_eq, exposedBy, Move.of_cutOut publicView source hrange]
  exact Multiset.le_add_right _ _

namespace Move

variable {move : Move} {policies : MovePolicies} {outline : Outliner} {confirm : Text → Bool}

/-- The source around the moved lines, without the local exports of a forwarded symbol. -/
def unlistedSource (move : Move) (record : MoveRecord) : Text :=
  let rest := cutOut move.source record.range
  if record.forwarded then record.symbol.elim rest (unlist rest) else rest

/-- The names that a move exports from the source anew: the symbol, if it is forwarded and no list
forwards it yet, and the carried names without a marker. -/
def addedExports (move : Move) (record : MoveRecord) : List Text :=
  let rest := unlistedSource move record
  (if record.forwarded then
      record.symbol.toList.filter (!forwardsFrom rest · record.paths.sourceToTarget)
    else []) ++
    unmarked (cutOut move.source record.range) record.carried

/-- The moved lines as they stand in the target. -/
def copiedText (move : Move) (record : MoveRecord) : Text :=
  let code := MovedCode.ofText (selectedText move record)
  if record.exported then record.symbol.elim code.text (markExported code.text) else code.text

section Linked

variable {reexport : ForwardPolicy} {s : Selected} {symbol : Text} {clash : Bool}

theorem nodup_carried : (linked move reexport s symbol clash).carried.Nodup :=
  (nodup_usedNames _).filter _

/-- The public names of the source of a linked move. -/
theorem publicNames_linked_source (hs : SelectedFrom move outline s) (hsymbol : IsWord symbol)
    (hplain : PlainPath s.paths.sourceToTarget) :
    publicNames (performLinked move reexport s symbol clash).source =
      publicNames (forwardedSource reexport s symbol) +
        (unmarked s.remainder (linked move reexport s symbol clash).carried : List Text) := by
  have hlinked : publicNames (linked move reexport s symbol clash).source =
      publicNames (forwardedSource reexport s symbol) :=
    (relines_linked_source hs hsymbol hplain).publicNames publicView_of_isLinking
  have hunmarked : unmarked (linked move reexport s symbol clash).source
      (linked move reexport s symbol clash).carried =
        unmarked s.remainder (linked move reexport s symbol clash).carried := by
    apply unmarked_congr
    intro name _
    exact (relines_source hs hsymbol hplain.not_mem
      (coversSource_declaresNothing symbol _)).of_lines _ (markerView_of_declaresNothing name)
  rw [performLinked_eq, publicNames_markAllExported nodup_carried, hlinked, hunmarked]

/-- The symbol of a linked move is the name that the moved lines declare first. -/
theorem symbol_linked {kind : Kind} {declared : Identifier}
    (hdeclared : s.code.declared = some (kind, declared)) :
    (performLinked move reexport s symbol clash).record.symbol = some declared.text := by
  simp [performLinked_eq, Selected.record, hdeclared]

theorem code_selectedText (hs : SelectedFrom move outline s) {record : MoveRecord}
    (hrange : record.range = s.excerpt.range) :
    MovedCode.ofText (selectedText move record) = s.code := by
  rw [selectedText, hrange, ← hs.text, hs.code]

/-- Text that declares nothing is copied without its marker. -/
theorem copiedText_plain (hs : SelectedFrom move outline s) (hnone : s.code.declared = none) :
    copiedText move (performPlain move s).record = s.code.text := by
  have hsymbol : (performPlain move s).record.symbol = none := by
    simp [performPlain, Selected.record, hnone]
  rw [copiedText, code_selectedText hs rfl, hsymbol]
  exact ite_self _

theorem copiedText_linked (hs : SelectedFrom move outline s) {kind : Kind} {declared : Identifier}
    (hdeclared : s.code.declared = some (kind, declared)) :
    copiedText move (performLinked move reexport s declared.text clash).record =
      movedText reexport s declared.text := by
  rw [copiedText, code_selectedText hs rfl, symbol_linked hdeclared]
  rfl

theorem unlistedSource_linked (hs : SelectedFrom move outline s) {kind : Kind}
    {declared : Identifier} (hdeclared : s.code.declared = some (kind, declared)) :
    unlistedSource move (performLinked move reexport s declared.text clash).record =
      if isForwarded reexport s declared.text then unlist s.remainder declared.text
      else s.remainder := by
  rw [unlistedSource, symbol_linked hdeclared, hs.remainder]
  rfl

theorem addedExports_linked (hs : SelectedFrom move outline s) {kind : Kind}
    {declared : Identifier} (hdeclared : s.code.declared = some (kind, declared)) :
    addedExports move (performLinked move reexport s declared.text clash).record =
      (if isForwarded reexport s declared.text then
          [declared.text].filter (!forwardsFrom (unlist s.remainder declared.text) ·
            s.paths.sourceToTarget)
        else []) ++
        unmarked s.remainder (linked move reexport s declared.text clash).carried := by
  have hrecord : (performLinked move reexport s declared.text clash).record.forwarded =
      isForwarded reexport s declared.text := rfl
  have hrest : cutOut move.source (performLinked move reexport s declared.text
      clash).record.range = s.remainder := hs.remainder.symm
  rw [addedExports, unlistedSource_linked hs hdeclared, symbol_linked hdeclared, hrecord, hrest]
  cases isForwarded reexport s declared.text with
  | false => rfl
  | true => rfl

/-- Forwarding takes the symbol out of the local lists and adds it once. -/
theorem publicNames_forwardedSource (hsymbol : IsWord symbol)
    (hplain : PlainPath s.paths.sourceToTarget) :
    publicNames (forwardedSource reexport s symbol) =
      publicNames (if isForwarded reexport s symbol then unlist s.remainder symbol
        else s.remainder) +
      ((if isForwarded reexport s symbol then
          [symbol].filter (!forwardsFrom (unlist s.remainder symbol) · s.paths.sourceToTarget)
        else [] : List Text) : Multiset Text) := by
  rw [forwardedSource]
  split
  · rw [replaceByForwarding, publicNames_addForwarding hsymbol hplain]
    cases hforwards : forwardsFrom (unlist s.remainder symbol) symbol s.paths.sourceToTarget with
    | false => simp [hforwards]
    | true => simp [hforwards]
  · exact (add_zero _).symm

/-- A warning exports nothing. -/
theorem exposedBy_warning (symbol : Text) (clash : Bool) :
    exposedBy (warning symbol clash).toList = 0 := by
  cases clash with
  | false => rfl
  | true =>
      have hlist : ExportList.parse? (clashMarker symbol) = none := rfl
      have hread : publicView.read (clashMarker symbol) = none := by
        simp [publicView, exportView, hlist, listedView, LineView.bind, headView,
          Head.parse?_clashMarker]
      simp [warning, exposedBy, LineView.of, hread]

/-- The public names of the target of a linked move. -/
theorem publicNames_linked_target (hs : SelectedFrom move outline s) (hsymbol : IsWord symbol)
    (hplain : PlainPath s.paths.targetToSource) :
    publicNames (performLinked move reexport s symbol clash).target =
      publicNames move.target + publicNames (movedText reexport s symbol) := by
  have hcovers := coversTarget_isLinking hplain
  have hlinked : publicNames (linked move reexport s symbol clash).target =
      publicNames (pastedTarget move reexport s symbol clash) :=
    (relines_target hs hplain.not_mem hcovers).publicNames publicView_of_isLinking
  have hremove : publicNames (removeImport move.target s.paths.targetToSource symbol) =
      publicNames move.target :=
    Relines.publicNames (.single (relined_removeImport hcovers.named)) publicView_of_isLinking
  rw [performLinked_eq, hlinked, pastedTarget, publicNames_pasteBelow _ _ (not_mem_warning hsymbol),
    hremove, exposedBy_warning, add_zero]

end Linked

/-- The source of a move exports what its other lines export, and the added exports. -/
theorem publicNames_source {moved : Moved}
    (hmove : perform move policies outline confirm = .ok moved)
    (htargetPath : PlainPath move.targetPath) :
    publicNames moved.source = publicNames (unlistedSource move moved.record) +
      (addedExports move moved.record : List Text) := by
  obtain ⟨s, hs, hcases⟩ := perform_cases hmove
  have hout := hs.plain_out htargetPath
  obtain ⟨-, rfl⟩ | ⟨kind, symbol, clash, hdeclared, rfl⟩ := hcases
  · have hrest : (performPlain move s).source = cutOut move.source s.excerpt.range := hs.remainder
    rw [hrest]
    exact (add_zero _).symm
  · rw [publicNames_linked_source hs symbol.isWord hout, publicNames_forwardedSource symbol.isWord
      hout, unlistedSource_linked hs hdeclared, addedExports_linked hs hdeclared]
    simp only [← Multiset.coe_add, add_assoc]

/-- The target of a move exports what it exported, and what the moved lines export. -/
theorem publicNames_target {moved : Moved}
    (hmove : perform move policies outline confirm = .ok moved)
    (hsourcePath : PlainPath move.sourcePath) :
    publicNames moved.target =
      publicNames move.target + publicNames (copiedText move moved.record) := by
  obtain ⟨s, hs, ⟨hnone, rfl⟩ | ⟨kind, symbol, clash, hdeclared, rfl⟩⟩ := perform_cases hmove
  · have hwarning : ∀ line ∈ (none : Option Text), '\n' ∉ line := by simp
    rw [copiedText_plain hs hnone, performPlain, publicNames_pasteBelow _ _ hwarning,
      Option.toList_none, exposedBy_nil, add_zero]
  · rw [publicNames_linked_target hs symbol.isWord (hs.plain_back hsourcePath),
      copiedText_linked hs hdeclared]

/-! ## Names that get lost -/

/-- A text exposes a symbol under a name: the symbol itself, if its declaration has a marker, and
the public name of each entry that a local list has for the symbol. -/
def Exposes (t symbol name : Text) : Prop :=
  (name = symbol ∧ ∃ line ∈ t.lines, ∃ h, Head.parse? line = some h ∧ h.isTopLevel ∧
      h.name = symbol ∧ h.isExported) ∨
    ∃ line ∈ t.lines, ∃ l, ExportList.parse? line = some l ∧ l.isOwn ∧
      ∃ entry ∈ l.names, ExportList.exportsName symbol entry ∧ ExportList.publicName entry = name

theorem mem_publicNames_of_exported {t name : Text} {d : Declaration}
    (hfind : declarationOf? t name = some d) (hexported : d.exported) : name ∈ publicNames t := by
  have hname : d.name = name := by simpa using List.find?_some hfind
  rw [publicNames, Multiset.mem_add, Multiset.mem_coe, Multiset.mem_coe]
  refine .inr (List.mem_map.2 ⟨d, List.mem_filter.2 ⟨?_, hexported⟩, hname⟩)
  exact List.mem_of_find?_eq_some hfind

/-- The public names that a move leaves in its source if it forwards its symbol: those of the other
lines, those that it carries, and the symbol itself unless a list forwards it already. -/
theorem mem_publicNames_source_iff {moved : Moved} {symbol : Text}
    (hmove : perform move policies outline confirm = .ok moved)
    (htargetPath : PlainPath move.targetPath) (hsymbol : moved.record.symbol = some symbol)
    (hforwarded : moved.record.forwarded) (name : Text) :
    name ∈ publicNames moved.source ↔
      name ∈ publicNames (unlistedSource move moved.record) ∨ name ∈ moved.record.carried ∨
        name = symbol ∧ forwardsFrom (unlistedSource move moved.record) symbol
          moved.record.paths.sourceToTarget = false := by
  have hcarried : name ∈ moved.record.carried → name ∈ publicNames moved.source := by
    obtain ⟨s, kind, declared, clash, hs, -, rfl, rfl⟩ := exists_performLinked hmove hsymbol
    have hout := hs.plain_out htargetPath
    intro hname
    obtain ⟨d, hfind, hexported⟩ := exported_markAllExported
      (fun other => declaresTop_of_mem_carried hs declared.isWord hout) name hname
    exact mem_publicNames_of_exported hfind hexported
  have hadded : name ∈ addedExports move moved.record ↔
      (name = symbol ∧ forwardsFrom (unlistedSource move moved.record) symbol
        moved.record.paths.sourceToTarget = false) ∨
      name ∈ unmarked (cutOut move.source moved.record.range) moved.record.carried := by
    rw [addedExports, if_pos hforwarded, hsymbol, List.mem_append, List.mem_filter]
    simp only [Option.toList_some, List.mem_singleton, Bool.not_eq_true']
    exact or_congr_left (and_congr_right fun hname => by rw [hname])
  have hsource := publicNames_source hmove htargetPath
  constructor
  · intro hname
    rw [hsource, Multiset.mem_add, Multiset.mem_coe, hadded] at hname
    obtain hkept | hforward | hmarked := hname
    · exact .inl hkept
    · exact .inr (.inr hforward)
    · exact .inr (.inl (List.mem_of_mem_filter hmarked))
  · rintro (hkept | hname | hforward)
    · rw [hsource]
      exact Multiset.mem_add.2 (.inl hkept)
    · exact hcarried hname
    · rw [hsource]
      exact Multiset.mem_add.2 (.inr (Multiset.mem_coe.2 (hadded.2 (.inl hforward))))

/-- A move that forwards its symbol keeps a name under which the source exposed it exactly if
another line exports the name, the move carries it, or it is the symbol itself and no list forwards
the symbol yet.  So an alias goes with the entry that gave it, and the symbol itself goes if a list
forwards it under an alias. -/
theorem mem_publicNames_forwarded {moved : Moved} {symbol : Text}
    (hmove : perform move policies outline confirm = .ok moved)
    (htargetPath : PlainPath move.targetPath) (hsymbol : moved.record.symbol = some symbol)
    (hforwarded : moved.record.forwarded) :
    ∀ name, Exposes move.source symbol name →
      (name ∈ publicNames moved.source ↔
        name ∈ publicNames (unlistedSource move moved.record) ∨ name ∈ moved.record.carried ∨
          name = symbol ∧ forwardsFrom (unlistedSource move moved.record) symbol
            moved.record.paths.sourceToTarget = false) :=
  fun name _ => mem_publicNames_source_iff hmove htargetPath hsymbol hforwarded name

/-- A move of a type that its file exports under another name. -/
def aliasMove : Move :=
  { sourcePath := "a.ts".toList
    targetPath := "b.ts".toList
    source := "type A = string;\nexport \x7b A as B \x7d;\n".toList
    target := []
    selection := .range 1 1 }

def aliasMoved : Moved :=
  { sourcePath := "a.ts".toList
    targetPath := "b.ts".toList
    source := "export \x7b A \x7d from './b';\n".toList
    target := "export type A = string;\n".toList
    record :=
      { stage := .linked
        symbol := some "A".toList
        kind := some .typeDecl
        movedLines := (1, 1)
        clash := false
        exported := true
        forwarded := true
        sourceImported := false
        carried := []
        paths := { sourceToTarget := "./b".toList, targetToSource := "./a".toList } } }

/-- The alias is lost. -/
theorem mem_publicNames_forwarded_alias :
    perform aliasMove { } (fun _ => []) (fun _ => false) = .ok aliasMoved ∧
      Exposes aliasMove.source "A".toList "B".toList ∧
      "B".toList ∉ publicNames aliasMoved.source := by
  have hperform : perform aliasMove { } (fun _ => []) (fun _ => false) = .ok aliasMoved := by
    decide +kernel
  have hexposes : Exposes aliasMove.source "A".toList "B".toList :=
    .inr ⟨"export \x7b A as B \x7d;".toList, by decide +kernel,
      ⟨[], ["A as B".toList], none, true, []⟩, by decide +kernel, rfl, "A as B".toList,
      List.mem_singleton_self _, by decide +kernel, by decide +kernel⟩
  refine ⟨hperform, hexposes, ?_⟩
  rw [mem_publicNames_forwarded hperform (by decide) rfl rfl _ hexposes]
  decide +kernel

/-! ## Names that are exported twice -/

theorem publicNames_unlistedSource_le {record : MoveRecord}
    (hrange : record.range.first ≤ record.range.last + 1) :
    publicNames (unlistedSource move record) ≤ publicNames move.source := by
  have hcut := publicNames_cutOut_le move.source hrange
  simp only [unlistedSource]
  split
  · cases record.symbol with
    | none => exact hcut
    | some symbol => exact (publicNames_unlist_le _ symbol).trans hcut
  · exact hcut

/-- A move adds each export once. -/
theorem nodup_addedExports {moved : Moved}
    (hmove : perform move policies outline confirm = .ok moved) :
    (addedExports move moved.record).Nodup := by
  obtain ⟨s, hs, ⟨-, rfl⟩ | ⟨kind, symbol, clash, hdeclared, rfl⟩⟩ := perform_cases hmove
  · exact List.nodup_nil
  · have hcarried : symbol.text ∉ unmarked s.remainder
        (linked move policies.reexport s symbol.text clash).carried :=
      fun hmem => (mem_carried_iff.1 (List.mem_of_mem_filter hmem)).2.1 rfl
    have hmarked : (unmarked s.remainder
        (linked move policies.reexport s symbol.text clash).carried).Nodup :=
      nodup_carried.filter _
    rw [addedExports_linked hs hdeclared]
    split
    · refine List.nodup_append'.2 ⟨(List.nodup_singleton _).filter _, hmarked, ?_⟩
      intro name hname
      obtain rfl := List.mem_singleton.1 (List.mem_of_mem_filter hname)
      exact hcarried
    · exact hmarked

/-- If the source of a move exported no name twice, it exports none twice afterwards exactly if no
added export was there already.  If the target exported no name twice, it exports none twice
afterwards exactly if neither the moved lines export a name twice nor the target one of theirs. -/
theorem nodup_publicNames_perform {moved : Moved}
    (hmove : perform move policies outline confirm = .ok moved)
    (hsourcePath : PlainPath move.sourcePath) (htargetPath : PlainPath move.targetPath) :
    ((publicNames move.source).Nodup →
      ((publicNames moved.source).Nodup ↔ ∀ name ∈ addedExports move moved.record,
        name ∉ publicNames (unlistedSource move moved.record))) ∧
    ((publicNames move.target).Nodup →
      ((publicNames moved.target).Nodup ↔
        (publicNames (copiedText move moved.record)).Nodup ∧
          ∀ name ∈ publicNames (copiedText move moved.record),
            name ∉ publicNames move.target)) := by
  constructor
  · intro hnodup
    have hkept : (publicNames (unlistedSource move moved.record)).Nodup := by
      obtain ⟨s, hs, hcases⟩ := perform_cases hmove
      apply Multiset.nodup_of_le (publicNames_unlistedSource_le _) hnodup
      obtain ⟨-, rfl⟩ | ⟨kind, symbol, clash, -, rfl⟩ := hcases
      · exact hs.ordered
      · exact hs.ordered
    have hadded := nodup_addedExports hmove
    rw [publicNames_source hmove htargetPath, Multiset.nodup_add, and_iff_right hkept,
      and_iff_right (Multiset.coe_nodup.2 hadded), Multiset.disjoint_right]
    rfl
  · intro hnodup
    rw [publicNames_target hmove hsourcePath, Multiset.nodup_add, and_iff_right hnodup,
      Multiset.disjoint_right]

/-- A move of a variable that uses a listed one, into a file that forwards it. -/
def listedMove : Move :=
  { sourcePath := "a.ts".toList
    targetPath := "b.ts".toList
    source := "const b = 1;\nexport const a = b;\nexport \x7b b \x7d;\n".toList
    target := "export \x7b a \x7d from './a';\n".toList
    selection := .range 2 2 }

def listedMoved : Moved :=
  { sourcePath := "a.ts".toList
    targetPath := "b.ts".toList
    source := ("export const b = 1;\nexport \x7b b \x7d;\n" ++
      "export \x7b a \x7d from './b';\n").toList
    target := ("import \x7b b \x7d from './a';\n\nexport \x7b a \x7d from './a';\n\n" ++
      "export const a = b;\n").toList
    record :=
      { stage := .linked
        symbol := some "a".toList
        kind := some .variableDecl
        movedLines := (2, 2)
        clash := false
        exported := true
        forwarded := true
        sourceImported := false
        carried := ["b".toList]
        paths := { sourceToTarget := "./b".toList, targetToSource := "./a".toList } } }

/-- The source exports the listed variable twice, the target the moved one. -/
theorem nodup_publicNames_perform_listed :
    perform listedMove { } (fun _ => []) (fun _ => false) = .ok listedMoved ∧
      ((publicNames listedMove.source).Nodup ∧ ¬(publicNames listedMoved.source).Nodup) ∧
      (publicNames listedMove.target).Nodup ∧ ¬(publicNames listedMoved.target).Nodup := by
  have hperform : perform listedMove { } (fun _ => []) (fun _ => false) = .ok listedMoved := by
    decide +kernel
  have hsource : (publicNames listedMove.source).Nodup := by decide +kernel
  have htarget : (publicNames listedMove.target).Nodup := by decide +kernel
  obtain ⟨hsourceIff, htargetIff⟩ := nodup_publicNames_perform hperform (by decide) (by decide)
  refine ⟨hperform, ⟨hsource, ?_⟩, htarget, ?_⟩
  · rw [hsourceIff hsource]
    decide +kernel
  · rw [htargetIff htarget]
    decide +kernel

end Move

end Transplant
