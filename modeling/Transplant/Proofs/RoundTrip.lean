import Transplant.Proofs.Blocks
import Transplant.Proofs.Clauses

/-!
# Lined texts that are read back

Writing a lined text and reading it again can lose carriage returns: one at the end of a line is
taken for a part of the line break.  A lined text is settled if this cannot happen.  Then reading
gives back what was written, the kind of line break included.  A text that does not end in a
carriage return is read as a settled one, and edits that keep to whole lines keep it settled.

The other way round, a text is written as it was read exactly if it does not end in a carriage
return and all its line breaks are of one kind.
-/

namespace Transplant

namespace Text

theorem contains_iff {t phrase : Text} : t.contains phrase ↔ phrase <:+: t := by
  constructor
  · intro hcontains
    obtain ⟨⟨head, rest⟩, hcut⟩ := Option.isSome_iff_exists.1 hcontains
    exact ⟨head, rest, (eq_of_cut? hcut).symm⟩
  · rintro ⟨head, rest, rfl⟩
    rw [contains]
    induction head with
    | nil =>
        cases hwhole : phrase ++ rest with
        | nil =>
            obtain ⟨rfl, rfl⟩ := List.append_eq_nil_iff.1 hwhole
            rfl
        | cons c tail =>
            have hafter : after? phrase (c :: tail) = some rest := by
              rw [← hwhole, after?_append]
            simp [hwhole, cut?, hafter]
    | cons c head ih =>
        rw [List.cons_append, List.cons_append, cut?]
        split
        · rfl
        · rw [Option.isSome_map]
          exact ih

/-- A piece that is not the last one has a separator behind it. -/
theorem infix_of_mem_front {sep : Char} {front : List Text} {piece last : Text}
    (hpiece : piece ∈ front) : piece ++ [sep] <:+: join [sep] (front ++ [last]) := by
  induction front with
  | nil => cases hpiece
  | cons first front ih =>
      obtain ⟨second, rest, hrest⟩ := List.exists_cons_of_ne_nil (l := front ++ [last]) (by simp)
      rw [List.cons_append, hrest, join_cons_cons, ← hrest]
      obtain rfl | hpiece := List.mem_cons.1 hpiece
      · exact (List.prefix_append _ _).isInfix
      · exact (ih hpiece).trans (List.suffix_append _ _).isInfix

theorem ofText_eq_crlf_iff {t : Text} : LineBreak.ofText t = .crlf ↔ ['\r', '\n'] <:+: t := by
  rw [LineBreak.ofText, ← contains_iff]
  split <;> simp_all

/-- Only the end of the last piece is the end of the text. -/
theorem getLast?_eq_return_iff {t last : Text} {front : List Text}
    (hpieces : pieces '\n' t = front ++ [last]) :
    t.getLast? = some '\r' ↔ last.getLast? = some '\r' := by
  constructor
  · intro hreturn
    obtain ⟨before, rfl⟩ := List.getLast?_eq_some_iff.1 hreturn
    obtain ⟨upper, line, hbefore⟩ := exists_pieces_concat '\n' before
    have hend : pieces '\n' ['\r'] = [['\r']] := rfl
    rw [pieces_append hbefore hend] at hpieces
    obtain ⟨-, hlast⟩ := List.append_inj' hpieces rfl
    rw [← List.singleton_inj.1 hlast]
    exact List.getLast?_concat
  · intro hreturn
    obtain ⟨before, rfl⟩ := suffix_of_pieces hpieces
    rw [List.getLast?_append, hreturn, Option.some_or]

/-- Every line feed has a carriage return in front exactly if every piece but the last ends in
one. -/
theorem all_crlf_iff {t last : Text} {front : List Text}
    (hpieces : pieces '\n' t = front ++ [last]) :
    (∀ above below, t = above ++ '\n' :: below → above.getLast? = some '\r') ↔
      ∀ piece ∈ front, piece.getLast? = some '\r' := by
  constructor
  · intro hall piece hpiece
    obtain ⟨upper, lower, rfl⟩ := List.append_of_mem hpiece
    have hsplit : t = join ['\n'] (upper ++ [piece]) ++ '\n' :: join ['\n'] (lower ++ [last]) := by
      have hlines :
          upper ++ piece :: lower ++ [last] = (upper ++ [piece]) ++ (lower ++ [last]) := by
        simp
      rw [← join_pieces '\n' t, hpieces, hlines, join_append (by simp) (by simp), List.append_assoc]
      rfl
    have habove : pieces '\n' (join ['\n'] (upper ++ [piece])) = upper ++ [piece] := by
      apply pieces_join (by simp)
      intro line hline
      apply not_mem_of_mem_pieces (t := t)
      rw [hpieces]
      simp only [List.mem_append, List.mem_singleton] at hline
      obtain h | rfl := hline <;> simp [*]
    exact (getLast?_eq_return_iff habove).1 (hall _ _ hsplit)
  · rintro hall above below rfl
    obtain ⟨upper, line, habove⟩ := exists_pieces_concat '\n' above
    obtain ⟨lower, end', hbelow⟩ := exists_pieces_concat '\n' below
    rw [pieces_append_sep, habove, hbelow, ← List.append_assoc] at hpieces
    obtain ⟨rfl, -⟩ := List.append_inj' hpieces rfl
    exact (getLast?_eq_return_iff habove).2 (hall line (by simp))

/-- A text has a `crlf` break exactly if one of its pieces but the last ends in a carriage
return. -/
theorem crlf_iff {t last : Text} {front : List Text} (hpieces : pieces '\n' t = front ++ [last]) :
    LineBreak.ofText t = .crlf ↔ ∃ piece ∈ front, piece.getLast? = some '\r' := by
  rw [ofText_eq_crlf_iff]
  constructor
  · rintro ⟨above, below, ht⟩
    obtain ⟨upper, line, habove⟩ := exists_pieces_concat '\n' above
    obtain ⟨lower, end', hbelow⟩ := exists_pieces_concat '\n' below
    have hreturn : pieces '\n' ['\r'] = [['\r']] := rfl
    have hsplit : t = (above ++ ['\r']) ++ '\n' :: below := by simp [← ht]
    rw [hsplit, pieces_append_sep, pieces_append habove hreturn, hbelow, ← List.append_assoc]
      at hpieces
    obtain ⟨rfl, -⟩ := List.append_inj' hpieces rfl
    exact ⟨line ++ ['\r'], by simp, by simp⟩
  · rintro ⟨piece, hpiece, hlast⟩
    obtain ⟨line, rfl⟩ := List.getLast?_eq_some_iff.1 hlast
    have hinfix : line ++ ['\r'] ++ ['\n'] <:+: t := by
      rw [← join_pieces '\n' t, hpieces]
      exact infix_of_mem_front hpiece
    have hbreak : ['\r', '\n'] <:+: line ++ ['\r'] ++ ['\n'] := ⟨line, [], by simp⟩
    exact hbreak.trans hinfix

end Text

namespace LinedText

/-- No carriage return of a line is taken for a part of a line break when the text is written, and
the line break shows in what is written. -/
structure Settled (l : LinedText) : Prop where
  ne_nil : l.lines ≠ []
  breaks : ∀ line ∈ l.lines, '\n' ∉ line
  last : ∀ line ∈ l.lines.getLast?, line.getLast? ≠ some '\r'
  lf : l.lineBreak = .lf → ∀ line ∈ l.lines, line.getLast? ≠ some '\r'
  crlf : l.lineBreak = .crlf → 2 ≤ l.lines.length

/-- A settled text is read back as it was written. -/
theorem ofText_toText {l : LinedText} (hl : l.Settled) : ofText l.toText = l := by
  have hpieces := pieces_toText hl.ne_nil hl.breaks
  obtain ⟨lines, lineBreak⟩ := l
  obtain ⟨front, last, rfl⟩ : ∃ front last, lines = front ++ [last] := by
    obtain hnil | ⟨front, last, hlines⟩ := List.eq_nil_or_concat lines
    · exact absurd hnil hl.ne_nil
    · exact ⟨front, last, by rw [hlines, List.concat_eq_append]⟩
  have hlast : last.dropReturn = last := Text.dropReturn_of_ne (hl.last last (by simp))
  cases lineBreak with
  | lf =>
      have hclean : ∀ line ∈ front, line.getLast? ≠ some '\r' :=
        fun line hline => hl.lf rfl line (by simp [hline])
      have hbreak : LineBreak.ofText (mk (front ++ [last]) .lf).toText = .lf := by
        cases hkind : LineBreak.ofText (mk (front ++ [last]) .lf).toText with
        | lf => rfl
        | crlf =>
            obtain ⟨piece, hpiece, hreturn⟩ := (Text.crlf_iff hpieces).1 hkind
            exact absurd hreturn (hclean piece hpiece)
      have hfront : front.map Text.dropReturn = front := by
        rw [List.map_congr_left (g := id), List.map_id]
        exact fun line hline => Text.dropReturn_of_ne (hclean line hline)
      rw [ofText, splitLines, hpieces, hbreak, List.map_append, hfront, List.map_singleton, hlast]
  | crlf =>
      have htwo : 2 ≤ (front ++ [last]).length := hl.crlf rfl
      obtain ⟨first, rest, rfl⟩ : ∃ first rest, front = first :: rest := by
        apply List.exists_cons_of_ne_nil
        rintro rfl
        simp at htwo
      simp only [withReturns_concat] at hpieces
      have hbreak : LineBreak.ofText (mk (first :: rest ++ [last]) .crlf).toText = .crlf :=
        (Text.crlf_iff hpieces).2 ⟨first ++ ['\r'], by simp, by simp⟩
      have hfront : ((first :: rest).map (· ++ ['\r'])).map Text.dropReturn = first :: rest := by
        simp [Function.comp_def]
      rw [ofText, splitLines, hpieces, hbreak, List.map_append, hfront, List.map_singleton, hlast]

/-- A text that does not end in a carriage return is read as a settled one. -/
theorem settled_ofText {t : Text} (hreturn : t.getLast? ≠ some '\r') : (ofText t).Settled := by
  obtain ⟨front, last, hpieces⟩ := Text.exists_pieces_concat '\n' t
  have hlast : last.getLast? ≠ some '\r' := by
    obtain ⟨before, rfl⟩ := Text.suffix_of_pieces hpieces
    exact Text.getLast?_ne_of_append hreturn
  have hlines : splitLines t = front.map Text.dropReturn ++ [last] := by
    rw [splitLines, hpieces, List.map_append, List.map_singleton, Text.dropReturn_of_ne hlast]
  refine ⟨lines_ofText_ne_nil t, fun _ => not_mem_of_mem_splitLines, ?_, ?_, ?_⟩
  · intro line hline
    rw [ofText, hlines, List.getLast?_concat] at hline
    cases hline
    exact hlast
  · intro hbreak line hline
    have hclean : ∀ piece ∈ front, piece.getLast? ≠ some '\r' := by
      intro piece hpiece hpieceReturn
      have hcrlf := (Text.crlf_iff hpieces).2 ⟨piece, hpiece, hpieceReturn⟩
      cases hcrlf.symm.trans hbreak
    rw [ofText, hlines, List.mem_append, List.mem_map, List.mem_singleton] at hline
    obtain ⟨piece, hpiece, rfl⟩ | rfl := hline
    · rw [Text.dropReturn_of_ne (hclean piece hpiece)]
      exact hclean piece hpiece
    · exact hlast
  · intro hbreak
    obtain ⟨piece, hpiece, -⟩ := (Text.crlf_iff hpieces).1 hbreak
    have hlength := List.length_pos_of_mem hpiece
    rw [ofText, hlines, List.length_append, List.length_map, List.length_singleton]
    omega

/-- New lines, in front of a line or in its place, keep a text settled if they bring no carriage
return to their ends. -/
theorem Settled.splice {above below new : List Text} {lineBreak : LineBreak} (old : Option Text)
    (hl : Settled ⟨above ++ old.toList ++ below, lineBreak⟩) (hne : new ≠ [])
    (hbreak : ∀ line ∈ new, '\n' ∉ line)
    (hreturn : (∀ line ∈ old, line.getLast? ≠ some '\r') →
      ∀ line ∈ new, line.getLast? ≠ some '\r') :
    Settled ⟨above ++ new ++ below, lineBreak⟩ where
  ne_nil := by simp [hne]
  breaks := by
    intro line hline
    simp only [List.mem_append] at hline
    obtain (habove | hnew) | hbelow := hline
    · exact hl.breaks line (by simp [habove])
    · exact hbreak line hnew
    · exact hl.breaks line (by simp [hbelow])
  last := by
    intro line hline
    rw [List.getLast?_append] at hline
    cases hbelow : below.getLast? with
    | some other =>
        rw [hbelow, Option.some_or] at hline
        apply hl.last line
        rw [List.getLast?_append, hbelow, Option.some_or]
        exact hline
    | none =>
        -- Nothing follows, so a replaced line was the last one.
        have hold : ∀ other ∈ old, other.getLast? ≠ some '\r' := by
          intro other hother
          apply hl.last other
          rw [List.getLast?_append, hbelow, Option.none_or, List.getLast?_append, hother]
          rfl
        rw [hbelow, Option.none_or, List.getLast?_append] at hline
        cases hother : new.getLast? with
        | none => exact absurd (List.getLast?_eq_none_iff.1 hother) hne
        | some other =>
            rw [hother, Option.some_or] at hline
            cases hline
            exact hreturn hold _ (List.mem_of_getLast? hother)
  lf := by
    intro hkind line hline
    have hclean := hl.lf hkind
    simp only [List.mem_append] at hline
    obtain (habove | hnew) | hbelow := hline
    · exact hclean line (by simp [habove])
    · refine hreturn (fun other hother => hclean other ?_) line hnew
      simp [Option.mem_def.1 hother]
    · exact hclean line (by simp [hbelow])
  crlf := by
    intro hkind
    have htwo := hl.crlf hkind
    have hnew := List.length_pos_iff.2 hne
    have hold : old.toList.length ≤ 1 := by cases old <;> simp
    simp only [List.length_append] at htwo ⊢
    omega

/-! ## Texts that are written as they were read -/

/-- The pieces of a text that was read and written again. -/
theorem pieces_toText_ofText {t last : Text} {front : List Text}
    (hpieces : t.pieces '\n' = front ++ [last]) :
    (ofText t).toText.pieces '\n' =
      match LineBreak.ofText t with
      | .lf => front.map Text.dropReturn ++ [last.dropReturn]
      | .crlf => front.map (fun piece => piece.dropReturn ++ ['\r']) ++ [last.dropReturn] := by
  have hlines : splitLines t = front.map Text.dropReturn ++ [last.dropReturn] := by
    rw [splitLines, hpieces, List.map_append, List.map_singleton]
  rw [pieces_toText (lines_ofText_ne_nil t) fun _ => not_mem_of_mem_splitLines]
  simp only [ofText, hlines, withReturns_concat, List.map_map]
  rfl

theorem dropReturn_eq_self_iff {line : Text} :
    line.dropReturn = line ↔ line.getLast? ≠ some '\r' := by
  constructor
  · intro hsame hreturn
    obtain ⟨before, rfl⟩ := List.getLast?_eq_some_iff.1 hreturn
    simp at hsame
  · exact Text.dropReturn_of_ne

theorem dropReturn_append_eq_self_iff {line : Text} :
    line.dropReturn ++ ['\r'] = line ↔ line.getLast? = some '\r' := by
  constructor
  · intro hsame
    rw [← hsame]
    exact List.getLast?_concat
  · intro hreturn
    obtain ⟨before, rfl⟩ := List.getLast?_eq_some_iff.1 hreturn
    rw [Text.dropReturn_append_return]

theorem map_eq_self_iff {f : Text → Text} {lines : List Text} :
    lines.map f = lines ↔ ∀ line ∈ lines, f line = line := by
  conv_lhs => rw [← List.map_id lines, List.map_map]
  exact List.map_inj_left

/-- A text is written as it was read exactly if it does not end in a carriage return and its line
breaks are all of one kind.  What is written for any other text that does not end in a carriage
return is read again as the same lines with the same kind of line break. -/
theorem toText_ofText_iff (t : Text) :
    ((ofText t).toText = t ↔
      t.getLast? ≠ some '\r' ∧
        (¬ ['\r', '\n'] <:+: t ∨
          ∀ above below, t = above ++ '\n' :: below → above.getLast? = some '\r')) ∧
    (t.getLast? ≠ some '\r' → ofText (ofText t).toText = ofText t) := by
  refine ⟨?_, fun hreturn => ofText_toText (settled_ofText hreturn)⟩
  obtain ⟨front, last, hpieces⟩ := Text.exists_pieces_concat '\n' t
  have hsame : (ofText t).toText = t ↔ (ofText t).toText.pieces '\n' = t.pieces '\n' := by
    constructor
    · exact congrArg (Text.pieces '\n')
    · intro hsame
      have hjoined := congrArg (Text.join ['\n']) hsame
      rwa [Text.join_pieces, Text.join_pieces] at hjoined
  rw [hsame, pieces_toText_ofText hpieces, hpieces, Ne, Text.getLast?_eq_return_iff hpieces,
    Text.all_crlf_iff hpieces, ← Text.ofText_eq_crlf_iff]
  cases hbreak : LineBreak.ofText t with
  | lf =>
      -- No piece but the last one can lose a carriage return.
      have hfront : front.map Text.dropReturn = front := by
        apply map_eq_self_iff.2
        intro piece hpiece
        apply Text.dropReturn_of_ne
        intro hreturn
        rw [(Text.crlf_iff hpieces).2 ⟨piece, hpiece, hreturn⟩] at hbreak
        cases hbreak
      simp [hfront, dropReturn_eq_self_iff]
  | crlf =>
      simp [map_eq_self_iff, dropReturn_eq_self_iff, dropReturn_append_eq_self_iff, and_comm]

/-- A text with line breaks of both kinds is written with `crlf` breaks, and read again as that. -/
theorem toText_ofText_mixed :
    (ofText "a\r\nb\n".toList).toText ≠ "a\r\nb\n".toList ∧
      ofText (ofText "a\r\nb\n".toList).toText = ofText "a\r\nb\n".toList := by
  obtain ⟨hwritten, hread⟩ := toText_ofText_iff "a\r\nb\n".toList
  refine ⟨fun hsame => ?_, hread (by decide)⟩
  obtain ⟨-, hlf | hcrlf⟩ := hwritten.1 hsame
  · exact hlf ⟨['a'], "b\n".toList, rfl⟩
  · exact absurd (hcrlf "a\r\nb".toList [] rfl) (by decide)

end LinedText

end Transplant
