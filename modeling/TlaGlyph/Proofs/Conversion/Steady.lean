import TlaGlyph.Proofs.Conversion.Comments
import TlaGlyph.Proofs.Conversion.Crowding
import TlaGlyph.Proofs.Line.Settled

namespace TlaGlyph

namespace Frame

variable {frame : Frame}

theorem spread (hline : '\n' ∉ frame.line) : Row.Spread frame.line 0 frame.row := by
  cases frame with
  | prolog line | epilog line =>
      cases line with
      | nil => exact .nil rfl
      | cons c line => exact Row.spread_singleton_ofText [] rfl rfl rfl (Nat.succ_pos _)
  | code depth line => exact (Row.ofLine_scans depth line).spread hline

theorem readFrom (hline : '\n' ∉ frame.line) : frame.row.ReadFrom frame.line := by
  have hspread := spread hline
  refine ⟨frame.measured_row, fun token htoken => ?_, fun token htoken => ?_⟩
  · obtain ⟨_, _, hstands, -⟩ := hspread.standsOn token htoken
    exact hstands.finish_le
  · obtain ⟨_, text, hstands, htext | hsplits, hcomplete⟩ := hspread.standsOn token htoken
    · exact .inl (hstands.span_eq.trans htext)
    · obtain ⟨-, -, -, -, -, hwhole, -⟩ := id hsplits
      refine .inr ⟨?_, hstands.span_eq ▸ hcomplete hwhole⟩
      have hmem : token ∈ frame.row.bare := by rwa [frame.bare_row]
      obtain ⟨origin, -, rfl⟩ := List.mem_map.mp hmem
      rw [frame.bare_row]
      exact hsplits

end Frame

namespace Row

variable {direction : Direction} {above : Grid} {row written : Row} {line out : Text}

-- Below rows that have stayed no comments give way.
theorem Converted.placed (h : Converted above direction row written out)
    (hmeasured : row.Measured 0) (habove : ∀ other ∈ above, other.Steady) :
    Placed direction above true 0 0 written out := by
  cases h with
  | inPlace _ hplaced => exact hplaced
  | @realigned comments yielded rest tail code column hidden text hcomments hyielded hhidden hcrowded =>
      have hsame : (yielded ++ code :: rest).map Token.unwritten =
          (comments ++ code :: rest).map Token.unwritten := by
        rw [List.map_append, hyielded, List.map_append]
      exact absurd hcrowded (hhidden.not_crowded
        (forall_of_unwritten (fun _ => Iff.rfl) hyielded hcomments) (hmeasured.congr hsame)
        (guarded_of_steady habove _))

-- A row that there is nothing to do on stays, below rows that have stayed.
theorem Converted.eq_kept (h : Converted above direction row written out) (hread : row.ReadFrom line)
    (habove : ∀ other ∈ above, other.Steady) (hsettled : ∀ token ∈ row, token.Settled direction) :
    written = row.kept ∧ out = row.blanked line := by
  have hsame := h.unwritten_eq
  obtain ⟨hsteady, hout⟩ := (h.placed hread.measured habove).eq_blanked
    (hread.congr (bare_of_unwritten hsame)) (guarded_of_steady habove written)
    (forall_of_unwritten (fun _ => Token.settled_unwritten) hsame hsettled)
  have hwritten := hsteady.eq_kept hsame
  rw [hout, hwritten, blanked_kept]
  exact ⟨rfl, rfl⟩

-- A line that comes out as it went in, or with more behind it, comes from a row that there is nothing
-- to do on.
theorem Converted.settled (h : Converted above direction row written out) (hread : row.ReadFrom line)
    (habove : ∀ other ∈ above, other.Steady) (hbegins : line <+: out) :
    ∀ token ∈ row, token.Settled direction := by
  have hsame := h.unwritten_eq
  have hsettled := (h.placed hread.measured habove).settled (hread.congr (bare_of_unwritten hsame))
    (guarded_of_steady habove written) hbegins
  exact forall_of_unwritten (fun _ => Token.settled_unwritten) hsame.symm hsettled

end Row

namespace Grid

-- Every row of a source was read from its line.
theorem readFrom_parse (source : Text) :
    List.Forall₂ (fun row line => Row.ReadFrom line row) (parse source) (Text.lines source) := by
  have hbare := bare_parse source
  have hlines := line_frames source
  have hmem : ∀ frame ∈ frames source, '\n' ∉ frame.line := by
    intro frame hframe
    have hline : frame.line ∈ Text.lines source := hlines ▸ List.mem_map_of_mem hframe
    exact Text.newline_not_mem_of_mem_lines hline
  rw [← hlines]
  generalize frames source = frames at hbare hmem
  generalize parse source = rows at hbare
  induction rows generalizing frames with
  | nil =>
      obtain rfl := List.map_eq_nil_iff.mp hbare.symm
      exact .nil
  | cons row rows ih =>
      obtain ⟨frame, frames, rfl, hrow, hrest⟩ := List.map_eq_cons_iff.mp hbare.symm
      refine .cons ?_ (ih _ (fun other hother => hmem other (by simp [hother])) hrest.symm)
      refine (Frame.readFrom (hmem frame (by simp))).congr ?_
      rw [frame.bare_row]
      exact hrow.symm

theorem exists_readFrom {source : Text} {row : Row} (hrow : row ∈ parse source) :
    ∃ line, row.ReadFrom line := by
  obtain ⟨item, hitem, rfl⟩ := List.getElem_of_mem hrow
  obtain ⟨hlength, hread⟩ := List.forall₂_iff_get.mp (readFrom_parse source)
  exact ⟨_, hread item hitem (hlength ▸ hitem)⟩

theorem forall_steady_concat {above : Grid} (h : ∀ other ∈ above, other.Steady) (row : Row) :
    ∀ other ∈ above ++ [row.kept], other.Steady := by
  intro other hother
  rcases List.mem_append.mp hother with hother | hother
  · exact h other hother
  · rw [List.mem_singleton.mp hother]
    exact row.steady_kept

variable {direction : Direction} {above rows after : Grid} {texts lines : List Text}

-- Rows below rows that have stayed, all of them read from their lines, stay as well if there is nothing
-- to do on any of them.
theorem Runs.eq_kept (h : Runs direction above rows after lines)
    (hread : List.Forall₂ (fun row line => Row.ReadFrom line row) rows texts)
    (habove : ∀ other ∈ above, other.Steady)
    (hsettled : ∀ row ∈ rows, ∀ token ∈ row, token.Settled direction) :
    after = rows.map Row.kept ∧ lines = List.zipWith Row.blanked rows texts := by
  induction h generalizing texts with
  | nil =>
      cases hread
      exact ⟨rfl, rfl⟩
  | @cons above rest after row written line lines hrow hrest ih =>
      cases hread with
      | @cons _ text _ texts hread hothers =>
      obtain ⟨rfl, rfl⟩ := hrow.eq_kept hread habove (hsettled row (by simp))
      obtain ⟨rfl, rfl⟩ := ih hothers (forall_steady_concat habove row)
        fun other hother => hsettled other (by simp [hother])
      exact ⟨rfl, rfl⟩

-- A source that there is nothing to do on is converted, to ASCII too. No row fails, for none of its
-- comments is in the way.
theorem exists_convert {source : Text}
    (hsettled : ∀ row ∈ parse source, ∀ token ∈ row, token.Settled direction) :
    ∃ lines, (parse source).convert direction = .ok lines := by
  cases hconvert : (parse source).convert direction with
  | ok lines => exact ⟨lines, rfl⟩
  | error e =>
      exfalso
      have hread := readFrom_parse source
      obtain ⟨rfl, position, context, rfl⟩ :
          direction = .toAscii ∧ ∃ position context, e = .asciiRealign position context := by
        rcases convert_parse direction source with ⟨lines, hlines, -⟩ | ⟨hdirection, position, context, hfails⟩
        · rw [hlines] at hconvert
          cases hconvert
        · exact ⟨hdirection, position, context, Except.error.inj (hconvert.symm.trans hfails)⟩
      obtain ⟨front, row, rest, done, left, lines, hsource, hruns, -, hfails⟩ :=
        exists_of_putRows_error (result_putRows_of_convert hconvert)
      rw [hsource] at hread hsettled
      have hfront := List.forall₂_take front.length hread
      have hbehind := List.forall₂_drop front.length hread
      rw [List.take_left] at hfront
      rw [List.drop_left] at hbehind
      obtain ⟨rfl, -⟩ := hruns.eq_kept hfront nofun
        fun other hother => hsettled other (by simp [hother])
      have hsteady : ∀ other ∈ front.map Row.kept, other.Steady := by
        intro other hother
        obtain ⟨origin, -, rfl⟩ := List.mem_map.mp hother
        exact origin.steady_kept
      rcases hfails with ⟨line, isOpen, hcheck⟩ | hconvert | ⟨cause, hcause⟩
      · obtain ⟨_, _, -, hcause⟩ := Row.checkComments_error hcheck
        cases hcause
      · obtain ⟨comments, code, behind, head, text, goal, rfl, -, hsame, hcomments, hplaced, hcrowded⟩ :=
          Row.exists_crowded_of_convert hconvert
        obtain ⟨line, others, hrow, -⟩ := List.forall₂_cons_left_iff.mp hbehind
        have hunwritten : (head ++ code :: behind).map Token.unwritten =
            (comments ++ code :: behind).map Token.unwritten := by
          rw [List.map_append, hsame, List.map_append]
        exact hplaced.not_crowded (Row.forall_of_unwritten (fun _ => Iff.rfl) hsame hcomments)
          (hrow.measured.congr hunwritten) (Row.guarded_of_steady hsteady _) hcrowded
      · cases hcause

end Grid

namespace Text

-- If no token is a symbol of the encoding converted from, and no line comment is split, then nothing
-- moves. Every token is written where it stood, no comments give way, and each line keeps all but the
-- characters between its tokens. It is the same line if these are plain spaces with none at the end.
theorem convertLines_of_settled (direction : Direction) (source : Text)
    (hsymbols : ∀ row ∈ Grid.parse source, ∀ token ∈ row, token.kind = .builtin →
      Symbol.convert? direction token.text = none)
    (hwhole : ∀ row ∈ Grid.parse source, ∀ block, ¬row.SplitsOff block) :
    convertLines direction source =
        .ok (List.zipWith Row.blanked (Grid.parse source) (lines source)) ∧
      written direction source = (Grid.parse source).map Row.kept ∧
      (∀ row ∈ written direction source, ∀ comments code rest column,
        ¬row.Realigned comments code rest column) ∧
      ∀ entry ∈ (Grid.parse source).zip (lines source), entry.1.Tidy entry.2 →
        entry.1.blanked entry.2 = entry.2 := by
  have hread := Grid.readFrom_parse source
  have hsettled : ∀ row ∈ Grid.parse source, ∀ token ∈ row, token.Settled direction := by
    intro row hrow token htoken
    refine ⟨hsymbols row hrow token htoken, ?_⟩
    obtain ⟨line, hline⟩ := Grid.exists_readFrom hrow
    exact hline.width_eq htoken (hwhole row hrow)
  obtain ⟨out, hout⟩ := Grid.exists_convert hsettled
  obtain ⟨hwritten, rfl⟩ := (runs_of_convertLines hout).eq_kept hread nofun hsettled
  refine ⟨hout, hwritten, ?_, ?_⟩
  · rw [hwritten]
    rintro row hrow comments code rest column hrealigned
    obtain ⟨origin, -, rfl⟩ := List.mem_map.mp hrow
    obtain ⟨comment, hcomment⟩ := List.exists_mem_of_ne_nil comments hrealigned.ne_nil
    have hsteady := origin.steady_kept comment (by simp [hrealigned.eq_append, hcomment])
    rw [(hrealigned.unwritten comment hcomment).2] at hsteady
    cases hsteady
  · intro entry hentry htidy
    have hread : entry.1.ReadFrom entry.2 := List.forall₂_zip hread hentry
    exact (Row.tidy_iff hread.measured hread.finish_le).mp htidy

-- Comments that nest and go on below, an empty line, and a token with an anchor behind a comment.
theorem convertLines_of_settled_of_nested :
    (∀ row ∈ Grid.parse "x == (* a (* b\nc *) *)  y\n\n(* z *)  y".toList, ∀ token ∈ row,
        token.kind = .builtin → Symbol.convert? .toAscii token.text = none) ∧
      (∀ row ∈ Grid.parse "x == (* a (* b\nc *) *)  y\n\n(* z *)  y".toList,
        ∀ block, ¬row.SplitsOff block) ∧
      convertLines .toAscii "x == (* a (* b\nc *) *)  y\n\n(* z *)  y".toList =
        .ok ["x == (* a (* b".toList, "c *) *)  y".toList, [], "(* z *)  y".toList] := by
  have hsymbols : ∀ row ∈ Grid.parse "x == (* a (* b\nc *) *)  y\n\n(* z *)  y".toList,
      ∀ token ∈ row, token.kind = .builtin → Symbol.convert? .toAscii token.text = none := by
    decide +kernel
  have hline : ∀ row ∈ Grid.parse "x == (* a (* b\nc *) *)  y\n\n(* z *)  y".toList,
      ∀ token ∈ row.dropLast, token.kind ≠ .comment .line := by decide +kernel
  have hwhole : ∀ row ∈ Grid.parse "x == (* a (* b\nc *) *)  y\n\n(* z *)  y".toList,
      ∀ block, ¬row.SplitsOff block := fun row hrow => Row.not_splitsOff (hline row hrow)
  refine ⟨hsymbols, hwhole, ?_⟩
  rw [(convertLines_of_settled .toAscii _ hsymbols hwhole).1]
  decide +kernel

end Text

end TlaGlyph
