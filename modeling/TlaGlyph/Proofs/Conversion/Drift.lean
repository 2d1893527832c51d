import TlaGlyph.Proofs.Conversion.Comments
import TlaGlyph.Proofs.Grid.Alternation
import TlaGlyph.Proofs.Line.Drift

namespace TlaGlyph

variable {direction : Direction}

namespace Row

-- A row none of whose comments have given way was written in place.
theorem Converted.placed_of_not_realigned {above : Grid} {row written : Row} {line : Text}
    (h : Converted above direction row written line)
    (hnot : direction = .toAscii ∨
      ¬∃ comments code rest column, Realigned written comments code rest column) :
    Placed direction above true 0 0 written line := by
  cases h with
  | inPlace hsame hplaced => exact hplaced
  | @realigned comments yielded rest tail token column hidden text hcomments hyielded hhidden
      hcrowded =>
      rcases hnot with hdirection | hnot
      · cases hdirection
      · have hne : comments ≠ [] := by
          rintro rfl
          cases List.map_eq_nil_iff.mp hyielded
          cases hhidden
          exact Nat.not_lt_zero _ hcrowded.lt_width
        refine absurd ⟨comments.map Token.unwritten, token.writtenAt column, tail, column, rfl, ?_,
          ?_, hcrowded.code, rfl⟩ hnot
        · rwa [ne_eq, List.map_eq_nil_iff]
        · intro comment hcomment
          obtain ⟨origin, horigin, rfl⟩ := List.mem_map.mp hcomment
          exact ⟨hcomments origin horigin, rfl⟩

theorem exists_getLast?_of_unwritten {row written : Row} {last : Token}
    (hsame : written.map Token.unwritten = row.map Token.unwritten)
    (hlast : row.getLast? = some last) :
    ∃ twin, written.getLast? = some twin ∧ twin.finish = last.finish := by
  have hmap := congrArg List.getLast? hsame
  rw [List.getLast?_map, List.getLast?_map, hlast, Option.map_some] at hmap
  obtain ⟨twin, htwin, heq⟩ := Option.map_eq_some_iff.mp hmap
  have hfinish : twin.unwritten.finish = last.unwritten.finish := congrArg Token.finish heq
  exact ⟨twin, htwin, hfinish⟩

end Row

namespace Grid

variable {σ : Type} {sink : Sink σ}

-- Closing the sink adds no error but its own.
theorem putAll_error {state : σ} {grid : Grid} {e : ConversionError}
    (h : (putAll sink direction state grid).result = .error e) :
    (putRows sink direction [] false state grid).result = .error e ∨ ∃ cause, e = .io cause := by
  simp only [putAll] at h
  cases hresult : (putRows sink direction [] false state grid).result with
  | error failure =>
      rw [hresult] at h
      exact .inl h
  | ok =>
      cases hclosed : (sink.close (putRows sink direction [] false state grid).sink).1 with
      | error cause =>
          rw [hresult, hclosed] at h
          exact .inr ⟨cause, (Except.error.inj h).symm⟩
      | ok =>
          rw [hresult, hclosed] at h
          cases h

theorem Runs.directed {above rows done : Grid} {lines : List Text}
    (h : Runs direction above rows done lines) (hfresh : ∀ row ∈ rows, row.Fresh) :
    done.Directed direction := by
  induction h with
  | nil => nofun
  | cons hconverted _ ih =>
      intro row hrow
      rcases List.mem_cons.mp hrow with rfl | hrow
      · exact hconverted.directed (hfresh _ List.mem_cons_self)
      · exact ih (fun other hother => hfresh other (List.mem_cons_of_mem _ hother)) row hrow

theorem ne_drift_of_putRows {state : σ} {grid : Grid} {e : ConversionError} {position : Position}
    {context : String} {column outputColumn : Nat} {way : Direction}
    (hrendered : ∀ row ∈ grid, row.Rendered) (hfresh : ∀ row ∈ grid, row.Fresh)
    (h : (putRows sink direction [] false state grid).result = .error e) :
    e ≠ .columnDrift position context column outputColumn way := by
  obtain ⟨front, row, rest, done, left, lines, rfl, hruns, -, hcause⟩ := exists_of_putRows_error h
  rcases hcause with ⟨line, isOpen, hcheck⟩ | hconvert | ⟨cause, rfl⟩
  · obtain ⟨index, reason, -, rfl⟩ := Row.checkComments_error hcheck
    nofun
  · have hdirected := hruns.directed fun other hother => hfresh other (List.mem_append_left _ hother)
    exact Row.ne_drift_of_convert hdirected (hrendered row (by simp)) hconvert
  · nofun

-- On the way to Unicode a line ends no farther to the right than its row, unless its comments have given
-- way and follow at its end. On the way to ASCII it ends no farther to the left.
theorem putAll_never_drifts (sink : Sink σ) (direction : Direction) (state : σ) (grid : Grid)
    (hrendered : ∀ row ∈ grid, row.Rendered) (hfresh : ∀ row ∈ grid, row.Fresh) :
    (∀ position context column outputColumn way, (putAll sink direction state grid).result ≠
      .error (.columnDrift position context column outputColumn way)) ∧
    ((putAll sink direction state grid).result = .ok () →
      ∃ lines, (putAll sink direction state grid).sink = (sink.close (sink.feed lines state)).2 ∧
        lines.length = grid.length ∧
        ∀ (item : Nat) (row written : Row) (line : Text) (last : Token), grid[item]? = some row →
          (putAll sink direction state grid).grid[item]? = some written →
          lines[item]? = some line → row.getLast? = some last →
          (direction = .toUnicode →
            (¬∃ comments code rest column, Row.Realigned written comments code rest column) →
            line.length ≤ last.finish) ∧
          (direction = .toAscii → last.finish ≤ line.length)) := by
  constructor
  · intro position context column outputColumn way hdrift
    rcases putAll_error hdrift with hrows | ⟨cause, hcause⟩
    · exact ne_drift_of_putRows hrendered hfresh hrows rfl
    · cases hcause
  · intro h
    obtain ⟨lines, hruns, hsink⟩ := runs_of_putAll h
    refine ⟨lines, hsink, hruns.length_lines, ?_⟩
    intro item row written line last hrow hwritten hline hlast
    have hconverted := hruns.converted hrow hwritten hline
    obtain ⟨twin, htwin, hfinish⟩ := Row.exists_getLast?_of_unwritten hconverted.unwritten_eq hlast
    have hspelled := (hrendered row (List.mem_of_getElem? hrow)).congr hconverted.unwritten_eq
    have hside (hnot : direction = .toAscii ∨
        ¬∃ comments code rest column, Row.Realigned written comments code rest column) :
        direction.allows last.finish line.length = true := by
      have hallows := (hconverted.placed_of_not_realigned hnot).allows_last hspelled htwin
      rwa [hfinish, Nat.zero_add] at hallows
    refine ⟨?_, ?_⟩
    · rintro rfl hnot
      exact Direction.allows_toUnicode.mp (hside (.inr hnot))
    · rintro rfl
      exact Direction.allows_toAscii.mp (hside (.inl rfl))

-- Tokens that overlap, and an anchor at another column.
def tangled : Grid := [
  [Token.ofText .builtin "\\A".toList 0, Token.ofText .ident "x".toList 3],
  [Token.ofText .builtin "\\notin".toList 0,
    { Token.ofText .ident "y".toList 3 with anchor := some ⟨0, 1⟩ },
    { Token.ofText .builtin "=>".toList 7 with anchor := some ⟨0, 0⟩ }]]

theorem putAll_never_drifts_of_tangled :
    (∀ row ∈ tangled, row.Rendered) ∧ (∀ row ∈ tangled, row.Fresh) ∧
      (tangled.putAll Memory.sink .toUnicode {}).result = .ok () ∧
      ∃ lines line, (tangled.putAll Memory.sink .toUnicode {}).sink =
          (Memory.sink.close (Memory.sink.feed lines {})).2 ∧ lines.length = 2 ∧
        lines[1]? = some line ∧ line.length ≤ 9 := by
  have hrendered : ∀ row ∈ tangled, row.Rendered := by
    unfold Row.Rendered
    decide
  have hfresh : ∀ row ∈ tangled, row.Fresh := by
    unfold Row.Fresh
    decide
  have h : (tangled.putAll Memory.sink .toUnicode {}).result = .ok () := by decide +kernel
  obtain ⟨-, hbounds⟩ := putAll_never_drifts Memory.sink .toUnicode {} tangled hrendered hfresh
  obtain ⟨lines, hsink, hlength, hlines⟩ := hbounds h
  have hline := List.getElem?_eq_getElem (show 1 < lines.length by rw [hlength]; decide)
  have hwritten : (tangled.putAll Memory.sink .toUnicode {}).grid[1]? = some [
      ⟨.builtin, "\\notin".toList, 0, 6, some 0, none⟩,
      ⟨.ident, "y".toList, 3, 1, some 2, some ⟨0, 1⟩⟩,
      ⟨.builtin, "=>".toList, 7, 2, some 6, some ⟨0, 0⟩⟩] := by decide +kernel
  refine ⟨hrendered, hfresh, h, lines, _, hsink, hlength, hline, ?_⟩
  refine (hlines 1 _ _ _ _ rfl hwritten hline rfl).1 rfl ?_
  -- no comment is in front of the first token
  rintro ⟨comments, code, rest, column, hrealigned⟩
  cases comments with
  | nil => exact hrealigned.ne_nil rfl
  | cons comment comments =>
      obtain ⟨rfl, -⟩ := List.cons.inj hrealigned.eq_append
      cases (hrealigned.unwritten _ List.mem_cons_self).1

end Grid

end TlaGlyph
