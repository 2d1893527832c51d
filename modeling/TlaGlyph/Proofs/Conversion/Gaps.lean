import TlaGlyph.Proofs.Conversion.Run
import TlaGlyph.Proofs.Line.Sound

namespace TlaGlyph

namespace Row

-- Two tokens of a row that follow one another and were both written in place.
theorem Converted.exists_spaced {direction : Direction} {above : Grid} {row written : Row}
    {line : Text} (h : Converted above direction row written line) (hfresh : row.Fresh) {item : Nat}
    {previous next : Token} {first second : Nat} (hprevious : written[item]? = some previous)
    (hnext : written[item + 1]? = some next) (hfirst : previous.outputColumn = some first)
    (hsecond : next.outputColumn = some second) :
    ∃ onlyComments count,
      next.Spaced above onlyComments previous.finish
        (first + (previous.emission direction).length) count ∧
      first + (previous.emission direction).length + count = second := by
  obtain ⟨front, placed, back, width, text, rfl, hfront, hback, hplaced⟩ := h.exists_placed hfresh
  obtain ⟨index, rfl, hindex⟩ := exists_of_outputColumn hfront hback hprevious hfirst
  obtain ⟨after, hafter, hsucc⟩ := exists_of_outputColumn hfront hback hnext hsecond
  obtain rfl : index + 1 = after := by omega
  obtain ⟨only, stop, width', count, hspaced, houtput, -, -, hbefore⟩ := hplaced.exists_spaced hsucc
  obtain ⟨rfl, column, hcolumn, rfl⟩ := hbefore index previous rfl hindex
  obtain rfl : column = first := by simpa [hcolumn] using hfirst
  exact ⟨only, count, hspaced, by simpa [houtput] using hsecond⟩

end Row

namespace Token

-- Where the anchor of the token was written, in the grid that it is part of.
def anchorColumn? (grid : Grid) (token : Token) : Option Nat :=
  (token.anchor.bind grid.get?).bind Token.outputColumn

-- A token that follows a gap loses it just when its anchor stands where the line has come to.
theorem Spaced.lt_iff {above : Grid} {onlyComments : Bool} {stop width count : Nat} {token : Token}
    (h : token.Spaced above onlyComments stop width count) (hgap : stop < token.column) :
    width < width + count ↔ token.goal? above ≠ some width := by
  cases h with
  | anchored hgoal =>
      rw [hgoal, ne_eq, Option.some.injEq]
      omega
  | kept hgoal hsource =>
      apply iff_of_true (by omega)
      intro hwidth
      exact Nat.lt_irrefl width (hgoal width hwidth).1

end Token

namespace Grid

theorem Anchored.getElem? {above rows : Grid} (h : Anchored above rows) {line : Nat} {row : Row}
    (hrow : rows[line]? = some row) : row.Anchored (above ++ rows.take line) := by
  induction rows generalizing above line with
  | nil => simp at hrow
  | cons head rest ih =>
      cases line with
      | zero =>
          obtain rfl : head = row := by simpa using hrow
          simpa using h.1
      | succ line =>
          rw [List.getElem?_cons_succ] at hrow
          simpa using ih h.2 hrow

variable {direction : Direction}

theorem Runs.bare_eq {above rows after : Grid} {lines : List Text}
    (h : Runs direction above rows after lines) : after.map Row.bare = rows.map Row.bare := by
  induction h with
  | nil => rfl
  | cons hrow _ ih =>
      rw [List.map_cons, List.map_cons, ih, Row.bare_of_unwritten hrow.unwritten_eq]

-- The rows above a row hold all its anchors, and these stand at its columns.
theorem goal?_eq_anchorColumn? {grid : Grid} {line : Nat} {row : Row} {token : Token}
    (hanchored : row.Anchored (grid.take line)) (htoken : token ∈ row) :
    token.goal? (grid.take line) = token.anchorColumn? grid := by
  unfold Token.goal? Token.anchorColumn?
  cases hanchor : token.anchor with
  | none => rfl
  | some anchor =>
      obtain ⟨named, other, hnamed, hother, -, hcolumn⟩ := hanchored token htoken anchor hanchor
      have hwhole : grid[anchor.line]? = some named := by
        rw [List.getElem?_take] at hnamed
        split at hnamed
        · exact hnamed
        · cases hnamed
      simp [get?, hnamed, hwhole, hother, hcolumn]

end Grid

namespace Row

theorem Anchored.written {above : Grid} {row written : Row} (h : row.Anchored above)
    (hsame : written.map Token.unwritten = row.map Token.unwritten) : written.Anchored above := by
  intro token htoken anchor hanchor
  obtain ⟨item, hitem⟩ := List.getElem?_of_mem htoken
  obtain ⟨twin, htwin, heq⟩ := unwritten_of_map hsame hitem
  have hanchor' : twin.anchor = some anchor := (congrArg Token.anchor heq).trans hanchor
  have hcolumn : twin.column = token.column := by simpa using congrArg Token.column heq
  rw [← hcolumn]
  exact h twin (List.mem_of_getElem? htwin) anchor hanchor'

end Row

namespace Text

-- Of two tokens with a gap between them that were both written in place, the second stands behind the
-- first with a gap as well, unless its anchor stands right behind the first. It never stands closer.
theorem lt_column_iff {direction : Direction} {source : Text} {lines : List Text}
    (h : convertLines direction source = .ok lines) {line item : Nat} {row : Row}
    {previous next : Token} {first second : Nat}
    (hrow : (written direction source)[line]? = some row)
    (hprevious : row[item]? = some previous) (hnext : row[item + 1]? = some next)
    (hfirst : previous.outputColumn = some first) (hsecond : next.outputColumn = some second)
    (hgap : previous.finish < next.column) :
    first + (previous.emission direction).length ≤ second ∧
      (first + (previous.emission direction).length < second ↔
        next.anchorColumn? (written direction source) ≠
          some (first + (previous.emission direction).length)) := by
  have hruns := runs_of_convertLines h
  have hlt : line < (Grid.parse source).length := by
    rw [← hruns.length_after]
    exact (List.getElem?_eq_some_iff.mp hrow).1
  have hsource := List.getElem?_eq_getElem hlt
  have hline := List.getElem?_eq_getElem (show line < lines.length by rwa [hruns.length_lines])
  have hconverted := hruns.converted hsource hrow hline
  have hfresh := Grid.fresh_parse source _ (List.mem_of_getElem? hsource)
  obtain ⟨only, count, hspaced, rfl⟩ :=
    hconverted.exists_spaced hfresh hprevious hnext hfirst hsecond
  have hanchored : row.Anchored ((written direction source).take line) := by
    have hparsed := (Grid.anchored_parse source).getElem? hsource
    refine (hparsed.congr ?_).written hconverted.unwritten_eq
    rw [List.nil_append, List.map_take, List.map_take, hruns.bare_eq]
  refine ⟨Nat.le_add_right _ _, ?_⟩
  rw [hspaced.lt_iff hgap, List.nil_append,
    Grid.goal?_eq_anchorColumn? hanchored (List.mem_of_getElem? hnext)]

-- The symbol in front of the upper name shrinks, and the lower one goes where the line has come to.
theorem not_forall_lt_column :
    ¬ ∀ (direction : Direction) (source : Text) (lines : List Text) (line item : Nat) (row : Row)
      (previous next : Token) (first second : Nat),
      convertLines direction source = .ok lines →
      (written direction source)[line]? = some row →
      row[item]? = some previous → row[item + 1]? = some next →
      previous.outputColumn = some first → next.outputColumn = some second →
      previous.finish < next.column →
      first + (previous.emission direction).length < second := by
  intro h
  have hlines : convertLines .toUnicode "\\A x\ny1 x".toList =
      .ok ["∀ x".toList, "y1x".toList] := by decide +kernel
  have hrow : (written .toUnicode "\\A x\ny1 x".toList)[1]? = some [
      ⟨.ident, "y1".toList, 0, 2, some 0, some ⟨0, 0⟩⟩,
      ⟨.ident, "x".toList, 3, 1, some 2, some ⟨0, 1⟩⟩] := by decide +kernel
  exact absurd (h _ _ _ 1 0 _ _ _ 0 2 hlines hrow rfl rfl rfl rfl (by decide)) (by decide)

theorem lt_column_iff_of_quantifier :
    convertLines .toUnicode "\\A x\ny1 x".toList = .ok ["∀ x".toList, "y1x".toList] ∧
      ∃ row previous next, (written .toUnicode "\\A x\ny1 x".toList)[1]? = some row ∧
        row[0]? = some previous ∧ row[1]? = some next ∧ previous.outputColumn = some 0 ∧
        next.outputColumn = some 2 ∧ previous.finish < next.column ∧
        0 + (previous.emission .toUnicode).length ≤ 2 ∧
        (0 + (previous.emission .toUnicode).length < 2 ↔
          next.anchorColumn? (written .toUnicode "\\A x\ny1 x".toList) ≠
            some (0 + (previous.emission .toUnicode).length)) := by
  have hlines : convertLines .toUnicode "\\A x\ny1 x".toList =
      .ok ["∀ x".toList, "y1x".toList] := by decide +kernel
  have hrow : (written .toUnicode "\\A x\ny1 x".toList)[1]? = some [
      ⟨.ident, "y1".toList, 0, 2, some 0, some ⟨0, 0⟩⟩,
      ⟨.ident, "x".toList, 3, 1, some 2, some ⟨0, 1⟩⟩] := by decide +kernel
  have hgap : Token.finish ⟨.ident, "y1".toList, 0, 2, some 0, some ⟨0, 0⟩⟩ < 3 := by decide
  exact ⟨hlines, _, _, _, hrow, rfl, rfl, rfl, rfl, hgap,
    @lt_column_iff .toUnicode _ _ hlines 1 0 _ _ _ 0 2 hrow rfl rfl rfl rfl hgap⟩

end Text

end TlaGlyph
