import Mathlib.Data.List.Basic
import TlaGlyph.Proofs.Conversion.Run

namespace TlaGlyph

namespace Row

-- The two shapes of a line. On a line that was realigned the comments in front of the first other
-- token stand behind all the others, but for a token that has to end the line.
inductive Shaped : Direction → Row → Row → Text → Prop
  | inPlace {direction : Direction} {row written : Row} {line : Text}
      (hline : Laid direction 0 written line) : Shaped direction row written line
  | realigned {comments rest placed : Row} {code : Token} {last? : Option Token} {text : Text}
      (hne : comments ≠ []) (hcomments : ∀ comment ∈ comments, comment.isComment = true)
      (hcode : code.isComment = false) (hlast : last? = rest.getLast?.filter Token.endsLine)
      (hplaced : (placed ++ last?.toList).map Token.unwritten =
        (code :: rest).map Token.unwritten)
      (htext : Laid .toUnicode comments.front.length placed text) :
      Shaped .toUnicode (comments ++ code :: rest)
        (comments.map Token.unwritten ++ placed ++ last?.toList)
        (comments.front ++ text ++ comments.flatMap (Text.deferred ·.text) ++
          last?.elim [] (' ' :: Token.emission .toUnicode ·))

theorem Converted.shaped {above : Grid} {direction : Direction} {row written : Row} {line : Text}
    (h : Converted above direction row written line) : Shaped direction row written line := by
  cases h with
  | inPlace _ hplaced => exact .inPlace hplaced.laid
  | @realigned comments yielded rest tail token column hidden text hcomments hyielded hhidden hcrowded
      hfront _ hsame hending hplaced =>
      have hne : comments ≠ [] := by
        rintro rfl
        cases List.map_eq_nil_iff.mp hyielded
        cases hhidden
        exact Nat.not_lt_zero _ hcrowded.lt_width
      have hcolumn : comments.front.length + (column - comments.front.length) = column := by omega
      have hlaid : Laid .toUnicode comments.front.length (token.writtenAt column :: tail.body)
          (Text.spaces (column - comments.front.length) ++ token.emission .toUnicode ++ text) := by
        refine .cons ?_ ?_
        · rw [Token.writtenAt_outputColumn, hcolumn]
        · rw [hcolumn]
          exact hplaced.laid
      have hall : ((token.writtenAt column :: tail.body) ++ rest.ending.toList).map Token.unwritten =
          (token :: rest).map Token.unwritten := by
        rw [← hending, List.cons_append, body_append_ending, List.map_cons, List.map_cons, hsame]
        rfl
      have hshaped := Shaped.realigned hne hcomments hcrowded.code rfl hall hlaid
      have htail : token.writtenAt column :: tail.body ++ rest.ending.toList =
          token.writtenAt column :: tail := by
        rw [← hending, List.cons_append, body_append_ending]
      simpa [List.append_assoc, ← htail, ending] using hshaped

end Row

namespace Grid

-- No token is lost, written twice or moved past another, and every recorded column is true. The grid
-- may be any, and so may the sink as long as it takes all lines.
theorem putAll_shaped {σ : Type} (sink : Sink σ) (direction : Direction) (state : σ) (grid : Grid)
    (h : (grid.putAll sink direction state).result = .ok ()) :
    ∃ lines, (grid.putAll sink direction state).sink = (sink.close (sink.feed lines state)).2 ∧
      lines.length = grid.length ∧
      (grid.putAll sink direction state).grid.length = grid.length ∧
      ∀ (item : Nat) (row written : Row) (line : Text), grid[item]? = some row →
        (grid.putAll sink direction state).grid[item]? = some written →
        lines[item]? = some line →
        written.map Token.unwritten = row.map Token.unwritten ∧
          row.Shaped direction written line := by
  obtain ⟨lines, hruns, hsink⟩ := runs_of_putAll h
  refine ⟨lines, hsink, hruns.length_lines, hruns.length_after, ?_⟩
  intro item row written line hrow hwritten hline
  have hconverted := hruns.converted hrow hwritten hline
  exact ⟨hconverted.unwritten_eq, hconverted.shaped⟩

-- The comment in front of the second line gives way, and the one behind it ends the line.
def crowded : Grid := parse "\\A \\A \\A /\\ x\n(* c *)  /\\ y \\* end".toList

theorem shaped_of_line_comment :
    (putAll Memory.sink .toUnicode {} crowded).result = .ok () ∧
      (putAll Memory.sink .toUnicode {} crowded).sink.lines =
        ["∀ ∀ ∀ ∧ x".toList, "      ∧ y (* c *) \\* end".toList] ∧
      ∃ row written, crowded[1]? = some row ∧
        (putAll Memory.sink .toUnicode {} crowded).grid[1]? = some written ∧
        written.map Token.outputColumn = [none, some 6, some 8, none] ∧
        written.map Token.unwritten = row.map Token.unwritten ∧
        row.Shaped .toUnicode written "      ∧ y (* c *) \\* end".toList := by
  have hok : (putAll Memory.sink .toUnicode {} crowded).result = .ok () := by decide +kernel
  have hclosed : (putAll Memory.sink .toUnicode {} crowded).sink.lines =
      ["∀ ∀ ∀ ∧ x".toList, "      ∧ y (* c *) \\* end".toList] := by decide +kernel
  obtain ⟨lines, hsink, -, -, hshaped⟩ := putAll_shaped Memory.sink .toUnicode {} crowded hok
  have hlines : lines = ["∀ ∀ ∀ ∧ x".toList, "      ∧ y (* c *) \\* end".toList] := by
    rw [← hclosed, hsink, Sink.feed_memory lines {} rfl]
    rfl
  have hrow := List.getElem?_eq_getElem (show 1 < crowded.length by decide +kernel)
  have hwritten := List.getElem?_eq_getElem
    (show 1 < (putAll Memory.sink .toUnicode {} crowded).grid.length by decide +kernel)
  have hline : lines[1]? = some "      ∧ y (* c *) \\* end".toList := by rw [hlines]; rfl
  obtain ⟨hunwritten, hshape⟩ := hshaped 1 _ _ _ hrow hwritten hline
  exact ⟨hok, hclosed, _, _, hrow, hwritten, by decide +kernel, hunwritten, hshape⟩

end Grid

end TlaGlyph
