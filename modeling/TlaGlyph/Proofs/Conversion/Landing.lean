import TlaGlyph.Proofs.Conversion.Run
import TlaGlyph.Proofs.Line.Landing

namespace TlaGlyph

namespace Grid

variable {σ : Type}

-- A token that is written in place, that is one that has not given way and does not wait for those
-- that have, lands where the line in front of it and its anchor say. On the way to Unicode the first
-- token of a row that is no comment always stands under its anchor. `done` holds the rows as they are
-- left, and those above `line` have been left when it is written.
theorem putAll_lands (sink : Sink σ) (direction : Direction) (state : σ) (grid : Grid)
    (h : (grid.putAll sink direction state).result = .ok ()) {done : Grid}
    (hdone : (grid.putAll sink direction state).grid = done) {line : Nat} {front rest : Row}
    {token placed : Token} (hrow : grid[line]? = some (front ++ token :: rest))
    (hplaced : done.get? ⟨line, front.length⟩ = some placed) :
    (∀ column, placed.outputColumn = some column →
      (Draft.after direction (done.take line) front).postpones token rest = false →
      token.Lands direction (token.goal? (done.take line))
        (∀ comment ∈ front, comment.isComment = true) (Token.stopOf front.getLast?)
        (Draft.after direction (done.take line) front).line.length column) ∧
    (direction = .toUnicode → (∀ comment ∈ front, comment.isComment = true) →
      token.isComment = false → ∀ target, token.goal? (done.take line) = some target →
        placed.outputColumn = some target) := by
  subst hdone
  obtain ⟨written, hwritten, hitem⟩ := Option.bind_eq_some_iff.mp hplaced
  obtain ⟨text, hconvert⟩ := convert_of_putRows (result_putRows h) hrow hwritten
  rw [List.nil_append] at hconvert
  refine ⟨fun column hcolumn hgoes => Row.lands_of_convert hconvert hitem hcolumn hgoes, ?_⟩
  rintro rfl hfront hcode target htarget
  obtain ⟨column, hcolumn⟩ := Row.exists_outputColumn_of_convert hconvert hitem hfront hcode
  have hlands := Row.lands_of_convert hconvert hitem hcolumn
    (by simp [Draft.postpones, Row.endsLine_code hcode])
  rw [hcolumn, hlands.eq_target hfront hcode htarget]

-- A token that goes under its anchor behind the mark of a comment from above.
theorem putAll_lands_of_closing :
    ((parse "\\A \\A /\\ (* x\nyy *) /\\ z".toList).putAll Memory.sink .toUnicode {}).result = .ok () ∧
      ∃ done front token rest placed,
        ((parse "\\A \\A /\\ (* x\nyy *) /\\ z".toList).putAll Memory.sink .toUnicode {}).grid = done ∧
        (parse "\\A \\A /\\ (* x\nyy *) /\\ z".toList)[1]? = some (front ++ token :: rest) ∧
        done.get? ⟨1, front.length⟩ = some placed ∧
        (Draft.after .toUnicode (done.take 1) front).line = "yy *)".toList ∧
        token.goal? (done.take 1) = some 4 ∧ placed.outputColumn = some 4 ∧
        token.Lands .toUnicode (some 4) (∀ comment ∈ front, comment.isComment = true)
          (Token.stopOf front.getLast?) 5 4 := by
  have h : ((parse "\\A \\A /\\ (* x\nyy *) /\\ z".toList).putAll Memory.sink .toUnicode {}).result =
      .ok () := by decide +kernel
  have hrow : (parse "\\A \\A /\\ (* x\nyy *) /\\ z".toList)[1]? =
      some ([⟨.comment .closing, "yy ".toList, 0, 5, none, none⟩] ++
        ⟨.builtin, "/\\".toList, 6, 2, none, some ⟨0, 2⟩⟩ ::
          [⟨.ident, "z".toList, 9, 1, none, some ⟨0, 3⟩⟩]) := by decide +kernel
  have hplaced : ((parse "\\A \\A /\\ (* x\nyy *) /\\ z".toList).putAll Memory.sink .toUnicode
      {}).grid.get? ⟨1, 1⟩ = some ⟨.builtin, "/\\".toList, 6, 2, some 4, some ⟨0, 2⟩⟩ := by
    decide +kernel
  have hline : (Draft.after .toUnicode (((parse "\\A \\A /\\ (* x\nyy *) /\\ z".toList).putAll
      Memory.sink .toUnicode {}).grid.take 1)
      [⟨.comment .closing, "yy ".toList, 0, 5, none, none⟩]).line = "yy *)".toList := by
    decide +kernel
  have hgoal : Token.goal? (((parse "\\A \\A /\\ (* x\nyy *) /\\ z".toList).putAll Memory.sink
      .toUnicode {}).grid.take 1) ⟨.builtin, "/\\".toList, 6, 2, none, some ⟨0, 2⟩⟩ = some 4 := by
    decide +kernel
  obtain ⟨hlands, -⟩ := putAll_lands Memory.sink .toUnicode {} _ h rfl hrow hplaced
  have hlands := hlands 4 rfl (by decide +kernel)
  rw [hgoal, hline] at hlands
  exact ⟨h, _, _, _, _, _, rfl, hrow, hplaced, hline, hgoal, rfl, hlands⟩

end Grid

end TlaGlyph
