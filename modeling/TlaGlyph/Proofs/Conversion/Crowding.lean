import TlaGlyph.Proofs.Conversion.Drift
import TlaGlyph.Proofs.Conversion.Gaps
import TlaGlyph.Proofs.Conversion.Totality
import TlaGlyph.Proofs.Line.Crowding

namespace TlaGlyph

namespace Grid

-- The row that a conversion of the source to ASCII ends at, below the rows that are done. The comments
-- in front of `code` make up `text`, which reaches past the column under its anchor.
structure Obstructed (source : Text) (done : Grid) (comments rest : Row) (code : Token) (text : Text)
    (goal : Nat) : Prop where
  getElem?_written : (Text.written .toAscii source)[done.length]? = some (comments ++ code :: rest)
  take_written : (Text.written .toAscii source).take done.length = done
  exists_row : ∃ row ∈ parse source,
    (comments ++ code :: rest).map Token.unwritten = row.map Token.unwritten
  anchored : Row.Anchored done (comments ++ code :: rest)
  column_le : ∀ row ∈ done, ∀ token ∈ row, ∀ column, token.outputColumn = some column →
    token.column ≤ column
  isComment : ∀ comment ∈ comments, comment.isComment = true
  placed : Placed .toAscii done true 0 0 comments text
  crowded : code.Crowded done true text.length goal

theorem exists_obstructed_of_convert {source : Text} {e : ConversionError}
    (h : (parse source).convert .toAscii = .error e) :
    ∃ done comments rest code text goal, Obstructed source done comments rest code text goal := by
  obtain ⟨position, context, rfl⟩ : ∃ position context, e = .asciiRealign position context := by
    rcases convert_parse .toAscii source with ⟨lines, hlines, -⟩ | ⟨-, position, context, hfails⟩
    · rw [hlines] at h
      cases h
    · exact ⟨position, context, Except.error.inj (h.symm.trans hfails)⟩
  obtain ⟨front, row, rest, done, left, lines, hsource, hruns, hgrid, hfails⟩ :=
    exists_of_putRows_error (result_putRows_of_convert h)
  rw [List.nil_append] at hfails
  rcases hfails with ⟨line, isOpen, hcheck⟩ | hconvert | ⟨cause, hcause⟩
  · obtain ⟨index, reason, -, hcause⟩ := Row.checkComments_error hcheck
    cases hcause
  · obtain ⟨comments, code, behind, head, text, goal, rfl, rfl, hsame, hcomments, hplaced, hcrowded⟩ :=
      Row.exists_crowded_of_convert hconvert
    have hgrid : Text.written .toAscii source = done ++ (head ++ code :: behind) :: rest := hgrid
    have hunwritten : (head ++ code :: behind).map Token.unwritten =
        (comments ++ code :: behind).map Token.unwritten := by
      rw [List.map_append, hsame, ← List.map_append]
    have hdirected : Directed .toAscii done :=
      hruns.directed fun other hother => fresh_parse source other (by simp [hsource, hother])
    refine ⟨done, head, behind, code, text, goal, by simp [hgrid], by simp [hgrid],
      ⟨_, by simp [hsource], hunwritten⟩, ?_,
      fun row hrow token htoken column hcolumn =>
        Direction.allows_toAscii.mp (hdirected row hrow token htoken column hcolumn),
      Row.forall_of_unwritten (fun _ => Iff.rfl) hsame hcomments, hplaced, hcrowded⟩
    have hrow : (parse source)[front.length]? = some (comments ++ code :: behind) := by
      simp [hsource]
    have hparsed := (anchored_parse source).getElem? hrow
    refine (hparsed.congr ?_).written hunwritten
    rw [hsource, List.nil_append, List.take_left, hruns.bare_eq]
  · cases hcause

theorem Obstructed.measured {source text : Text} {done : Grid} {comments rest : Row} {code : Token}
    {goal : Nat} (h : Obstructed source done comments rest code text goal) :
    (comments ++ code :: rest).Measured 0 := by
  obtain ⟨row, hrow, hsame⟩ := h.exists_row
  exact (measured_parse source row hrow).congr hsame

theorem Obstructed.column_le_goal {source text : Text} {done : Grid} {comments rest : Row}
    {code : Token} {goal : Nat} (h : Obstructed source done comments rest code text goal) :
    code.column ≤ goal := by
  have hdirected : Directed .toAscii done := fun row hrow token htoken column hcolumn =>
    Direction.allows_toAscii.mpr (h.column_le row hrow token htoken column hcolumn)
  exact Direction.allows_toAscii.mp (Token.allows_of_goal? hdirected h.crowded.goal)

end Grid

namespace Text

-- The rows above a row that was written, as far as its tokens are lined up with them.
theorem exists_converted {direction : Direction} {source : Text} {lines : List Text}
    (h : convertLines direction source = .ok lines) {line : Nat} {row : Row}
    (hrow : (written direction source)[line]? = some row) :
    ∃ origin text, origin ∈ Grid.parse source ∧
      origin.Converted ((written direction source).take line) direction row text ∧
      row.Anchored ((written direction source).take line) := by
  have hruns := runs_of_convertLines h
  have hlt : line < (Grid.parse source).length := by
    rw [← hruns.length_after]
    exact (List.getElem?_eq_some_iff.mp hrow).1
  have hsource := List.getElem?_eq_getElem hlt
  have hline := List.getElem?_eq_getElem (show line < lines.length by rwa [hruns.length_lines])
  have hconverted := hruns.converted hsource hrow hline
  refine ⟨_, _, List.mem_of_getElem? hsource, hconverted, ?_⟩
  have hparsed := (Grid.anchored_parse source).getElem? hsource
  refine (hparsed.congr ?_).written hconverted.unwritten_eq
  rw [List.nil_append, List.map_take, List.map_take, hruns.bare_eq]

-- A source is converted to ASCII just when on no row the comments in front of the first other token
-- end behind the column under its anchor.
theorem convertLines_toAscii_iff (source : Text) :
    (∃ lines, convertLines .toAscii source = .ok lines) ↔
      ∀ (line : Nat) (front rest : Row) (comment code : Token) (first goal : Nat),
        (written .toAscii source)[line]? = some (front ++ comment :: code :: rest) →
        (∀ other ∈ front ++ [comment], other.isComment = true) → code.isComment = false →
        comment.outputColumn = some first →
        code.anchorColumn? (written .toAscii source) = some goal →
        first + comment.width ≤ goal := by
  constructor
  · rintro ⟨lines, h⟩ line front rest comment code first goal hrow hfront hcode hfirst hgoal
    obtain ⟨origin, text, horigin, hconverted, hanchored⟩ := exists_converted h hrow
    have hmeasured := (Grid.measured_parse source origin horigin).congr hconverted.unwritten_eq
    rw [← Grid.goal?_eq_anchorColumn? hanchored (by simp)] at hgoal
    cases hconverted with
    | inPlace hsame hplaced =>
        have hle := hplaced.le_goal hfront hcode hfirst hgoal
        rwa [hmeasured.length_emission (hfront comment (by simp))] at hle
  · intro hfits
    cases h : convertLines .toAscii source with
    | ok lines => exact ⟨lines, rfl⟩
    | error e =>
        exfalso
        -- the row that fails holds the columns of the comments up to the token it fails at
        obtain ⟨done, comments, rest, code, text, goal, hobstructed⟩ :=
          Grid.exists_obstructed_of_convert h
        have hlt := hobstructed.crowded.lt_width
        rcases List.eq_nil_or_concat comments with rfl | ⟨front, comment, rfl⟩
        · cases hobstructed.placed
          exact Nat.not_lt_zero _ hlt
        · rw [List.concat_eq_append] at hobstructed
          obtain ⟨first, hfirst, hlength⟩ := hobstructed.placed.length_of_last
          have hrow := hobstructed.getElem?_written
          have hmeasured := hobstructed.measured
          rw [← List.append_cons] at hrow hmeasured
          have hgoal : code.anchorColumn? (written .toAscii source) = some goal := by
            have htake := hobstructed.take_written
            rw [← Grid.goal?_eq_anchorColumn? (by rw [htake]; exact hobstructed.anchored) (by simp),
              htake, hobstructed.crowded.goal]
          have hle := hfits _ _ _ _ _ _ _ hrow hobstructed.isComment hobstructed.crowded.code hfirst
            hgoal
          rw [hmeasured.length_emission (hobstructed.isComment comment (by simp))] at hlength
          omega

-- The comment moves right with the name above it, and the token behind it does not.
theorem not_forall_convertLines_toAscii :
    ¬ ∀ (source : Text) (position : Position) (context : String),
      convertLines .toAscii source ≠ .error (.asciiRealign position context) := by
  intro h
  have hfails : convertLines .toAscii "       y\n∈ a    y\n  (**) y".toList =
      .error (.asciiRealign ⟨2, 1⟩ "Ident \"y\" at column 7") := by decide +kernel
  exact h _ _ _ hfails

-- Comments that are not lined up with anything are never in the way.
theorem convertLines_toAscii_of_unanchored (source : Text)
    (h : ∀ (comments rest : Row) (code : Token), comments ++ code :: rest ∈ Grid.parse source →
      (∀ comment ∈ comments, comment.isComment = true) → code.isComment = false →
      ∀ comment ∈ comments, comment.anchor = none) :
    ∃ lines, convertLines .toAscii source = .ok lines := by
  cases hconvert : convertLines .toAscii source with
  | ok lines => exact ⟨lines, rfl⟩
  | error e =>
      exfalso
      obtain ⟨done, comments, rest, code, text, goal, hobstructed⟩ :=
        Grid.exists_obstructed_of_convert hconvert
      obtain ⟨row, hrow, hsame⟩ := hobstructed.exists_row
      obtain ⟨front, behind, rfl, hfront, hbehind⟩ :=
        List.map_eq_append_iff.mp (hsame.symm.trans (List.map_append ..))
      obtain ⟨twin, tail, rfl, htwin, -⟩ := List.map_eq_cons_iff.mp hbehind
      have hcode : twin.isComment = false :=
        (congrArg Token.isComment htwin).trans hobstructed.crowded.code
      have hcomments := Row.forall_of_unwritten (fun _ => Iff.rfl) hfront hobstructed.isComment
      have hanchor : ∀ comment ∈ comments, comment.anchor = none :=
        Row.forall_of_unwritten (fun _ => Iff.rfl) hfront.symm (h _ _ _ hrow hcomments hcode)
      -- the comments end where they do in the source, and no anchor is in front of its token
      have hlength := hobstructed.placed.length_of_unanchored hobstructed.isComment hanchor
        (List.cons_ne_nil code rest) hobstructed.measured rfl
      have hstop := hobstructed.measured.le_column
      have hcolumn := hobstructed.column_le_goal
      have hlt := hobstructed.crowded.lt_width
      omega

end Text

end TlaGlyph
