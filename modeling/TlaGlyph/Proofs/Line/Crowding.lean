import TlaGlyph.Proofs.Line.Steady

namespace TlaGlyph

variable {direction : Direction} {above : Grid} {onlyComments : Bool} {stop width : Nat}

-- Where the tokens of a row fall apart, their text does too.
theorem Placed.split {front rest : Row} {text : Text}
    (h : Placed direction above onlyComments stop width (front ++ rest) text) :
    ∃ first last, text = first ++ last ∧ Placed direction above onlyComments stop width front first ∧
      Placed direction above (onlyComments && front.all Token.isComment)
        (front.getLast?.elim stop Token.finish) (width + first.length) rest last := by
  induction front generalizing onlyComments stop width text with
  | nil => exact ⟨[], text, rfl, .nil _ _ _, by simpa using h⟩
  | cons token front ih =>
      rw [List.cons_append] at h
      cases h with
      | @cons _ _ _ count _ _ text hspaced hcolumn hallows hrest =>
      obtain ⟨first, last, rfl, hfirst, hlast⟩ := ih hrest
      refine ⟨Text.spaces count ++ token.emission direction ++ first, last, by simp,
        .cons hspaced hcolumn hallows hfirst, ?_⟩
      have hstop : (token :: front).getLast?.elim stop Token.finish =
          front.getLast?.elim token.finish Token.finish := by
        rw [List.getLast?_cons]
        cases front.getLast? <;> rfl
      have hwidth : width + (Text.spaces count ++ token.emission direction ++ first).length =
          width + count + (token.emission direction).length + first.length := by
        simp only [List.length_append, Text.length_spaces]
        omega
      rw [hstop, hwidth, List.all_cons, ← Bool.and_assoc]
      exact hlast

-- The text ends with the last token.
theorem Placed.length_of_last {front : Row} {last : Token} {text : Text}
    (h : Placed direction above onlyComments stop width (front ++ [last]) text) :
    ∃ column, last.outputColumn = some column ∧
      width + text.length = column + (last.emission direction).length := by
  obtain ⟨first, behind, rfl, -, hlast⟩ := h.split
  cases hlast with
  | @cons _ _ _ count _ _ text hspaced hcolumn hallows hrest =>
  cases hrest
  refine ⟨_, hcolumn, ?_⟩
  simp only [List.length_append, Text.length_spaces, List.length_nil]
  omega

-- Comments are written as they are.
theorem Token.emission_comment {token : Token} (hcomment : token.isComment = true)
    (hwidth : 0 < token.width) : token.emission direction = token.spelling := by
  obtain ⟨kind, hkind⟩ := Deferral.exists_kind hcomment
  have hopening : ¬(kind = .opening ∧ token.width = 0) := by omega
  simp only [emission, spelling, hkind, CommentKind.emission, if_neg hopening, Kind.openMark,
    Kind.closeMark]

theorem Row.Measured.length_emission {front rest : Row} {comment code : Token}
    (h : Row.Measured stop (front ++ comment :: code :: rest)) (hcomment : comment.isComment = true) :
    (comment.emission direction).length = comment.width := by
  have hitem : (front ++ comment :: code :: rest)[front.length]? = some comment := by simp
  have hnext : (front ++ comment :: code :: rest)[front.length + 1]? = some code := by simp
  obtain ⟨hwidth, hspelled, -⟩ := h.exists_of_succ hitem hnext
  rw [Token.emission_comment hcomment hwidth, hspelled]

-- A token behind nothing but comments that has been placed is not in front of its anchor.
theorem Placed.le_goal {front rest : Row} {comment code : Token} {text : Text} {first goal : Nat}
    (h : Placed direction above true stop width (front ++ comment :: code :: rest) text)
    (hfront : ∀ other ∈ front ++ [comment], other.isComment = true) (hcode : code.isComment = false)
    (hfirst : comment.outputColumn = some first) (hgoal : code.goal? above = some goal) :
    first + (comment.emission direction).length ≤ goal := by
  rw [List.append_cons] at h
  obtain ⟨behind, last, rfl, hbehind, hlast⟩ := h.split
  obtain ⟨column, hcolumn, hlength⟩ := hbehind.length_of_last
  obtain rfl : column = first := by simpa [hcolumn] using hfirst
  have honly : (true && (front ++ [comment]).all Token.isComment) = true := by
    rw [Bool.true_and]
    exact List.all_eq_true.mpr hfront
  rw [honly] at hlast
  cases hlast with
  | cons hspaced =>
  cases hspaced with
  | anchored hsame =>
      have := Option.some.inj (hgoal.symm.trans hsame)
      omega
  | kept hpassed =>
      have hcomment := (hpassed goal hgoal).2 rfl
      rw [hcode] at hcomment
      cases hcomment

-- Comments in front of another token are written as wide as they were.
theorem Row.Measured.length_emissions (direction : Direction) {comments rest : Row}
    (h : Row.Measured stop (comments ++ rest)) (hrest : rest ≠ [])
    (hcomments : ∀ comment ∈ comments, comment.isComment = true) :
    ∀ comment ∈ comments, (comment.emission direction).length = comment.width := by
  intro comment hcomment
  obtain ⟨front, behind, rfl⟩ := List.append_of_mem hcomment
  obtain ⟨next, last, hnext⟩ :=
    List.exists_cons_of_ne_nil (List.append_ne_nil_of_right_ne_nil behind hrest)
  rw [List.append_assoc, List.cons_append, hnext] at h
  exact h.length_emission (hcomments comment hcomment)

-- Comments without anchors end where they do in the source.
theorem Placed.length_of_unanchored {row rest : Row} {text : Text}
    (h : Placed direction above onlyComments stop width row text)
    (hcomments : ∀ comment ∈ row, comment.isComment = true)
    (hanchor : ∀ comment ∈ row, comment.anchor = none) (hrest : rest ≠ [])
    (hmeasured : Row.Measured stop (row ++ rest)) (hlevel : width = stop) :
    width + text.length = row.getLast?.elim stop Token.finish := by
  have hguarded : row.Guarded above := by
    intro token htoken goal hgoal
    have hnone : token.goal? above = none := by simp [Token.goal?, hanchor token htoken]
    rw [hnone] at hgoal
    cases hgoal
  have hlength := hmeasured.length_emissions direction hrest hcomments
  obtain ⟨-, rfl⟩ := h.steady hlevel hguarded hlength
  rw [hlevel]
  exact Row.length_lineFrom hmeasured hlength

-- Comments in front of another token end before it, and so they are not in the way.
theorem Placed.not_crowded {comments rest : Row} {code : Token} {text : Text} {goal : Nat}
    (h : Placed direction above onlyComments 0 0 comments text)
    (hcomments : ∀ comment ∈ comments, comment.isComment = true)
    (hmeasured : Row.Measured 0 (comments ++ code :: rest))
    (hguarded : Row.Guarded above (comments ++ code :: rest)) :
    ¬code.Crowded above true text.length goal := by
  intro hcrowded
  have hlength := hmeasured.length_emissions direction (List.cons_ne_nil code rest) hcomments
  obtain ⟨-, rfl⟩ := h.steady rfl (fun token htoken => hguarded token (by simp [htoken])) hlength
  have hstop := Row.length_lineFrom hmeasured hlength
  have hcolumn : comments.stopFrom 0 ≤ code.column := hmeasured.le_column
  have hgoal := hguarded code (by simp) goal hcrowded.goal
  have hlt := hcrowded.lt_width
  omega

-- Nothing else makes the writer ask for a realignment.
theorem Draft.crowded_of_write {position failed : Position} {previous? : Option Token} {token : Token}
    {draft next : Draft} {context : String}
    (h : draft.write .toAscii above position previous? token =
      (next, .error (.asciiRealign failed context))) :
    ∃ goal, token.Crowded above draft.deferral.onlyComments draft.line.length goal := by
  unfold write at h
  split at h
  · next e hplace =>
    obtain rfl := Except.error.inj (congrArg Prod.snd h)
    rcases Token.place_error hplace with ⟨anchor, -, -, he⟩ | ⟨-, hcrowded, -⟩ | ⟨-, he⟩
    · cases he
    · exact hcrowded
    · cases he
  · simp only [put] at h
    split at h
    · cases congrArg Prod.snd h
    · cases congrArg Prod.snd h
  · next hplace => cases (Token.crowded_of_place hplace).1

-- The token that a row failed at, and the comments in front of it.
theorem Row.exists_crowded_of_convert {row left : Row} {position : Position} {context : String}
    (h : row.convert .toAscii above = (left, .error (.asciiRealign position context))) :
    ∃ front token rest head text goal, row = front ++ token :: rest ∧ left = head ++ token :: rest ∧
      head.map Token.unwritten = front.map Token.unwritten ∧
      (∀ comment ∈ front, comment.isComment = true) ∧
      Placed .toAscii above true 0 0 head text ∧ token.Crowded above true text.length goal := by
  obtain ⟨all, final, hall, hleft⟩ := exists_writeAll_of_convert_error h
  obtain ⟨front, token, rest, head, rfl, rfl, hreached, hwrite⟩ := Draft.exists_of_writeAll_error hall
  rw [← Draft.after] at hreached hwrite
  -- nothing gives way on the way to ASCII, so that the row is left as far as it was written
  have hdeferring : final.deferral.deferring = false := by
    rw [Draft.write_deferring hwrite, hreached.deferring_eq rfl]
  simp only [hdeferring] at hleft
  obtain ⟨text, htext, hplaced⟩ := hreached.placed rfl
  rw [List.nil_append] at htext
  obtain ⟨goal, hcrowded⟩ := Draft.crowded_of_write hwrite
  have hcomments := hreached.onlyComments_iff.mp hcrowded.only
  rw [hcrowded.only, htext] at hcrowded
  exact ⟨front, token, rest, head, text, goal, rfl, hleft.symm, hreached.unwritten_eq,
    hcomments, hplaced, hcrowded⟩

end TlaGlyph
