import TlaGlyph.Line.Emission
import TlaGlyph.Line.Placement

namespace TlaGlyph

namespace Token

-- The token as it is before it is written.
def unwritten (token : Token) : Token := { token with outputColumn := none }

@[simp] theorem unwritten_kind (token : Token) : token.unwritten.kind = token.kind := rfl
@[simp] theorem unwritten_text (token : Token) : token.unwritten.text = token.text := rfl
@[simp] theorem unwritten_column (token : Token) : token.unwritten.column = token.column := rfl
@[simp] theorem unwritten_width (token : Token) : token.unwritten.width = token.width := rfl
@[simp] theorem unwritten_anchor (token : Token) : token.unwritten.anchor = token.anchor := rfl

-- The token as it is when it is written at the column.
def writtenAt (column : Nat) (token : Token) : Token := { token with outputColumn := some column }

section WrittenAt

variable (column : Nat) (token : Token)

@[simp] theorem writtenAt_kind : (token.writtenAt column).kind = token.kind := rfl
@[simp] theorem writtenAt_column : (token.writtenAt column).column = token.column := rfl
@[simp] theorem writtenAt_outputColumn : (token.writtenAt column).outputColumn = some column := rfl
@[simp] theorem unwritten_writtenAt : (token.writtenAt column).unwritten = token.unwritten := rfl
@[simp] theorem writtenAt_finish : (token.writtenAt column).finish = token.finish := rfl
@[simp] theorem writtenAt_isComment : (token.writtenAt column).isComment = token.isComment := rfl
@[simp] theorem writtenAt_emission (direction : Direction) :
    (token.writtenAt column).emission direction = token.emission direction := rfl

end WrittenAt

-- The column under the anchor. There is none if the anchor stood at another column in the source, or
-- was not written in place.
def goal? (above : Grid) (token : Token) : Option Nat :=
  (token.anchor.bind above.get?).bind fun other =>
    if other.column = token.column then other.outputColumn else none

-- Where the token in front ended in the source.
def stopOf (previous? : Option Token) : Nat := previous?.elim 0 finish

-- The two ways to place a token without a realignment, on a line of the given width and behind a
-- token that ended at `stop` in the source. The gap is kept only where the anchor is of no use, and
-- comments alone are no reason to pass over the anchor of another token.
inductive Spaced (above : Grid) (onlyComments : Bool) (stop width : Nat) (token : Token)
    (count : Nat) : Prop
  | anchored (hgoal : token.goal? above = some (width + count))
  | kept (hgoal : ∀ column, token.goal? above = some column →
        column < width ∧ (onlyComments = true → token.isComment = true))
      (hgap : stop + count = token.column)

theorem Spaced.writtenAt {above : Grid} {onlyComments : Bool} {stop width count : Nat}
    {token : Token} (h : token.Spaced above onlyComments stop width count) (column : Nat) :
    (token.writtenAt column).Spaced above onlyComments stop width count := by
  cases h with
  | anchored hgoal => exact .anchored hgoal
  | kept hgoal hgap => exact .kept hgoal hgap

-- The comments on the line reach past the column of the anchor.
structure Crowded (above : Grid) (onlyComments : Bool) (width : Nat) (token : Token)
    (column : Nat) : Prop where
  goal : token.goal? above = some column
  lt_width : column < width
  only : onlyComments = true
  code : token.isComment = false

theorem goal?_of_target? {above : Grid} {position : Position} {token : Token} {goal : Option Nat}
    (h : token.target? above position = .ok goal) : token.goal? above = goal := by
  unfold target? at h
  unfold goal?
  cases ha : token.anchor with
  | none =>
      simp only [ha, Except.ok.injEq] at h
      simp [h]
  | some anchor =>
      simp only [ha] at h
      cases hg : above.get? anchor with
      | none => simp [hg] at h
      | some other =>
          simp only [hg, Except.ok.injEq] at h
          simp [hg, h]

theorem target?_error {above : Grid} {position : Position} {token : Token} {e : ConversionError}
    (h : token.target? above position = .error e) :
    ∃ anchor, token.anchor = some anchor ∧ above.get? anchor = none ∧
      e = .invalidAnchor position token.display anchor := by
  unfold target? at h
  cases ha : token.anchor with
  | none => simp [ha] at h
  | some anchor =>
      simp only [ha] at h
      cases hg : above.get? anchor with
      | none =>
          simp only [hg, Except.error.injEq] at h
          exact ⟨anchor, rfl, hg, h.symm⟩
      | some other => simp [hg] at h

-- The gap of the source as a placement.
theorem keep_ok {position : Position} {previous? : Option Token} {token : Token}
    {placement : Placement}
    (h : (token.sourceGap position previous?).map Placement.spaces = .ok placement) :
    ∃ count, placement = .spaces count ∧ stopOf previous? + count = token.column := by
  by_cases hle : stopOf previous? ≤ token.column
  · have hgap : token.sourceGap position previous? = .ok (token.column - stopOf previous?) :=
      if_pos hle
    rw [hgap] at h
    cases h
    exact ⟨_, rfl, by omega⟩
  · have hgap : token.sourceGap position previous? =
        .error (.negativeSpacing position (token.context previous?)) := if_neg hle
    rw [hgap] at h
    cases h

theorem keep_error {position : Position} {previous? : Option Token} {token : Token}
    {e : ConversionError}
    (h : (token.sourceGap position previous?).map Placement.spaces = .error e) :
    token.column < stopOf previous? ∧ e = .negativeSpacing position (token.context previous?) := by
  by_cases hle : stopOf previous? ≤ token.column
  · have hgap : token.sourceGap position previous? = .ok (token.column - stopOf previous?) :=
      if_pos hle
    rw [hgap] at h
    cases h
  · have hgap : token.sourceGap position previous? =
        .error (.negativeSpacing position (token.context previous?)) := if_neg hle
    rw [hgap] at h
    cases h
    exact ⟨by omega, rfl⟩

variable {direction : Direction} {above : Grid} {position : Position} {previous? : Option Token}
  {width : Nat} {onlyComments : Bool} {token : Token}

theorem spaced_of_place {count : Nat}
    (h : token.place direction above position previous? width onlyComments = .ok (.spaces count)) :
    token.Spaced above onlyComments (stopOf previous?) width count := by
  unfold place at h
  split at h
  · cases h
  · next ht =>
    obtain ⟨gap, hcount, hgap⟩ := keep_ok h
    cases hcount
    have hgoal := goal?_of_target? ht
    exact .kept (by simp [hgoal]) hgap
  · next column ht =>
    have hgoal := goal?_of_target? ht
    split at h
    · next hle =>
      simp only [Except.ok.injEq, Placement.spaces.injEq] at h
      exact .anchored (by rw [hgoal]; congr 1; omega)
    · next hlt =>
      split at h
      · cases direction <;> simp at h
      · next hcomments =>
        obtain ⟨gap, hcount, hgap⟩ := keep_ok h
        cases hcount
        refine .kept ?_ hgap
        intro other hother
        obtain rfl : column = other := by simpa [hgoal] using hother
        refine ⟨by omega, fun honly => ?_⟩
        simpa [honly] using hcomments

theorem crowded_of_place {column : Nat}
    (h : token.place direction above position previous? width onlyComments =
      .ok (.realign column)) :
    direction = .toUnicode ∧ token.Crowded above onlyComments width column := by
  unfold place at h
  split at h
  · cases h
  · obtain ⟨gap, hcount, -⟩ := keep_ok h
    cases hcount
  · next goal ht =>
    split at h
    · cases h
    · next hlt =>
      split at h
      · next hcomments =>
        simp only [Bool.and_eq_true, Bool.not_eq_true'] at hcomments
        cases direction with
        | toAscii => cases h
        | toUnicode =>
            cases h
            exact ⟨rfl, goal?_of_target? ht, by omega, hcomments.1, hcomments.2⟩
      · obtain ⟨gap, hcount, -⟩ := keep_ok h
        cases hcount

-- Each error of a placement and what it is about.
theorem place_error {e : ConversionError}
    (h : token.place direction above position previous? width onlyComments = .error e) :
    (∃ anchor, token.anchor = some anchor ∧ above.get? anchor = none ∧
      e = .invalidAnchor position token.display anchor) ∨
    (direction = .toAscii ∧ (∃ column, token.Crowded above onlyComments width column) ∧
      e = .asciiRealign position token.display) ∨
    (token.column < stopOf previous? ∧
      e = .negativeSpacing position (token.context previous?)) := by
  unfold place at h
  split at h
  · next ht =>
    cases h
    exact .inl (target?_error ht)
  · exact .inr (.inr (keep_error h))
  · next goal ht =>
    split at h
    · cases h
    · next hlt =>
      split at h
      · next hcomments =>
        simp only [Bool.and_eq_true, Bool.not_eq_true'] at hcomments
        cases direction with
        | toUnicode => cases h
        | toAscii =>
            cases h
            have hcrowded : token.Crowded above onlyComments width goal :=
              ⟨goal?_of_target? ht, by omega, hcomments.1, hcomments.2⟩
            exact .inr (.inl ⟨rfl, ⟨goal, hcrowded⟩, rfl⟩)
      · exact .inr (.inr (keep_error h))

end Token

end TlaGlyph
