import TlaGlyph.Proofs.Grid.Measure
import TlaGlyph.Proofs.Line.Emission
import TlaGlyph.Proofs.Line.Writing

namespace TlaGlyph

namespace Direction

theorem allows_toUnicode {column outputColumn : Nat} :
    toUnicode.allows column outputColumn = true ↔ outputColumn ≤ column := by
  simp [allows]

theorem allows_toAscii {column outputColumn : Nat} :
    toAscii.allows column outputColumn = true ↔ column ≤ outputColumn := by
  simp [allows]

end Direction

-- All anchors of the row are found, and they stand where the direction allows the tokens of the row to
-- go. Those of a token that stands behind a mark leave room for one.
def Row.Guided (direction : Direction) (above : Grid) (row : Row) : Prop :=
  ∀ token ∈ row, (∀ anchor, token.anchor = some anchor → above.get? anchor ≠ none) ∧
    ∀ column, token.goal? above = some column → direction.allows token.column column = true ∧
      (direction = .toUnicode → 2 ≤ token.column → 2 ≤ column)

namespace Deferral

theorem closesComment_observe {deferral : Deferral} {item : Nat} {token : Token}
    (h : (deferral.observe item token).closesComment = true) :
    deferral.closesComment = true ∨ token.kind = .comment .closing := by
  unfold observe at h
  split at h
  · next kind hkind =>
    split at h
    · unfold closesComment at h ⊢
      cases hleading : deferral.leading with
      | nil =>
          simp only [hleading, List.nil_append, List.head?_cons, Option.any_some,
            decide_eq_true_eq] at h
          exact .inr (by rw [hkind, h])
      | cons entry leading =>
          simp only [hleading, List.cons_append, List.head?_cons] at h
          exact .inl (by rw [List.head?_cons]; exact h)
    · exact .inl h
  · unfold closesComment at h ⊢
    simp only at h
    split at h
    · exact .inl h
    · simp at h

end Deferral

namespace Draft

variable {direction : Direction} {above : Grid} {position : Position} {previous? : Option Token}
  {token : Token} {draft next : Draft} {e : ConversionError}

theorem put_error {count : Nat}
    (h : draft.put direction position token count = (next, .error e)) :
    direction.allows token.column (draft.line.length + count) = false ∧
      e = .columnDrift position token.display token.column (draft.line.length + count) direction := by
  simp only [put, List.length_append, Text.length_spaces] at h
  split at h
  · cases congrArg Prod.snd h
  · next hallows => exact ⟨by simpa using hallows, (Except.error.inj (congrArg Prod.snd h)).symm⟩

theorem realign_error {column : Nat}
    (h : draft.realign direction position token column = (next, .error e)) :
    (column < draft.cleared.length ∧ e = .negativeSpacing position token.display) ∨
      (direction.allows token.column column = false ∧
        e = .columnDrift position token.display token.column column direction) := by
  change (if draft.cleared.length ≤ column then
      (Draft.mk draft.cleared draft.deferral.arm).put direction position token
        (column - draft.cleared.length)
    else (⟨draft.cleared, draft.deferral.arm⟩,
      .error (.negativeSpacing position token.display))) = _ at h
  split at h
  · next hle =>
    have hallows := put_error h
    rw [show draft.cleared.length + (column - draft.cleared.length) = column by omega] at hallows
    exact .inr hallows
  · next hlt => exact .inl ⟨by omega, (Except.error.inj (congrArg Prod.snd h)).symm⟩

-- A token is not written if it cannot be placed, if it would move the wrong way, or if the mark that
-- stays is in its place.
theorem write_error
    (h : draft.write direction above position previous? token = (next, .error e)) :
    token.place direction above position previous? draft.line.length
        draft.deferral.onlyComments = .error e ∨
    (∃ count, token.Spaced above draft.deferral.onlyComments (Token.stopOf previous?)
      draft.line.length count ∧
      direction.allows token.column (draft.line.length + count) = false ∧
      e = .columnDrift position token.display token.column (draft.line.length + count) direction) ∨
    (direction = .toUnicode ∧ ∃ column,
      token.Crowded above draft.deferral.onlyComments draft.line.length column ∧
      ((column < draft.cleared.length ∧ e = .negativeSpacing position token.display) ∨
        (direction.allows token.column column = false ∧
          e = .columnDrift position token.display token.column column direction))) := by
  unfold write at h
  split at h
  · next hplace =>
    obtain rfl := Except.error.inj (congrArg Prod.snd h)
    exact .inl hplace
  · next count hplace =>
    exact .inr (.inl ⟨count, Token.spaced_of_place hplace, put_error h⟩)
  · next column hplace =>
    obtain ⟨hdirection, hcrowded⟩ := Token.crowded_of_place hplace
    exact .inr (.inr ⟨hdirection, column, hcrowded, realign_error h⟩)

-- The error is about the token.
theorem position?_of_write
    (h : draft.write direction above position previous? token = (next, .error e)) :
    e.position? = some position := by
  rcases write_error h with
    hplace | ⟨count, -, -, rfl⟩ | ⟨-, column, -, ⟨-, rfl⟩ | ⟨-, rfl⟩⟩
  · rcases Token.place_error hplace with ⟨anchor, -, -, rfl⟩ | ⟨-, -, rfl⟩ | ⟨-, rfl⟩
    · rfl
    · rfl
    · rfl
  · rfl
  · rfl
  · rfl

-- The pieces of comments are checked before the row is written.
theorem ne_malformed_of_write {failed : Position} {reason : String}
    (h : draft.write direction above position previous? token = (next, .error e)) :
    e ≠ .malformedComment failed reason := by
  rcases write_error h with
    hplace | ⟨count, -, -, rfl⟩ | ⟨-, column, -, ⟨-, rfl⟩ | ⟨-, rfl⟩⟩
  · rcases Token.place_error hplace with ⟨anchor, -, -, rfl⟩ | ⟨-, -, rfl⟩ | ⟨-, rfl⟩ <;> nofun
  all_goals nofun

theorem writeAll_cons_error {item : Nat} {rest written : Row} {final : Draft}
    (h : writeAll direction above item previous? draft (token :: rest) =
      (written, final, .error e)) :
    (draft.write direction above ⟨above.length, item⟩ previous? token = (final, .error e) ∧
      written = token :: rest) ∨
    ∃ next head tail,
      draft.write direction above ⟨above.length, item⟩ previous? token = (next, .ok head) ∧
      writeAll direction above (item + 1) (some token) next rest = (tail, final, .error e) ∧
      written = head :: tail := by
  unfold writeAll at h
  split at h
  · cases congrArg (·.2.2) h
  · split at h
    · next next failure hwrite =>
      obtain ⟨hwritten, hfinal⟩ := Prod.mk.inj h
      obtain ⟨rfl, hfailure⟩ := Prod.mk.inj hfinal
      obtain rfl := Except.error.inj hfailure
      exact .inl ⟨hwrite, hwritten.symm⟩
    · next next head hwrite =>
      obtain ⟨hwritten, hfinal⟩ := Prod.mk.inj h
      exact .inr ⟨next, head, _, hwrite, Prod.ext rfl hfinal, hwritten.symm⟩

-- The line is not ahead of the source on the way to Unicode, and not behind it on the way to ASCII.
-- A mark that would stay on it stands in the source as well.
structure Level (direction : Direction) (stop : Nat) (draft : Draft) : Prop where
  toUnicode : direction = .toUnicode → draft.line.length ≤ stop
  toAscii : direction = .toAscii → stop ≤ draft.line.length
  closing : draft.deferral.closesComment = true → 2 ≤ stop

theorem level_nil (direction : Direction) : Level direction 0 {} where
  toUnicode _ := Nat.le_refl _
  toAscii _ := Nat.le_refl _
  closing h := by cases h

-- Where the writer puts a token, it may go.
theorem Level.allows {stop count : Nat} {onlyComments : Bool} {row : Row}
    (h : draft.Level direction stop) (hguided : Row.Guided direction above row)
    (htoken : token ∈ row)
    (hspaced : token.Spaced above onlyComments stop draft.line.length count) :
    direction.allows token.column (draft.line.length + count) = true := by
  cases hspaced with
  | anchored hgoal => exact ((hguided token htoken).2 _ hgoal).1
  | kept hgoal hgap =>
      cases direction with
      | toUnicode =>
          have := h.toUnicode rfl
          exact Direction.allows_toUnicode.mpr (by omega)
      | toAscii =>
          have := h.toAscii rfl
          exact Direction.allows_toAscii.mpr (by omega)

-- After the token the line is level again, if the token is as wide as it is spelled.
theorem level_of_allows {outputColumn : Nat} (hwidth : 0 < token.width)
    (hspelled : token.width = token.spelling.length)
    (hallows : direction.allows token.column outputColumn = true)
    (hlength : next.line.length = outputColumn + (token.emission direction).length)
    (hclosing : next.deferral.closesComment = true → 2 ≤ token.finish) :
    next.Level direction token.finish := by
  refine ⟨?_, ?_, hclosing⟩
  · rintro rfl
    have hshorter := token.emission_toUnicode_le
    rw [Direction.allows_toUnicode] at hallows
    unfold Token.finish
    omega
  · rintro rfl
    have hlonger := Token.le_emission_toAscii hwidth
    rw [Direction.allows_toAscii] at hallows
    unfold Token.finish
    omega

theorem two_le_finish {stop : Nat} (hlevel : draft.Level direction stop)
    (hstop : stop ≤ token.column) (hspelled : token.width = token.spelling.length)
    (deferral : Deferral) (hsame : deferral.closesComment = draft.deferral.closesComment)
    {item : Nat} (h : (deferral.observe item token).closesComment = true) :
    2 ≤ token.finish := by
  unfold Token.finish
  rcases Deferral.closesComment_observe h with hcloses | hkind
  · have := hlevel.closing (hsame ▸ hcloses)
    omega
  · have hmarks : 2 ≤ token.spelling.length := by
      simp only [Token.spelling, hkind, Kind.closeMark, CommentKind.closeMark, List.length_append,
        List.length_cons, List.length_nil]
      omega
    omega

-- If the anchors of a measured row stand where they may, nothing fails but a realignment on the way to
-- ASCII.
theorem writeAll_error {item : Nat} {row written : Row} {final : Draft}
    (hlevel : row ≠ [] → draft.Level direction (Token.stopOf previous?))
    (hmeasured : row.Measured (Token.stopOf previous?)) (hguided : row.Guided direction above)
    (h : writeAll direction above item previous? draft row = (written, final, .error e)) :
    direction = .toAscii ∧ ∃ position context, e = .asciiRealign position context := by
  induction row generalizing item previous? draft written with
  | nil => cases congrArg (·.2.2) h
  | cons token rest ih =>
      have hlevel := hlevel (List.cons_ne_nil _ _)
      obtain ⟨hstop, hwidth, hspelled, hrest⟩ := hmeasured
      have htoken : token ∈ token :: rest := List.mem_cons_self
      rcases writeAll_cons_error h with ⟨hwrite, -⟩ | ⟨next, head, tail, hwrite, htail, -⟩
      · rcases write_error hwrite with
          hplace | ⟨count, hspaced, hallows, -⟩ | ⟨rfl, column, hcrowded, hfailed⟩
        · rcases Token.place_error hplace with
            ⟨anchor, hanchor, hnone, -⟩ | ⟨hdirection, -, rfl⟩ | ⟨hlt, -⟩
          · exact absurd hnone ((hguided token htoken).1 anchor hanchor)
          · exact ⟨hdirection, _, _, rfl⟩
          · omega
        · rw [hlevel.allows hguided htoken hspaced] at hallows
          cases hallows
        · obtain ⟨hallows, htwo⟩ := (hguided token htoken).2 column hcrowded.goal
          rcases hfailed with ⟨hlt, -⟩ | ⟨hnot, -⟩
          · -- only the mark of a comment from above can be in the way
            unfold cleared at hlt
            split at hlt
            · next hcloses =>
              have hstops := hlevel.closing hcloses
              have := htwo rfl (by omega)
              simp only [List.length_cons, List.length_nil] at hlt
              omega
            · exact absurd hlt (Nat.not_lt_zero _)
          · rw [hallows] at hnot
            cases hnot
      · have hguided' : Row.Guided direction above rest := fun other hother =>
          hguided other (List.mem_cons_of_mem _ hother)
        refine @ih (some token) next (item + 1) tail (fun hne => ?_) hrest hguided' htail
        rcases write_ok hwrite with
          ⟨count, hspaced, hallows, -, rfl⟩ | ⟨-, column, hcrowded, hle, hallows, -, rfl⟩
        · refine level_of_allows hwidth (hspelled hne) hallows ?_ ?_
          · simp only [List.length_append, Text.length_spaces]
          · exact two_le_finish hlevel hstop (hspelled hne) draft.deferral rfl
        · refine level_of_allows hwidth (hspelled hne) hallows ?_ ?_
          · simp only [List.length_append, Text.length_spaces]
            omega
          · exact two_le_finish hlevel hstop (hspelled hne) draft.deferral.arm rfl

end Draft

namespace Row

theorem convert_error {direction : Direction} {above : Grid} {row written : Row}
    {e : ConversionError} (hmeasured : row.Measured 0) (hguided : row.Guided direction above)
    (h : row.convert direction above = (written, .error e)) :
    direction = .toAscii ∧ ∃ position context, e = .asciiRealign position context := by
  obtain ⟨all, final, hall, -⟩ := exists_writeAll_of_convert_error h
  have hlevel : row ≠ [] → Draft.Level direction (Token.stopOf none) {} :=
    fun _ => Draft.level_nil direction
  exact Draft.writeAll_error hlevel hmeasured hguided hall

end Row

end TlaGlyph
