import TlaGlyph.Proofs.Grid.Anchors
import TlaGlyph.Proofs.Line.Progress

namespace TlaGlyph

variable {direction : Direction} {above : Grid}

-- The token that is looked at and the state of the line in front of it.
theorem Placed.exists_spaced {onlyComments : Bool} {stop width : Nat} {row : Row} {text : Text}
    (h : Placed direction above onlyComments stop width row text) {item : Nat} {token : Token}
    (htoken : row[item]? = some token) :
    ∃ onlyComments stop' width' count, token.Spaced above onlyComments stop' width' count ∧
      token.outputColumn = some (width' + count) ∧
      direction.allows token.column (width' + count) = true ∧
      (item = 0 → stop' = stop ∧ width' = width) ∧
      ∀ before previous, item = before + 1 → row[before]? = some previous →
        stop' = previous.finish ∧ ∃ column, previous.outputColumn = some column ∧
          width' = column + (previous.emission direction).length := by
  induction h generalizing item with
  | nil => simp at htoken
  | @cons onlyComments stop width count head rest text hspaced hcolumn hallows hrest ih =>
      cases item with
      | zero =>
          obtain rfl : head = token := by simpa using htoken
          exact ⟨onlyComments, stop, width, count, hspaced, hcolumn, hallows, fun _ => ⟨rfl, rfl⟩,
            fun before _ hzero => absurd hzero (Nat.succ_ne_zero before).symm⟩
      | succ item =>
          rw [List.getElem?_cons_succ] at htoken
          obtain ⟨only, stop', width', count', hspaced', hcolumn', hallows', hfirst, hprevious⟩ :=
            ih htoken
          refine ⟨only, stop', width', count', hspaced', hcolumn', hallows',
            fun hzero => absurd hzero (Nat.succ_ne_zero item), ?_⟩
          intro before previous hbefore hsome
          obtain rfl : item = before := Nat.succ.inj hbefore
          cases item with
          | zero =>
              obtain rfl : head = previous := by simpa using hsome
              obtain ⟨rfl, rfl⟩ := hfirst rfl
              exact ⟨rfl, _, hcolumn, rfl⟩
          | succ item =>
              rw [List.getElem?_cons_succ] at hsome
              exact hprevious item previous rfl hsome

namespace Row

theorem Measured.exists_of_succ {stop : Nat} {row : Row} (h : row.Measured stop) {item : Nat}
    {token next : Token} (htoken : row[item]? = some token) (hnext : row[item + 1]? = some next) :
    0 < token.width ∧ token.width = token.spelling.length ∧ token.finish ≤ next.column := by
  induction row generalizing stop item with
  | nil => simp at htoken
  | cons head rest ih =>
      obtain ⟨-, hwidth, hspelled, hrest⟩ := h
      rw [List.getElem?_cons_succ] at hnext
      cases item with
      | zero =>
          obtain rfl : head = token := by simpa using htoken
          cases rest with
          | nil => simp at hnext
          | cons second rest =>
              obtain rfl : second = next := by simpa using hnext
              exact ⟨hwidth, hspelled (List.cons_ne_nil _ _), hrest.1⟩
      | succ item =>
          rw [List.getElem?_cons_succ] at htoken
          exact ih hrest htoken hnext

-- The tokens of the row stand where the direction allows, and those that others may be lined up with
-- leave room for a mark if the source does.
def Sound (direction : Direction) (row : Row) : Prop :=
  ∀ item token column, row[item]? = some token → token.outputColumn = some column →
    direction.allows token.column column = true ∧
      (direction = .toUnicode → row.isAlignable item = true → 2 ≤ token.column → 2 ≤ column)

-- A token that has anchors follows a gap.
theorem finish_lt_of_isAlignable {row : Row} {before : Nat} {previous token : Token}
    (hprevious : row[before]? = some previous) (htoken : row[before + 1]? = some token)
    (h : row.isAlignable (before + 1) = true) : previous.finish < token.column := by
  simp only [isAlignable, htoken, Option.any_some, Bool.and_eq_true] at h
  simpa [previous?, hprevious] using h.2

theorem guided_of_sound {row : Row} (hanchored : row.Anchored above)
    (hsound : ∀ other ∈ above, other.Sound direction) : row.Guided direction above := by
  intro token htoken
  refine ⟨fun anchor hanchor hnone => ?_, fun column hgoal => ?_⟩
  · obtain ⟨named, other, hnamed, hother, -⟩ := hanchored token htoken anchor hanchor
    simp [Grid.get?, hnamed, hother] at hnone
  · cases hanchor : token.anchor with
    | none => simp [Token.goal?, hanchor] at hgoal
    | some anchor =>
        obtain ⟨named, other, hnamed, hother, halign, hcolumn⟩ :=
          hanchored token htoken anchor hanchor
        have hfound : above.get? anchor = some other := by simp [Grid.get?, hnamed, hother]
        have houtput : other.outputColumn = some column := by
          simpa [Token.goal?, hanchor, hfound, hcolumn] using hgoal
        obtain ⟨hallows, htwo⟩ :=
          hsound named (List.mem_of_getElem? hnamed) anchor.item other column hother houtput
        rw [hcolumn] at hallows htwo
        exact ⟨hallows, fun hdirection => htwo hdirection halign⟩

-- Where a placed token stands, if there is room in front of it in the source.
theorem two_le_of_spaced {row : Row} {onlyComments : Bool} {stop width count : Nat} {token : Token}
    (hguided : row.Guided .toUnicode above) (htoken : token ∈ row)
    (hspaced : token.Spaced above onlyComments stop width count)
    (hstart : stop = 0 ∨ (0 < width ∧ stop < token.column)) (htwo : 2 ≤ token.column) :
    2 ≤ width + count := by
  cases hspaced with
  | anchored hgoal => exact ((hguided token htoken).2 _ hgoal).2 rfl htwo
  | kept hgoal hgap => rcases hstart with hzero | ⟨hwidth, hlt⟩ <;> omega

-- A token that comments have given way to is placed under its anchor as any other is.
theorem placed_realigned {comments rest : Row} {code : Token} {goal : Nat} {text : Text}
    (hgoal : code.goal? above = some goal) (hcode : code.isComment = false)
    (hfront : comments.front.length ≤ goal)
    (hallows : Direction.toUnicode.allows code.column goal = true)
    (hplaced : Placed .toUnicode above false code.finish
      (goal + (code.emission .toUnicode).length) rest text) :
    Placed .toUnicode above true 0 comments.front.length (code.writtenAt goal :: rest)
      (Text.spaces (goal - comments.front.length) ++ code.emission .toUnicode ++ text) := by
  have hcolumn : comments.front.length + (goal - comments.front.length) = goal := by omega
  have hspaced : code.Spaced above true 0 comments.front.length (goal - comments.front.length) :=
    .anchored (by rw [hcolumn, hgoal])
  have hplaced := Placed.cons_writtenAt hspaced (by rwa [hcolumn])
    (by simpa [hcolumn, hcode] using hplaced)
  rwa [hcolumn] at hplaced

-- What was written in place is one part of the row.
theorem Converted.exists_placed {row written : Row} {line : Text}
    (h : Converted above direction row written line) (hfresh : row.Fresh) :
    ∃ front placed back width text, written = front ++ placed ++ back ∧ Fresh front ∧ Fresh back ∧
      Placed direction above true 0 width placed text := by
  cases h with
  | inPlace hsame hplaced =>
      exact ⟨[], written, [], 0, _, by simp, by simp [Fresh], by simp [Fresh], hplaced⟩
  | @realigned comments yielded rest tail code goal hidden text hcomments hyielded hhidden hcrowded
      hfront hallows htail hending hplaced =>
      refine ⟨comments.map Token.unwritten, code.writtenAt goal :: tail.body, tail.ending.toList, _, _,
        ?_, ?_, ?_, placed_realigned hcrowded.goal hcrowded.code hfront hallows hplaced⟩
      · rw [List.append_assoc, List.cons_append, body_append_ending]
      · intro token htoken
        obtain ⟨comment, -, rfl⟩ := List.mem_map.mp htoken
        rfl
      · -- what waits for the comments is left as it was
        intro token htoken
        rw [hending] at htoken
        have hlast := (Option.filter_eq_some_iff.mp (Option.mem_toList.mp htoken)).1
        exact hfresh token (by simp [List.mem_of_getLast? hlast])

-- A token that has a column was written in place.
theorem exists_of_outputColumn {front placed back : Row} (hfront : Fresh front) (hback : Fresh back)
    {item : Nat} {token : Token} {column : Nat}
    (htoken : (front ++ placed ++ back)[item]? = some token)
    (hcolumn : token.outputColumn = some column) :
    ∃ index, item = front.length + index ∧ placed[index]? = some token := by
  have hne {other : Row} (hother : other.Fresh) {index : Nat} : other[index]? ≠ some token := by
    intro hsome
    rw [hother token (List.mem_of_getElem? hsome)] at hcolumn
    cases hcolumn
  rcases Nat.lt_or_ge item front.length with hlt | hge
  · rw [List.append_assoc, List.getElem?_append_left hlt] at htoken
    exact absurd htoken (hne hfront)
  · obtain ⟨index, rfl⟩ := Nat.exists_eq_add_of_le hge
    rw [List.append_assoc, List.getElem?_append_right hge, Nat.add_sub_cancel_left] at htoken
    rcases Nat.lt_or_ge index placed.length with hlt | hbehind
    · exact ⟨index, rfl, by rwa [List.getElem?_append_left hlt] at htoken⟩
    · rw [List.getElem?_append_right hbehind] at htoken
      exact absurd htoken (hne hback)

theorem Guided.congr {row written : Row} (h : row.Guided direction above)
    (hsame : written.map Token.unwritten = row.map Token.unwritten) :
    written.Guided direction above := by
  intro token htoken
  obtain ⟨item, hitem⟩ := List.getElem?_of_mem htoken
  obtain ⟨twin, htwin, heq⟩ := unwritten_of_map hsame hitem
  have hguided := h twin (List.mem_of_getElem? htwin)
  change (∀ anchor, twin.unwritten.anchor = some anchor → _) ∧
    ∀ column, twin.unwritten.goal? above = some column →
      direction.allows twin.unwritten.column column = true ∧
        (_ → 2 ≤ twin.unwritten.column → _) at hguided
  rw [heq] at hguided
  exact hguided

theorem bare_of_unwritten {row written : Row}
    (hsame : written.map Token.unwritten = row.map Token.unwritten) : written.bare = row.bare := by
  have hbare := congrArg (List.map Token.bare) hsame
  rwa [List.map_map, List.map_map] at hbare

theorem Measured.congr {stop : Nat} {row written : Row} (h : row.Measured stop)
    (hsame : written.map Token.unwritten = row.map Token.unwritten) : written.Measured stop := by
  rw [← measured_bare, bare_of_unwritten hsame, measured_bare]
  exact h

theorem Converted.sound {row written : Row} {line : Text}
    (h : Converted above direction row written line) (hmeasured : row.Measured 0)
    (hguided : row.Guided direction above) (hfresh : row.Fresh) : written.Sound direction := by
  have hmeasured := hmeasured.congr h.unwritten_eq
  have hguided := hguided.congr h.unwritten_eq
  obtain ⟨front, placed, back, width, text, rfl, hfront, hback, hplaced⟩ := h.exists_placed hfresh
  intro item token column htoken hcolumn
  obtain ⟨index, rfl, hindex⟩ := exists_of_outputColumn hfront hback htoken hcolumn
  obtain ⟨only, stop, width', count, hspaced, houtput, hallows, hzero, hsucc⟩ :=
    hplaced.exists_spaced hindex
  obtain rfl : width' + count = column := by simpa [houtput] using hcolumn
  refine ⟨hallows, ?_⟩
  rintro rfl halign htwo
  refine two_le_of_spaced hguided (List.mem_of_getElem? htoken) hspaced ?_ htwo
  cases index with
  | zero => exact .inl (hzero rfl).1
  | succ before =>
      obtain ⟨previous, hprevious⟩ : ∃ previous, placed[before]? = some previous :=
        ⟨_, List.getElem?_eq_getElem
          (Nat.lt_of_succ_lt (List.getElem?_eq_some_iff.mp hindex).1)⟩
      obtain ⟨rfl, column, -, rfl⟩ := hsucc before previous rfl hprevious
      have hlast : (front ++ placed ++ back)[front.length + before]? = some previous := by
        rw [List.append_assoc, List.getElem?_append_right (Nat.le_add_right _ _),
          Nat.add_sub_cancel_left,
          List.getElem?_append_left (List.getElem?_eq_some_iff.mp hprevious).1, hprevious]
      obtain ⟨hwidth, hspelled, -⟩ := hmeasured.exists_of_succ hlast htoken
      have hpos := Token.emission_pos .toUnicode hwidth hspelled
      exact .inr ⟨by omega, finish_lt_of_isAlignable hlast htoken halign⟩

end Row

end TlaGlyph
