import TlaGlyph.Proofs.Comment.Nesting
import TlaGlyph.Proofs.Grid.Frames
import TlaGlyph.Proofs.Grid.Spread
import TlaGlyph.Proofs.Line.Steady

namespace TlaGlyph

namespace Row

variable {direction : Direction} {row : Row} {text : Text} {stop place : Nat}

-- A token of the row stands at the place.
def covers (row : Row) (place : Nat) : Bool :=
  row.any fun token => token.column ≤ place && place < token.finish

-- The line with a space for every character that is in no token, and without what is behind the last
-- token.
def blanked (row : Row) (text : Text) : Text :=
  (text.mapIdx fun place c => if row.covers place then c else ' ').take (row.stopFrom 0)

-- Every character that is in no token is a plain space in front of one.
def Tidy (row : Row) (text : Text) : Prop :=
  ∀ place < text.length, row.covers place = true ∨
    text[place]? = some ' ' ∧ ∃ token ∈ row, place < token.column

instance (row : Row) (text : Text) : Decidable (row.Tidy text) :=
  inferInstanceAs (Decidable (∀ place < text.length, _))

theorem covers_iff :
    row.covers place = true ↔ ∃ token ∈ row, token.column ≤ place ∧ place < token.finish := by
  simp [covers]

theorem getElem?_blanked (row : Row) (text : Text) (place : Nat) :
    (row.blanked text)[place]? = if place < row.stopFrom 0 then
      text[place]?.map fun c => if row.covers place then c else ' ' else none := by
  rw [blanked, List.getElem?_take, List.getElem?_mapIdx]

theorem Measured.finish_le_stopFrom (h : row.Measured stop) {token : Token} (htoken : token ∈ row) :
    token.finish ≤ row.stopFrom stop := by
  induction row generalizing stop with
  | nil => cases htoken
  | cons head rest ih =>
      rw [stopFrom_cons]
      rcases List.mem_cons.mp htoken with rfl | htoken
      · have hmeasured : Measured token.finish (rest ++ []) := by simpa using h.2.2.2
        exact hmeasured.stop_le
      · exact ih h.2.2.2 htoken

theorem stopFrom_le (h : ∀ token ∈ row, token.finish ≤ text.length) : row.stopFrom 0 ≤ text.length := by
  unfold stopFrom
  cases hlast : row.getLast? with
  | none => exact Nat.zero_le _
  | some last => exact h last (List.mem_of_getLast? hlast)

-- What stands at a place of the line that the tokens read.
theorem getElem?_lineFrom (hmeasured : row.Measured stop)
    (hlength : ∀ token ∈ row, (token.emission direction).length = token.width) (hplace : stop ≤ place) :
    (∀ token ∈ row, token.column ≤ place → place < token.finish →
      (row.lineFrom direction stop)[place - stop]? =
        (token.emission direction)[place - token.column]?) ∧
    (row.covers place = false → place < row.stopFrom stop →
      (row.lineFrom direction stop)[place - stop]? = some ' ') := by
  induction row generalizing stop with
  | nil => exact ⟨nofun, fun _ hlt => absurd hplace (Nat.not_le.mpr hlt)⟩
  | cons head rest ih =>
      obtain ⟨hcolumn, hwidth, -, hmeasured⟩ := hmeasured
      have hhead := hlength head (by simp)
      have hbehind : ∀ token ∈ rest, head.finish ≤ token.column := by
        intro token htoken
        obtain ⟨front, back, rfl⟩ := List.append_of_mem htoken
        have hstop := Measured.stop_le hmeasured
        have hle := Measured.le_column hmeasured
        exact Nat.le_trans hstop hle
      have hspaces : (Text.spaces (head.column - stop)).length = head.column - stop :=
        Text.length_spaces _
      have hfinish : head.finish = head.column + head.width := rfl
      rw [stopFrom_cons, lineFrom, List.append_assoc]
      by_cases hgap : place < head.column
      · -- in front of the first token
        have hspace : (Text.spaces (head.column - stop) ++ (head.emission direction ++
            lineFrom direction head.finish rest))[place - stop]? = some ' ' := by
          rw [List.getElem?_append_left (by omega), Text.spaces,
            List.getElem?_replicate_of_lt (by omega)]
        refine ⟨fun token htoken hle _ => ?_, fun _ _ => hspace⟩
        rcases List.mem_cons.mp htoken with rfl | htoken
        · omega
        · have := hbehind token htoken
          omega
      · rw [List.getElem?_append_right (by omega), hspaces,
          show place - stop - (head.column - stop) = place - head.column by omega]
        by_cases hinside : place < head.finish
        · -- in the first token
          rw [List.getElem?_append_left (by omega)]
          refine ⟨fun token htoken hle _ => ?_, fun hnone _ => ?_⟩
          · rcases List.mem_cons.mp htoken with rfl | htoken
            · rfl
            · have := hbehind token htoken
              omega
          · have hcovered : covers (head :: rest) place = true :=
              covers_iff.mpr ⟨head, by simp, by omega, hinside⟩
            rw [hnone] at hcovered
            cases hcovered
        · -- behind it
          rw [List.getElem?_append_right (by omega), hhead,
            show place - head.column - head.width = place - head.finish by omega]
          obtain ⟨hcovered, hspace⟩ := ih hmeasured
            (fun token htoken => hlength token (by simp [htoken])) (Nat.le_of_not_lt hinside)
          refine ⟨fun token htoken hle hlt => ?_, fun hnone hlt => hspace ?_ hlt⟩
          · rcases List.mem_cons.mp htoken with rfl | htoken
            · exact absurd hlt hinside
            · exact hcovered token htoken hle hlt
          · rw [covers, List.any_cons, Bool.or_eq_false_iff] at hnone
            exact hnone.2

-- Tokens that read as they do in the source and stay where they are leave the line as it is, but for
-- the characters between them.
theorem lineFrom_eq_blanked (hmeasured : row.Measured 0)
    (hfinish : ∀ token ∈ row, token.finish ≤ text.length)
    (hspan : ∀ token ∈ row, token.emission direction = token.span text) :
    row.lineFrom direction 0 = row.blanked text := by
  have hlength : ∀ token ∈ row, (token.emission direction).length = token.width := by
    intro token htoken
    have hle := hfinish token htoken
    rw [hspan token htoken, Token.span, List.length_take, List.length_drop]
    rw [Token.finish] at hle
    omega
  apply List.ext_getElem?
  intro place
  obtain ⟨hcovered, hspace⟩ := getElem?_lineFrom hmeasured hlength (Nat.zero_le place)
  rw [Nat.sub_zero] at hcovered hspace
  rw [getElem?_blanked]
  by_cases hlt : place < row.stopFrom 0
  · rw [if_pos hlt]
    by_cases hplace : row.covers place = true
    · obtain ⟨token, htoken, hle, hbefore⟩ := covers_iff.mp hplace
      rw [hcovered token htoken hle hbefore, hspan token htoken, Token.span, List.getElem?_take,
        List.getElem?_drop, if_pos (by rw [Token.finish] at hbefore; omega),
        Nat.add_sub_cancel' hle]
      simp [hplace]
    · have hnone : row.covers place = false := by simpa using hplace
      have hline := List.getElem?_eq_getElem (Nat.lt_of_lt_of_le hlt (stopFrom_le hfinish))
      rw [hspace hnone hlt, hline]
      simp [hnone]
  · rw [if_neg hlt]
    have hall : Measured 0 (row ++ []) := by rwa [List.append_nil]
    have hend := length_lineFrom hall hlength
    exact List.getElem?_eq_none (by omega)

theorem tidy_iff (hmeasured : row.Measured 0) (hfinish : ∀ token ∈ row, token.finish ≤ text.length) :
    row.Tidy text ↔ row.blanked text = text := by
  have hstop := stopFrom_le hfinish
  constructor
  · intro htidy
    apply List.ext_getElem?
    intro place
    rw [getElem?_blanked]
    by_cases hplace : place < text.length
    · have hline := List.getElem?_eq_getElem hplace
      rcases htidy place hplace with hcovers | ⟨hspace, token, htoken, hlt⟩
      · obtain ⟨token, htoken, -, hlt⟩ := covers_iff.mp hcovers
        have hle := hmeasured.finish_le_stopFrom htoken
        rw [if_pos (by omega), hline, Option.map_some, if_pos hcovers]
      · have hle := hmeasured.finish_le_stopFrom htoken
        rw [Token.finish] at hle
        rw [if_pos (by omega), hspace]
        simp
    · have hnone : text[place]? = none := List.getElem?_eq_none (by omega)
      rw [hnone]
      simp
  · intro hsame place hplace
    by_cases hcovers : row.covers place = true
    · exact .inl hcovers
    · have hget := getElem?_blanked row text place
      have hline := List.getElem?_eq_getElem hplace
      rw [hsame, hline] at hget
      by_cases hlt : place < row.stopFrom 0
      · rw [if_pos hlt, Option.map_some, if_neg hcovers] at hget
        refine .inr ⟨hline.trans hget, ?_⟩
        cases hlast : row.getLast? with
        | none => simp [stopFrom, hlast] at hlt
        | some last =>
            have hmem := List.mem_of_getLast? hlast
            refine ⟨last, hmem, ?_⟩
            by_contra hnot
            refine hcovers (covers_iff.mpr ⟨last, hmem, by omega, ?_⟩)
            simpa [stopFrom, hlast] using hlt
      · rw [if_neg hlt] at hget
        cases hget

end Row

end TlaGlyph
