import TlaGlyph.Proofs.Line.Landing

namespace TlaGlyph

variable {direction : Direction} {above : Grid} {onlyComments : Bool} {stop width : Nat}

namespace Row

-- What the tokens read if each keeps the gap in front of it. The first one stands behind column `stop`
-- of the source.
def lineFrom (direction : Direction) : Nat → Row → Text
  | _, [] => []
  | stop, token :: rest =>
    Text.spaces (token.column - stop) ++ token.emission direction ++
      lineFrom direction token.finish rest

-- The row with each token written where it then stands. The line in front has come to `width`.
def laidFrom (direction : Direction) : Nat → Nat → Row → Row
  | _, _, [] => []
  | stop, width, token :: rest =>
    let column := width + (token.column - stop)
    token.writtenAt column ::
      laidFrom direction token.finish (column + (token.emission direction).length) rest

-- Every token is written at its column in the source.
def Steady (row : Row) : Prop := ∀ token ∈ row, token.outputColumn = some token.column

-- The anchors of the row, as far as they can be used, were written at their columns in the source.
def Guarded (above : Grid) (row : Row) : Prop :=
  ∀ token ∈ row, ∀ goal, token.goal? above = some goal → goal = token.column

-- Where the last token ends in the source.
def stopFrom (stop : Nat) (row : Row) : Nat := row.getLast?.elim stop Token.finish

theorem stopFrom_cons (stop : Nat) (token : Token) (row : Row) :
    stopFrom stop (token :: row) = row.stopFrom token.finish := by
  rw [stopFrom, stopFrom, List.getLast?_cons]
  cases row.getLast? <;> rfl

theorem Measured.stop_le {row rest : Row} (h : Measured stop (row ++ rest)) :
    stop ≤ row.stopFrom stop := by
  induction row generalizing stop with
  | nil => exact Nat.le_refl _
  | cons token row ih =>
      have hle := ih h.2.2.2
      have hcolumn := h.1
      rw [stopFrom_cons]
      rw [Token.finish] at hle ⊢
      omega

theorem Measured.le_column {front rest : Row} {token : Token}
    (h : Measured stop (front ++ token :: rest)) :
    front.getLast?.elim stop Token.finish ≤ token.column := by
  induction front generalizing stop with
  | nil => exact h.1
  | cons first front ih =>
      have hle := ih h.2.2.2
      rw [List.getLast?_cons]
      cases hlast : front.getLast? with
      | none => simpa [hlast] using hle
      | some last => simpa [hlast] using hle

theorem length_lineFrom {row rest : Row} (hmeasured : Measured stop (row ++ rest))
    (hlength : ∀ token ∈ row, (token.emission direction).length = token.width) :
    stop + (row.lineFrom direction stop).length = row.stopFrom stop := by
  induction row generalizing stop with
  | nil => rfl
  | cons token row ih =>
      have hrest := ih hmeasured.2.2.2 fun other hother => hlength other (by simp [hother])
      have hwidth := hlength token (by simp)
      have hcolumn := hmeasured.1
      rw [stopFrom_cons, ← hrest, lineFrom, Token.finish]
      simp only [List.length_append, Text.length_spaces]
      omega

section LineFrom

variable {column : Nat} {row : Row}

-- A gap in front of a row.
theorem lineFrom_succ (hne : row ≠ []) (hle : ∀ token ∈ row, column + 1 ≤ token.column) :
    row.lineFrom direction column = ' ' :: row.lineFrom direction (column + 1) := by
  cases row with
  | nil => exact absurd rfl hne
  | cons token rest =>
      have hcolumn := hle token (by simp)
      rw [lineFrom, lineFrom, show token.column - column = token.column - (column + 1) + 1 by omega]
      rfl

theorem lineFrom_ofText (kind : Kind) (text : Text) (column : Nat) (row : Row) :
    lineFrom direction column (Token.ofText kind text column :: row) =
      (Token.ofText kind text column).emission direction ++
        lineFrom direction (column + (text.length + Token.markWidth kind)) row := by
  simp [lineFrom, Token.ofText, Token.finish, Text.spaces]

theorem laidFrom_succ (hle : ∀ token ∈ row, column + 1 ≤ token.column) :
    row.laidFrom direction column width = row.laidFrom direction (column + 1) (width + 1) := by
  cases row with
  | nil => rfl
  | cons token rest =>
      have hcolumn := hle token (by simp)
      have hsame : width + (token.column - column) = width + 1 + (token.column - (column + 1)) := by
        omega
      rw [laidFrom, laidFrom, hsame]

theorem laidFrom_ofText (kind : Kind) (text : Text) (column : Nat) (row : Row) :
    laidFrom direction column width (Token.ofText kind text column :: row) =
      (Token.ofText kind text column).writtenAt width ::
        laidFrom direction (column + (text.length + Token.markWidth kind))
          (width + ((Token.ofText kind text column).emission direction).length) row := by
  simp [laidFrom, Token.ofText, Token.finish]

theorem lineFrom_unwritten (stop : Nat) (row : Row) :
    lineFrom direction stop (row.map Token.unwritten) = row.lineFrom direction stop := by
  induction row generalizing stop with
  | nil => rfl
  | cons token row ih =>
      rw [List.map_cons, lineFrom, lineFrom]
      exact congrArg _ (ih token.finish)

theorem laidFrom_unwritten (stop width : Nat) (row : Row) :
    laidFrom direction stop width (row.map Token.unwritten) = row.laidFrom direction stop width := by
  induction row generalizing stop width with
  | nil => rfl
  | cons token row ih =>
      rw [List.map_cons, laidFrom, laidFrom]
      exact congrArg _ (ih token.finish _)

end LineFrom

end Row

@[simp] theorem Token.goal?_nil (token : Token) : token.goal? [] = none := by
  rw [goal?]
  cases token.anchor <;> rfl

-- Tokens whose anchors are of no use keep their gaps.
theorem Placed.of_unanchored {row : Row} {text : Text}
    (h : Placed direction above onlyComments stop width row text)
    (hgoal : ∀ token ∈ row, token.goal? above = none) :
    text = row.lineFrom direction stop ∧ row = row.laidFrom direction stop width := by
  induction h with
  | nil => exact ⟨rfl, rfl⟩
  | @cons onlyComments stop width count token row text hspaced hcolumn hallows hrest ih =>
      have hcount : token.column - stop = count := by
        cases hspaced with
        | anchored hanchored =>
            rw [hgoal token (by simp)] at hanchored
            cases hanchored
        | kept _ hgap => omega
      obtain ⟨htext, hrow⟩ := ih fun other hother => hgoal other (by simp [hother])
      have htoken : token.writtenAt (width + count) = token := by
        rw [Token.writtenAt, ← hcolumn]
      rw [Row.lineFrom, Row.laidFrom, hcount, ← htext, htoken, ← hrow]
      exact ⟨rfl, rfl⟩

-- Tokens that are written as wide as they were stay where they were, behind a line that has stayed.
theorem Placed.steady {row : Row} {text : Text}
    (h : Placed direction above onlyComments stop width row text) (hlevel : width = stop)
    (hguarded : row.Guarded above)
    (hlength : ∀ token ∈ row, (token.emission direction).length = token.width) :
    row.Steady ∧ text = row.lineFrom direction stop := by
  induction h with
  | nil => exact ⟨nofun, rfl⟩
  | @cons onlyComments stop width count token row text hspaced hcolumn hallows hrest ih =>
      subst hlevel
      have hstays : width + count = token.column := by
        cases hspaced with
        | anchored hgoal => exact hguarded token (by simp) _ hgoal
        | kept _ hgap => exact hgap
      have hfinish : width + count + (token.emission direction).length = token.finish := by
        rw [hlength token (by simp), hstays, Token.finish]
      obtain ⟨hsteady, rfl⟩ := ih hfinish
        (fun other hother => hguarded other (by simp [hother]))
        (fun other hother => hlength other (by simp [hother]))
      have hcount : token.column - width = count := by omega
      refine ⟨?_, by rw [Row.lineFrom, hcount]⟩
      intro other hother
      rcases List.mem_cons.mp hother with rfl | hother
      · rw [hcolumn, hstays]
      · exact hsteady other hother

end TlaGlyph
