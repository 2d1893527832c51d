import TlaGlyph.Conversion
import TlaGlyph.Proofs.Grid.Scan
import TlaGlyph.Proofs.Line.Placement

namespace TlaGlyph

namespace Token

-- The token as the lexer gives it.
def bare (token : Token) : Token := { token with outputColumn := none, anchor := none }

@[simp] theorem bare_kind (token : Token) : token.bare.kind = token.kind := rfl
@[simp] theorem bare_text (token : Token) : token.bare.text = token.text := rfl
@[simp] theorem bare_column (token : Token) : token.bare.column = token.column := rfl
@[simp] theorem bare_width (token : Token) : token.bare.width = token.width := rfl
@[simp] theorem bare_finish (token : Token) : token.bare.finish = token.finish := rfl
@[simp] theorem bare_spelling (token : Token) : token.bare.spelling = token.spelling := rfl
@[simp] theorem bare_isComment (token : Token) : token.bare.isComment = token.isComment := rfl
@[simp] theorem bare_commentKind? (token : Token) :
    token.bare.commentKind? = token.commentKind? := rfl
@[simp] theorem unwritten_bare (token : Token) : token.unwritten.bare = token.bare := rfl
@[simp] theorem bare_emission (direction : Direction) (token : Token) :
    token.bare.emission direction = token.emission direction := rfl

end Token

namespace Row

-- The tokens of the row as the lexer gives them.
def bare (row : Row) : Row := row.map Token.bare

-- Every token begins behind the one in front of it, the first one not before `stop`, and every token
-- that another one follows is as wide as it is spelled.
def Measured : Nat → Row → Prop
  | _, [] => True
  | stop, token :: rest =>
    stop ≤ token.column ∧ 0 < token.width ∧
      (rest ≠ [] → token.width = token.spelling.length) ∧ Measured token.finish rest

theorem measured_bare {stop : Nat} {row : Row} : row.bare.Measured stop ↔ row.Measured stop := by
  induction row generalizing stop with
  | nil => rfl
  | cons token rest ih =>
      have hrest : bare rest ≠ [] ↔ rest ≠ [] := by simp [bare]
      change (stop ≤ token.column ∧ 0 < token.width ∧
        (bare rest ≠ [] → token.width = token.spelling.length) ∧
          (bare rest).Measured token.finish) ↔ _
      rw [hrest, ih]
      rfl

theorem Measured.le_of_mem {stop : Nat} {row : Row} (h : row.Measured stop) {token : Token}
    (htoken : token ∈ row) : stop ≤ token.column := by
  induction row generalizing stop with
  | nil => cases htoken
  | cons head rest ih =>
      obtain ⟨hstop, -, -, hrest⟩ := h
      rcases List.mem_cons.mp htoken with rfl | htoken
      · exact hstop
      · have := ih hrest htoken
        unfold Token.finish at this
        omega

-- Tokens of a row begin at columns of their own.
theorem Measured.pairwise_column {stop : Nat} {row : Row} (h : row.Measured stop) :
    row.Pairwise (·.column < ·.column) := by
  induction row generalizing stop with
  | nil => exact .nil
  | cons token rest ih =>
      obtain ⟨-, hpos, -, hrest⟩ := h
      refine .cons (fun other hother => ?_) (ih hrest)
      have hle := hrest.le_of_mem hother
      unfold Token.finish at hle
      omega

theorem measured_cons_ofText {stop column : Nat} {kind : Kind} {text : Text} {rest : Row}
    (hstop : stop ≤ column) (hpos : 0 < text.length + Token.markWidth kind)
    (hrest : rest.Measured (column + (text.length + Token.markWidth kind))) :
    Measured stop (Token.ofText kind text column :: rest) :=
  ⟨hstop, hpos, fun _ => Token.ofText_width kind text column, hrest⟩

-- Only a block comment that ends a line comment is spelled without its text.
theorem splitLineComment_cases (column : Nat) (text : Text) :
    splitLineComment column text = [Token.ofText (.comment .line) text column] ∨
      ∃ before after body rest, Text.splitAt? ['(', '*'] text = some (before, after) ∧
        Comment.read 1 after = .closed body rest ∧ rest.all Text.isBlank = true ∧
        splitLineComment column text = [Token.ofText (.comment .line) before column,
          { Token.ofText (.comment .whole) body (column + (before.length + 2)) with text := [] }] := by
  unfold splitLineComment
  simp only
  split
  · exact .inl rfl
  · next before after hsplit =>
    split
    · next body rest hread =>
      split
      · next hblank => exact .inr ⟨before, after, body, rest, hsplit, hread, hblank, rfl⟩
      · exact .inl rfl
    · exact .inl rfl

-- Where the line comment stands makes no difference to whether it is split.
theorem splitLineComment_whole {start : Nat} {text : Text}
    (h : splitLineComment start text = [Token.ofText (.comment .line) text start]) (column : Nat) :
    splitLineComment column text = [Token.ofText (.comment .line) text column] := by
  unfold splitLineComment at h ⊢
  simp only at h ⊢
  split
  · rfl
  · next before after hsplit =>
    simp only [hsplit] at h
    split
    · next body rest hread =>
      simp only [hread] at h
      split at h
      · cases congrArg List.length h
      · next hblank => rw [if_neg hblank]
    · rfl

theorem measured_splitLineComment {stop column : Nat} (hstop : stop ≤ column) (text : Text) :
    (splitLineComment column text).Measured stop := by
  rcases splitLineComment_cases column text with hwhole | ⟨before, -, body, -, -, -, -, hsplit⟩
  · rw [hwhole]
    exact measured_cons_ofText hstop (Nat.succ_pos _) trivial
  · rw [hsplit]
    refine measured_cons_ofText hstop (Nat.succ_pos _) ?_
    refine ⟨Nat.le_refl _, ?_, fun hne => absurd rfl hne, trivial⟩
    simp only [Token.ofText, Token.markWidth, Kind.openMark, CommentKind.openMark,
      List.length_cons]
    omega

theorem Scans.measured {column stop depth : Nat} {text : Text} {row : Row}
    (h : Scans column text row depth) (hstop : stop ≤ column) : row.Measured stop := by
  induction h generalizing stop with
  | nil => trivial
  | @plain column kind gap text rest row depth hgap hplain hrest ih =>
      have hwidth := Kind.markWidth_of_isPlain hplain.isPlain
      have hpos := List.length_pos_iff.mpr hplain.ne_nil
      exact measured_cons_ofText (by omega) (by omega) (ih (by omega))
  | string hgap htext hrest ih =>
      exact measured_cons_ofText (by omega) (Nat.succ_pos _) (ih (Nat.le_refl _))
  | broken hgap htext hstop hquote hrest ih =>
      exact measured_cons_ofText (by omega) (Nat.succ_pos _) (ih (Nat.le_refl _))
  | whole hgap htext hrest ih =>
      exact measured_cons_ofText (by omega) (Nat.succ_pos _) (ih (Nat.le_refl _))
  | opening hgap hread => exact measured_cons_ofText (by omega) (Nat.succ_pos _) trivial
  | line hgap hline hrest => exact measured_splitLineComment (by omega) _

theorem ScansLine.measured {depth left : Nat} {line : Text} {row : Row}
    (h : ScansLine depth line row left) : row.Measured 0 := by
  cases h with
  | code hrest => exact hrest.measured (Nat.le_refl 0)
  | closing hdepth htext hrest =>
      exact measured_cons_ofText (Nat.le_refl 0) (Nat.succ_pos _)
        (hrest.measured (Nat.le_of_eq (Nat.zero_add _)))
  | inside hdepth hne hread =>
      exact measured_cons_ofText (Nat.le_refl 0) (List.length_pos_iff.mpr hne) trivial
  | blank hdepth => trivial

theorem measured_ofLine (depth : Nat) (line : Text) : (ofLine depth line).1.Measured 0 :=
  (ofLine_scans depth line).measured

theorem Scans.bare_eq {column depth : Nat} {text : Text} {row : Row}
    (h : Scans column text row depth) : row.bare = row := by
  induction h with
  | nil | opening => rfl
  | plain hgap hplain hrest ih => exact congrArg (List.cons _) ih
  | string hgap htext hrest ih => exact congrArg (List.cons _) ih
  | broken hgap htext hstop hquote hrest ih => exact congrArg (List.cons _) ih
  | whole hgap htext hrest ih => exact congrArg (List.cons _) ih
  | @line column gap text rest hgap hline hrest =>
      rcases splitLineComment_cases (column + gap.length) text with
        hwhole | ⟨before, -, body, -, -, -, -, hsplit⟩
      · rw [hwhole]
        rfl
      · rw [hsplit]
        rfl

theorem ScansLine.bare_eq {depth left : Nat} {line : Text} {row : Row}
    (h : ScansLine depth line row left) : row.bare = row := by
  cases h with
  | code hrest => exact hrest.bare_eq
  | closing hdepth htext hrest => exact congrArg (List.cons _) hrest.bare_eq
  | inside | blank => rfl

theorem bare_ofLine (depth : Nat) (line : Text) : (ofLine depth line).1.bare = (ofLine depth line).1 :=
  (ofLine_scans depth line).bare_eq

theorem checkComments_bare (line item : Nat) (isOpen : Bool) (row : Row) :
    row.bare.checkComments line item isOpen = row.checkComments line item isOpen := by
  induction row generalizing item isOpen with
  | nil => rfl
  | cons token rest ih =>
      change checkComments line item isOpen (token.bare :: bare rest) = _
      unfold checkComments
      simp only [Token.bare_commentKind?, ih]

theorem checkComments_splitLineComment (line item column : Nat) (text : Text) :
    (splitLineComment column text).checkComments line item false = .ok false := by
  rcases splitLineComment_cases column text with hwhole | ⟨before, -, body, -, -, -, -, hsplit⟩
  · rw [hwhole]
    rfl
  · rw [hsplit]
    rfl

theorem Scans.checkComments {column depth : Nat} {text : Text} {row : Row}
    (h : Scans column text row depth) (line item : Nat) :
    row.checkComments line item false = .ok (decide (0 < depth)) := by
  induction h generalizing item with
  | nil => rfl
  | @plain column kind gap text rest row depth hgap hplain hrest ih =>
      obtain ⟨-, -, hnone⟩ := Kind.of_isPlain hplain.isPlain
      simpa only [Row.checkComments, Token.commentKind?, Token.ofText, hnone] using ih (item + 1)
  | string hgap htext hrest ih => exact ih (item + 1)
  | broken hgap htext hstop hquote hrest ih => exact ih (item + 1)
  | whole hgap htext hrest ih => exact ih (item + 1)
  | opening hgap hread =>
      have hpos := Comment.pos_of_read_eq_unclosed (by decide) hread
      simp [Row.checkComments, Token.commentKind?, Token.ofText, Kind.commentKind?, hpos]
  | line hgap hline hrest => exact checkComments_splitLineComment line item _ _

theorem checkComments_ofLine (depth : Nat) (text : Text) (line item : Nat) :
    (ofLine depth text).1.checkComments line item (decide (0 < depth)) =
      .ok (decide (0 < (ofLine depth text).2)) := by
  have h := ofLine_scans depth text
  generalize (ofLine depth text).1 = row at h ⊢
  generalize (ofLine depth text).2 = left at h ⊢
  cases h with
  | code hrest => exact hrest.checkComments line item
  | closing hdepth htext hrest =>
      rw [decide_eq_true hdepth]
      exact hrest.checkComments line (item + 1)
  | inside hdepth hne hread =>
      have hpos := Comment.pos_of_read_eq_unclosed hdepth hread
      rw [decide_eq_true hdepth, decide_eq_true hpos]
      rfl
  | blank hdepth => rfl

end Row

end TlaGlyph
