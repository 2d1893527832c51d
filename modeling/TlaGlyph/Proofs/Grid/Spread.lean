import TlaGlyph.Proofs.Comment.Nesting
import TlaGlyph.Proofs.Grid.Measure

namespace TlaGlyph

open Lexeme (isGap)

namespace Token

-- What stands on the line where the token stands.
def span (input : Text) (token : Token) : Text := (input.drop token.column).take token.width

-- The token covers `text` on the line, and from `column` on there are only gaps in front of it.
structure StandsOn (input : Text) (column : Nat) (token : Token) (text : Text) : Prop where
  pos_width : 0 < token.width
  le_column : column ≤ token.column
  finish_le : token.finish ≤ input.length
  span_eq : token.span input = text
  isGap : ∀ (place : Nat) (c : Char), column ≤ place → place < token.column →
    input[place]? = some c → isGap c = true

variable {column : Nat} {input gap text rest : Text} {token : Token}

theorem drop_column (hdrop : input.drop column = gap ++ (text ++ rest))
    (hcolumn : token.column = column + gap.length) : input.drop token.column = text ++ rest := by
  rw [hcolumn, ← List.drop_drop, hdrop, List.drop_left]

theorem drop_finish (hdrop : input.drop column = gap ++ (text ++ rest))
    (hcolumn : token.column = column + gap.length) (hwidth : token.width = text.length) :
    input.drop token.finish = rest := by
  rw [finish, ← List.drop_drop, drop_column hdrop hcolumn, hwidth, List.drop_left]

theorem standsOn (hdrop : input.drop column = gap ++ (text ++ rest)) (hgap : gap.all isGap = true)
    (hcolumn : token.column = column + gap.length) (hpos : 0 < token.width)
    (hwidth : token.width = text.length) : token.StandsOn input column text where
  pos_width := hpos
  le_column := by omega
  finish_le := by
    have hlength := congrArg List.length hdrop
    simp only [List.length_drop, List.length_append] at hlength
    rw [finish]
    omega
  span_eq := by rw [span, drop_column hdrop hcolumn, hwidth, List.take_left]
  isGap := by
    intro place c hle hlt hc
    obtain ⟨ahead, rfl⟩ := Nat.exists_eq_add_of_le hle
    rw [← List.getElem?_drop, hdrop, List.getElem?_append_left (by omega)] at hc
    exact List.all_eq_true.mp hgap c (List.mem_of_getElem? hc)

end Token

namespace Row

-- The token is a block comment that ends the row and that a line comment was cut off in front of. It
-- is the only one that has a text other than the one on its line.
def SplitsOff (row : Row) (block : Token) : Prop :=
  ∃ (before : Row) (comment : Token), row = before ++ [comment, block] ∧
    comment.kind = .comment .line ∧ comment.finish = block.column ∧
    block.kind = .comment .whole ∧ block.text = []

theorem SplitsOff.cons {row : Row} {block : Token} (h : row.SplitsOff block) (token : Token) :
    SplitsOff (token :: row) block := by
  obtain ⟨before, comment, rfl, hblock⟩ := h
  exact ⟨token :: before, comment, rfl, hblock⟩

-- From `column` on the line falls into gaps and what its tokens stand on.
inductive Spread (input : Text) : Nat → Row → Prop
  | nil {column : Nat} (hgap : (input.drop column).all isGap = true) : Spread input column []
  | cons {column : Nat} {token : Token} {row : Row}
      (htoken : token.StandsOn input column token.spelling)
      (hcomplete : token.kind = .comment .whole → Comment.Complete token.spelling)
      (hrest : Spread input token.finish row) : Spread input column (token :: row)
  | split {column : Nat} {text : Text} {comment block : Token}
      (hcomment : comment.StandsOn input column comment.spelling)
      (hblock : block.StandsOn input comment.finish text) (hcomplete : Comment.Complete text)
      (hline : comment.kind = .comment .line) (hwhole : block.kind = .comment .whole)
      (htext : block.text = []) (hcolumn : comment.finish = block.column)
      (hblank : (input.drop block.finish).all Text.isBlank = true) :
      Spread input column [comment, block]

section Spread

variable {input : Text} {column : Nat} {row : Row}

theorem Spread.le_column (h : Spread input column row) : ∀ token ∈ row, column ≤ token.column := by
  induction h with
  | nil => nofun
  | cons htoken hcomplete hrest ih =>
      rintro token (_ | ⟨_, hmem⟩)
      · exact htoken.le_column
      · exact Nat.le_trans (Nat.le_trans htoken.le_column (Nat.le_add_right _ _)) (ih token hmem)
  | split hcomment hblock =>
      rintro token (_ | ⟨_, _ | ⟨_, ⟨⟩⟩⟩)
      · exact hcomment.le_column
      · exact Nat.le_trans (Nat.le_trans hcomment.le_column (Nat.le_add_right _ _)) hblock.le_column

theorem Spread.ordered (h : Spread input column row) :
    row.Pairwise fun token next => token.finish ≤ next.column := by
  induction h with
  | nil => exact .nil
  | cons htoken hcomplete hrest ih => exact .cons hrest.le_column ih
  | split hcomment hblock => exact .cons (by simpa using hblock.le_column) (List.pairwise_singleton _ _)

theorem Spread.standsOn (h : Spread input column row) :
    ∀ token ∈ row, ∃ column text, token.StandsOn input column text ∧
      (text = token.spelling ∨ row.SplitsOff token) ∧
      (token.kind = .comment .whole → Comment.Complete text) := by
  induction h with
  | nil => nofun
  | cons htoken hcomplete hrest ih =>
      rintro token (_ | ⟨_, hmem⟩)
      · exact ⟨_, _, htoken, .inl rfl, hcomplete⟩
      · obtain ⟨column, text, hstands, htext, hwhole⟩ := ih token hmem
        exact ⟨column, text, hstands, htext.imp_right fun h => h.cons _, hwhole⟩
  | split hcomment hblock hcomplete hline hwhole htext hcolumn =>
      rintro token (_ | ⟨_, _ | ⟨_, ⟨⟩⟩⟩)
      · exact ⟨_, _, hcomment, .inl rfl, fun hother => nomatch hline.symm.trans hother⟩
      · exact ⟨_, _, hblock, .inr ⟨[], _, rfl, hline, hcolumn, hwhole, htext⟩, fun _ => hcomplete⟩

-- A character is in a token, or it is in front of the first one, or it is behind the last one.
theorem Spread.covered (h : Spread input column row) {place : Nat} {c : Char} (hle : column ≤ place)
    (hc : input[place]? = some c) :
    (∃ token ∈ row, token.column ≤ place ∧ place < token.finish) ∨ isGap c = true ∨
      ∃ block, row.SplitsOff block ∧ block.finish ≤ place ∧
        (input.drop block.finish).all Text.isBlank = true := by
  induction h with
  | @nil column hgap =>
      obtain ⟨ahead, rfl⟩ := Nat.exists_eq_add_of_le hle
      rw [← List.getElem?_drop] at hc
      exact .inr (.inl (List.all_eq_true.mp hgap c (List.mem_of_getElem? hc)))
  | @cons column token row htoken hcomplete hrest ih =>
      rcases Nat.lt_or_ge place token.column with hlt | hge
      · exact .inr (.inl (htoken.isGap place c hle hlt hc))
      rcases Nat.lt_or_ge place token.finish with hlt | hfinish
      · exact .inl ⟨token, .head _, hge, hlt⟩
      rcases ih hfinish with ⟨other, hother, hplace⟩ | hgap | ⟨block, hsplits, hblock⟩
      · exact .inl ⟨other, .tail _ hother, hplace⟩
      · exact .inr (.inl hgap)
      · exact .inr (.inr ⟨block, hsplits.cons token, hblock⟩)
  | @split column text comment block hcomment hblock hcomplete hline hwhole htext hcolumn hblank =>
      rcases Nat.lt_or_ge place comment.column with hlt | hge
      · exact .inr (.inl (hcomment.isGap place c hle hlt hc))
      rcases Nat.lt_or_ge place comment.finish with hlt | hfinish
      · exact .inl ⟨comment, by simp, hge, hlt⟩
      rcases Nat.lt_or_ge place block.finish with hlt | hbehind
      · exact .inl ⟨block, by simp, by omega, hlt⟩
      · refine .inr (.inr ⟨block, ?_, hbehind, hblank⟩)
        exact ⟨[], comment, rfl, hline, hcolumn, hwhole, htext⟩

theorem spread_cons_ofText {kind : Kind} (gap : Text) {text : Text} (rest : Text)
    (hdrop : input.drop column = gap ++ (kind.openMark ++ (text ++ (kind.closeMark ++ rest))))
    (hgap : gap.all isGap = true) (hpos : 0 < text.length + Token.markWidth kind)
    (hcomplete : kind = .comment .whole → Comment.Inside 1 text)
    (hrest : input.drop (column + gap.length + (text.length + Token.markWidth kind)) = rest →
      Spread input (column + gap.length + (text.length + Token.markWidth kind)) row) :
    Spread input column (Token.ofText kind text (column + gap.length) :: row) := by
  have hwidth := Token.ofText_width kind text (column + gap.length)
  have hspelling : input.drop column =
      gap ++ ((Token.ofText kind text (column + gap.length)).spelling ++ rest) := by
    rw [hdrop, Token.spelling, List.append_assoc, List.append_assoc]
    rfl
  refine .cons (Token.standsOn hspelling hgap rfl hpos hwidth) ?_
    (hrest (Token.drop_finish hspelling rfl hwidth))
  rintro rfl
  exact (hcomplete rfl).complete

-- The token takes the line to its end.
theorem spread_singleton_ofText {kind : Kind} (gap : Text) {text : Text}
    (hclose : kind.closeMark = []) (hdrop : input.drop column = gap ++ (kind.openMark ++ text))
    (hgap : gap.all isGap = true) (hpos : 0 < text.length + Token.markWidth kind) :
    Spread input column [Token.ofText kind text (column + gap.length)] := by
  refine spread_cons_ofText gap [] ?_ hgap hpos ?_ fun hrest => .nil (by rw [hrest]; rfl)
  · rw [hdrop, hclose, List.append_nil, List.append_nil]
  · rintro rfl
    cases hclose

theorem spread_splitLineComment {gap text : Text}
    (hdrop : input.drop column = gap ++ ('\\' :: '*' :: text)) (hgap : gap.all isGap = true) :
    Spread input column (splitLineComment (column + gap.length) text) := by
  rcases splitLineComment_cases (column + gap.length) text with
    hsame | ⟨before, after, body, rest, hsplit, hread, hblank, hpair⟩
  · rw [hsame]
    exact spread_singleton_ofText gap rfl hdrop hgap (Nat.succ_pos _)
  · obtain rfl := Text.eq_of_splitAt? hsplit
    obtain rfl := Comment.eq_of_read_eq_closed hread
    have hcomplete := (Comment.inside_of_read hread).complete
    generalize hspan : '(' :: '*' :: (body ++ ['*', ')']) = span at hcomplete
    let comment := Token.ofText (.comment .line) before (column + gap.length)
    let block := { Token.ofText (.comment .whole) body comment.finish with text := [] }
    have hcomment : input.drop column = gap ++ (comment.spelling ++ (span ++ rest)) := by
      simp [hdrop, ← hspan, comment, Token.spelling, Token.ofText, Kind.openMark, Kind.closeMark,
        CommentKind.openMark, CommentKind.closeMark]
    have hwidth : comment.width = comment.spelling.length := Token.ofText_width _ _ _
    -- the block stands right behind what is left of the line comment
    have hblock : input.drop comment.finish = [] ++ (span ++ rest) :=
      Token.drop_finish hcomment rfl hwidth
    have hlength : block.width = span.length := by simp [← hspan, block, Token.ofText, Token.markWidth,
      Kind.openMark, Kind.closeMark, CommentKind.openMark, CommentKind.closeMark]
    have hbehind : input.drop block.finish = rest := Token.drop_finish hblock rfl hlength
    rw [hpair]
    refine .split (Token.standsOn hcomment hgap rfl (Nat.succ_pos _) hwidth)
      (Token.standsOn hblock rfl rfl (Nat.succ_pos _) hlength) hcomplete rfl rfl rfl rfl ?_
    exact (congrArg (List.all · Text.isBlank) hbehind).trans hblank

theorem Scans.spread {text : Text} {depth : Nat} (h : Scans column text row depth)
    (hdrop : input.drop column = text) (hline : '\n' ∉ input) : Spread input column row := by
  induction h with
  | nil hgap => exact .nil (by rw [hdrop, hgap])
  | @plain column kind gap text rest row depth hgap hplain hrest ih =>
      obtain ⟨hopen, hclose, hnone⟩ := Kind.of_isPlain hplain.isPlain
      have hmarks := Kind.markWidth_of_isPlain hplain.isPlain
      have hpos := List.length_pos_iff.mpr hplain.ne_nil
      refine spread_cons_ofText gap rest ?_ hgap (by omega) ?_ (by rwa [hmarks])
      · rw [hdrop, hopen, hclose]
        rfl
      · rintro rfl
        cases hnone
  | @string _ gap _ rest _ _ hgap htext hrest ih =>
      exact spread_cons_ofText gap rest hdrop hgap (Nat.succ_pos _) (by simp) ih
  | @broken _ gap text rest _ _ hgap htext hstop hquote hrest ih =>
      exact spread_cons_ofText gap rest hdrop hgap (Nat.succ_pos _) (by simp) ih
  | @whole _ gap _ rest _ _ hgap htext hrest ih =>
      exact spread_cons_ofText gap rest hdrop hgap (Nat.succ_pos _) (fun _ => htext) ih
  | @opening _ gap text _ hgap hread =>
      exact spread_singleton_ofText gap rfl hdrop hgap (Nat.succ_pos _)
  | @line column gap text rest hgap hbody hrest =>
      obtain rfl : rest = [] := by
        cases rest with
        | nil => rfl
        | cons c rest =>
            obtain rfl : c = '\n' := by simpa using hrest
            exact absurd (List.mem_of_mem_drop (i := column) (by simp [hdrop])) hline
      rw [List.append_nil] at hdrop
      exact spread_splitLineComment hdrop hgap

theorem ScansLine.spread {depth left : Nat} (h : ScansLine depth input row left)
    (hline : '\n' ∉ input) : Spread input 0 row := by
  cases h with
  | code hrest => exact hrest.spread rfl hline
  | @closing depth left text rest row hdepth htext hrest =>
      refine spread_cons_ofText [] rest rfl rfl (Nat.succ_pos _) nofun fun hdrop => ?_
      have hstart : 0 + ([] : Text).length + (text.length + Token.markWidth (.comment .closing)) =
          text.length + 2 := Nat.zero_add _
      rw [hstart] at hdrop ⊢
      exact hrest.spread hdrop hline
  | inside hdepth hne hread =>
      exact spread_singleton_ofText [] rfl rfl rfl (List.length_pos_iff.mpr hne)
  | blank hdepth => exact .nil rfl

end Spread

-- What a row says about its line. Each character is in a token, or it is a gap, or it is white
-- space at the end of the line, behind the block comment that was cut off.
structure Covers (input : Text) (row : Row) : Prop where
  pos_width : ∀ token ∈ row, 0 < token.width
  ordered : row.Pairwise fun token next => token.finish ≤ next.column
  finish_le : ∀ token ∈ row, token.finish ≤ input.length
  span_eq : ∀ token ∈ row, token.span input = token.spelling ∨
    row.SplitsOff token ∧ Comment.Complete (token.span input)
  covered : ∀ (column : Nat) (c : Char), input[column]? = some c →
    (∃ token ∈ row, token.column ≤ column ∧ column < token.finish) ∨ isGap c = true ∨
      ∃ block, row.SplitsOff block ∧ block.finish ≤ column ∧
        (input.drop block.finish).all Text.isBlank = true

-- No character of a line is lost, however many comments are open in front of it.
theorem covers_ofLine (depth : Nat) {line : Text} (hline : '\n' ∉ line) :
    (ofLine depth line).1.Covers line := by
  have hspread := (ofLine_scans depth line).spread hline
  refine ⟨?_, hspread.ordered, ?_, ?_, fun column c hc => hspread.covered (Nat.zero_le _) hc⟩
  · intro token htoken
    obtain ⟨_, _, hstands, -⟩ := hspread.standsOn token htoken
    exact hstands.pos_width
  · intro token htoken
    obtain ⟨_, _, hstands, -⟩ := hspread.standsOn token htoken
    exact hstands.finish_le
  · intro token htoken
    obtain ⟨_, text, hstands, htext | hsplits, hcomplete⟩ := hspread.standsOn token htoken
    · exact .inl (hstands.span_eq.trans htext)
    · obtain ⟨-, -, -, -, -, hwhole, -⟩ := id hsplits
      exact .inr ⟨hsplits, hstands.span_eq ▸ hcomplete hwhole⟩

-- The block at the end has no text, and what it covers is a comment.
theorem covers_ofLine_of_block :
    '\n' ∉ "a *) x \\* (* b *) ".toList ∧
      ∃ row, (ofLine 1 "a *) x \\* (* b *) ".toList).1 = row ∧
        row = [⟨.comment .closing, "a ".toList, 0, 4, none, none⟩, ⟨.ident, ['x'], 5, 1, none, none⟩,
          ⟨.comment .line, [' '], 7, 3, none, none⟩, ⟨.comment .whole, [], 10, 7, none, none⟩] ∧
        row.Covers "a *) x \\* (* b *) ".toList :=
  ⟨by decide +kernel, _, rfl, by decide +kernel, covers_ofLine 1 (by decide +kernel)⟩

end Row

end TlaGlyph
