import TlaGlyph.Proofs.Line.Reread

namespace TlaGlyph

namespace Token

theorem stable_of_plain {token : Token} (hplain : Plain token.kind token.text) : token.Stable := by
  obtain ⟨hopen, hclose, hnone⟩ := Kind.of_isPlain hplain.isPlain
  have hcode : token.isComment = false := by simp [isComment, Kind.isComment, hnone]
  have hspelling : token.spelling = token.text := by simp [spelling, hopen, hclose]
  have hemission : token.emission .toUnicode = token.text ∨
      ∃ symbol ∈ Symbol.table, token.emission .toUnicode = [symbol.glyph] := by
    unfold emission
    split
    · cases hglyph : Symbol.convert? .toUnicode token.text with
      | none => exact .inl rfl
      | some image =>
          obtain ⟨symbol, hmem, rfl, -⟩ := Symbol.exists_of_glyph? hglyph
          exact .inr ⟨symbol, hmem, rfl⟩
    · next kind hkind =>
      rw [isComment, hkind] at hcode
      cases hcode
    · exact .inl hspelling
  rcases hemission with htext | ⟨symbol, hmem, hglyph⟩
  · exact .plain hcode (htext ▸ hplain.ne_nil) (htext ▸ hplain.unmarked)
  · exact .plain hcode (by simp [hglyph]) (hglyph ▸ Symbol.unmarked_glyph symbol hmem)

theorem Stable.of_bare {token : Token} (h : token.bare.Stable) : token.Stable := by
  cases h with
  | plain hkind hne hunmarked => exact .plain hkind hne hunmarked
  | string hkind htext => exact .string hkind htext
  | whole hkind htext => exact .whole hkind htext

end Token

namespace Row

-- What may stand at the end of a row and is not read for itself. As many comments are open behind it.
inductive Ends : Row → Nat → Prop
  | nil : Ends [] 0
  | opening {text : Text} {column depth : Nat} (hread : Comment.read 1 text = .unclosed depth) :
      Ends [Token.ofText (.comment .opening) text column] depth
  | line {text : Text} {column : Nat} (hline : '\n' ∉ text)
      (hwhole : splitLineComment column text = [Token.ofText (.comment .line) text column]) :
      Ends [Token.ofText (.comment .line) text column] 0
  -- the block comment at the end of a line comment
  | split {text before after : Text} {column : Nat} {block : Token} (hline : '\n' ∉ text)
      (hsplit : Text.splitAt? ['(', '*'] text = some (before, after))
      (hkind : block.kind = .comment .whole) (htext : block.text = []) :
      Ends [Token.ofText (.comment .line) before column, block] 0

theorem Scans.exists_ends {column depth : Nat} {text : Text} {row : Row}
    (h : Scans column text row depth) (hquote : ∀ token ∈ row, token.isBrokenString = false) :
    ∃ stable back, row = stable ++ back ∧ (∀ token ∈ stable, token.Stable) ∧ Ends back depth := by
  have hcons {token : Token} {row : Row} {depth : Nat} (hstable : token.Stable)
      (hrest : ∃ stable back, row = stable ++ back ∧ (∀ token ∈ stable, token.Stable) ∧
        Ends back depth) :
      ∃ stable back, token :: row = stable ++ back ∧ (∀ token ∈ stable, token.Stable) ∧
        Ends back depth := by
    obtain ⟨stable, back, rfl, hall, hends⟩ := hrest
    exact ⟨token :: stable, back, rfl, by simpa [hstable] using hall, hends⟩
  induction h with
  | nil => exact ⟨[], [], rfl, by simp, .nil⟩
  | plain hgap hplain hrest ih =>
      exact hcons (Token.stable_of_plain hplain)
        (ih fun token htoken => hquote token (List.mem_cons_of_mem _ htoken))
  | string hgap htext hrest ih =>
      exact hcons (.string rfl htext)
        (ih fun token htoken => hquote token (List.mem_cons_of_mem _ htoken))
  | broken => exact absurd (hquote _ List.mem_cons_self) nofun
  | whole hgap htext hrest ih =>
      exact hcons (.whole rfl htext)
        (ih fun token htoken => hquote token (List.mem_cons_of_mem _ htoken))
  | opening hgap hread => exact ⟨[], _, rfl, by simp, .opening hread⟩
  | @line column gap text rest hgap hline hrest =>
      refine ⟨[], splitLineComment (column + gap.length) text, rfl, by simp, ?_⟩
      rcases splitLineComment_cases (column + gap.length) text with
        hwhole | ⟨before, after, body, rest, hsplit, -, -, hpair⟩
      · rw [hwhole]
        exact .line hline hwhole
      · rw [hpair]
        exact .split hline hsplit rfl rfl

-- Comments in front of another token have come to their end.
theorem Scans.exists_behind {column depth : Nat} {text : Text} {comments row : Row} {code : Token}
    (h : Scans column text (comments ++ code :: row) depth)
    (hcomments : ∀ comment ∈ comments, comment.isComment = true) (hcode : code.isComment = false) :
    (∀ comment ∈ comments, comment.kind = .comment .whole ∧ Comment.Inside 1 comment.text) ∧
      ∃ column rest, rest <:+ text ∧ Scans column rest (code :: row) depth := by
  induction comments generalizing column text with
  | nil => exact ⟨by simp, column, text, List.suffix_rfl, h⟩
  | cons comment comments ih =>
      have hcomment := hcomments comment (by simp)
      have hrest (other : Token) (hother : other ∈ comments) : other.isComment = true :=
        hcomments other (List.mem_cons_of_mem _ hother)
      generalize hrow : comment :: comments ++ code :: row = whole at h
      rw [List.cons_append] at hrow
      cases h with
      | nil => cases hrow
      | plain hgap hplain hscan =>
          obtain ⟨rfl, -⟩ := List.cons.inj hrow
          simp [Token.isComment, Token.ofText, Kind.isComment,
            (Kind.of_isPlain hplain.isPlain).2.2] at hcomment
      | string hgap htext hscan =>
          obtain ⟨rfl, -⟩ := List.cons.inj hrow
          cases hcomment
      | broken hgap htext hstop hquote hscan =>
          obtain ⟨rfl, -⟩ := List.cons.inj hrow
          cases hcomment
      | @whole _ gap text rest _ _ hgap htext hscan =>
          obtain ⟨rfl, rfl⟩ := List.cons.inj hrow
          obtain ⟨hwhole, start, behind, hsuffix, hbehind⟩ := ih hscan hrest
          refine ⟨by simpa [Token.ofText, htext] using hwhole, start, behind, hsuffix.trans ?_, hbehind⟩
          exact ⟨gap ++ '(' :: '*' :: (text ++ ['*', ')']), by simp⟩
      | opening hgap hread =>
          obtain ⟨-, hnil⟩ := List.cons.inj hrow
          simp at hnil
      | @line _ gap text rest hgap hline hend =>
          rcases splitLineComment_cases (column + gap.length) text with
            hwhole | ⟨before, after, body, last, -, -, -, hpair⟩
          · rw [hwhole] at hrow
            simp at hrow
          · rw [hpair] at hrow
            cases comments with
            | nil =>
                obtain ⟨-, hlast⟩ := List.cons.inj hrow
                obtain ⟨rfl, -⟩ := List.cons.inj hlast
                cases hcode
            | cons => simp at hrow

-- The comments that a row may begin with, if something else follows them. On a line that begins inside
-- of comments the first one closes all of these.
inductive Leading : Nat → Row → Prop
  | whole {comments : Row}
      (hwhole : ∀ comment ∈ comments,
        comment.kind = .comment .whole ∧ Comment.Inside 1 comment.text) : Leading 0 comments
  | closing {depth : Nat} {first : Token} {comments : Row} (hdepth : 0 < depth)
      (hkind : first.kind = .comment .closing) (htext : Comment.Inside depth first.text)
      (hwhole : ∀ comment ∈ comments,
        comment.kind = .comment .whole ∧ Comment.Inside 1 comment.text) :
      Leading depth (first :: comments)

theorem ScansLine.leading {depth left : Nat} {line : Text} {comments row : Row} {code : Token}
    (h : ScansLine depth line (comments ++ code :: row) left)
    (hcomments : ∀ comment ∈ comments, comment.isComment = true) (hcode : code.isComment = false) :
    Leading depth comments ∧
      ∃ column rest, rest <:+ line ∧ Scans column rest (code :: row) left := by
  generalize hrow : comments ++ code :: row = whole at h
  cases h with
  | code hscan =>
      subst hrow
      obtain ⟨hwhole, hbehind⟩ := hscan.exists_behind hcomments hcode
      exact ⟨.whole hwhole, hbehind⟩
  | @closing _ _ text rest _ hdepth htext hscan =>
      cases comments with
      | nil =>
          obtain ⟨rfl, -⟩ := List.cons.inj hrow
          cases hcode
      | cons first comments =>
          obtain ⟨rfl, rfl⟩ := List.cons.inj hrow
          obtain ⟨hwhole, start, behind, hsuffix, hbehind⟩ := hscan.exists_behind
            (fun comment hcomment => hcomments comment (List.mem_cons_of_mem _ hcomment)) hcode
          refine ⟨.closing hdepth rfl htext hwhole, start, behind, hsuffix.trans ?_, hbehind⟩
          exact ⟨text ++ ['*', ')'], by simp⟩
  | inside hdepth hne hread =>
      cases comments with
      | nil =>
          obtain ⟨rfl, -⟩ := List.cons.inj hrow
          cases hcode
      | cons first comments => simp at hrow
  | blank hdepth => simp at hrow

-- What stays in front tells whether the line begins inside of comments.
theorem Leading.front_eq {depth : Nat} {comments : Row} (h : Leading depth comments) :
    comments.front = if depth = 0 then [] else ['*', ')'] := by
  cases h with
  | whole hwhole =>
      cases comments with
      | nil => rfl
      | cons first comments =>
          have hkind := (hwhole first (by simp)).1
          simp [front, hkind]
  | closing hdepth hkind htext hwhole =>
      rw [if_neg (by omega)]
      simp [front, hkind]

theorem Leading.inside {depth : Nat} {comments : Row} (h : Leading depth comments)
    (hdepth : depth ≤ 1) : ∀ comment ∈ comments, Comment.Inside 1 comment.text := by
  cases h with
  | whole hwhole => exact fun comment hcomment => (hwhole comment hcomment).2
  | closing hpos hkind htext hwhole =>
      obtain rfl : depth = 1 := by omega
      intro comment hcomment
      rcases List.mem_cons.mp hcomment with rfl | hcomment
      · exact htext
      · exact (hwhole comment hcomment).2

end Row

end TlaGlyph
