import TlaGlyph.Proofs.Grid.Rescan
import TlaGlyph.Proofs.Lexeme.Apart

namespace TlaGlyph

section Shift

variable (count : Nat)

-- The token `count` columns further to the right.
def Token.shift (token : Token) : Token := { token with column := token.column + count }

theorem Token.shift_finish (token : Token) :
    (token.shift count).finish = token.finish + count := by
  simp only [finish, shift]
  omega

theorem splitOperators_shift (column : Nat) (text : Text) :
    splitOperators (column + count) text = (splitOperators column text).map (Token.shift count) := by
  fun_induction splitOperators column text with
  | case1 => rw [splitOperators, List.map_nil]
  | case2 column c rest more token ih =>
      rw [splitOperators, List.map_cons, ← ih, ← Token.shift_finish]
      rfl

theorem splitLineComment_shift (column : Nat) (text : Text) :
    splitLineComment (column + count) text =
      (splitLineComment column text).map (Token.shift count) := by
  have hfinish (before : Text) : (Token.ofText (.comment .line) before (column + count)).finish =
      (Token.ofText (.comment .line) before column).finish + count :=
    Token.shift_finish count (.ofText (.comment .line) before column)
  unfold splitLineComment
  simp only
  split
  · rfl
  · next before after hsplit =>
    split
    · next body rest hread =>
      split
      · rw [hfinish]
        rfl
      · rfl
    · rfl

namespace Lexeme

def shift (lexeme : Lexeme) : Lexeme := { lexeme with start := lexeme.start + count }

theorem shift_finish (lexeme : Lexeme) : (lexeme.shift count).finish = lexeme.finish + count := by
  simp only [finish, shift]
  omega

theorem tokens_shift (lexeme : Lexeme) :
    (lexeme.shift count).tokens = lexeme.tokens.map (Token.shift count) := by
  obtain ⟨shape, start, text⟩ := lexeme
  cases shape with
  | operator => exact splitOperators_shift count start text
  | _ => rfl

theorem next?_shift (column : Nat) (text : Text) :
    next? (column + count) text =
      (next? column text).map fun found => (found.1.shift count, found.2) := by
  simp only [next?]
  split
  · rfl
  · rw [Option.map_some, shift, Nat.add_right_comm]

end Lexeme

-- Where a text stands on its line makes no difference to how it is read.
theorem Row.ofCode_shift (column : Nat) (text : Text) :
    ofCode (column + count) text =
      ((ofCode column text).1.map (Token.shift count), (ofCode column text).2) := by
  rw [ofCode_eq, Lexeme.next?_shift]
  fun_induction ofCode column text with
  | case1 column text h => rw [h]; rfl
  | case2 column text lexeme rest h hlt hshape =>
      rw [h]
      simp only [Option.map_some, Option.elim_some, ofLexeme, Lexeme.shift, hshape,
        splitLineComment_shift]
  | case3 column text lexeme rest h hlt hshape body after hread hlt' token tail ih =>
      rw [← Lexeme.next?_shift, ← ofCode_eq] at ih
      have hfinish : (Token.ofText (.comment .whole) body (lexeme.start + count)).finish =
          token.finish + count := Token.shift_finish count token
      rw [h]
      simp only [Option.map_some, Option.elim_some, ofLexeme, Lexeme.shift, hshape, hread, hfinish, ih]
      rfl
  | case4 column text lexeme rest h hlt hshape depth hread =>
      rw [h]
      simp only [Option.map_some, Option.elim_some, ofLexeme, Lexeme.shift, hshape, hread]
      rfl
  | case5 column text lexeme rest h hlt tail hline hopen ih =>
      rw [← Lexeme.next?_shift, ← ofCode_eq] at ih
      rw [h]
      simp only [Option.map_some, Option.elim_some]
      rw [@ofLexeme_code (lexeme.shift count) rest hline hopen, Lexeme.tokens_shift,
        Lexeme.shift_finish, ih, List.map_append]

end Shift

namespace Row

open Lexeme (isGap longest shapes)

-- A lexeme that begins no comment is the same in front of a space, unless it is a string that breaks off.
theorem ofCode_cons_append_space {lexeme : Lexeme} {count : Nat} {c : Char} {tail : Text} (rest : Text)
    (hc : isGap c = false) (hbest : longest (c :: tail) shapes = (lexeme.shape, count))
    (htext : lexeme.text = (c :: tail).take count) (hline : lexeme.shape ≠ .lineComment)
    (hopen : lexeme.shape ≠ .openComment)
    (hbroken : ∀ token ∈ lexeme.tokens, token.isBrokenString = false) :
    ofCode lexeme.start (c :: tail ++ ' ' :: rest) =
      (lexeme.tokens ++ (ofCode lexeme.finish ((c :: tail).drop count ++ ' ' :: rest)).1,
        (ofCode lexeme.finish ((c :: tail).drop count ++ ' ' :: rest)).2) := by
  by_cases hquote : c = '"'
  · subst hquote
    obtain ⟨inside, behind, hinside, hdrop, ⟨rfl, hfinish, htokens⟩ | ⟨-, -, -, -, htokens⟩⟩ :=
      exists_of_quote hbest htext
    · have happend : '"' :: (inside ++ '"' :: behind) ++ ' ' :: rest =
          '"' :: (inside ++ '"' :: (behind ++ ' ' :: rest)) := by simp
      rw [happend, ofCode_string lexeme.start _ hinside, hdrop, hfinish, htokens]
      rfl
    · rw [htokens] at hbroken
      exact absurd (hbroken _ List.mem_cons_self) nofun
  · have hle := Lexeme.longest_le_length hbest
    have hsame : longest (c :: (tail ++ ' ' :: rest)) shapes = (lexeme.shape, count) := by
      rw [← List.cons_append, Lexeme.longest_append_space rest hquote (by rwa [hbest]), hbest]
    rw [List.cons_append, ofCode_cons hc hsame, ← List.cons_append, List.take_append_of_le_length hle,
      List.drop_append_of_le_length hle, ← htext]
    exact ofLexeme_code _ hline hopen

-- Line comments, comments that are not closed and strings that break off are the lexemes that would go
-- on over the space. The hypotheses leave them out, and they hold of the rest of the text as well.
theorem ofCode_append_space {column : Nat} {front : Text} (rest : Text)
    (hdepth : (ofCode column front).2 = 0)
    (hline : ∀ token ∈ (ofCode column front).1, token.kind ≠ .comment .line)
    (hbroken : ∀ token ∈ (ofCode column front).1, token.isBrokenString = false) :
    ofCode column (front ++ ' ' :: rest) =
      ((ofCode column front).1 ++ (ofCode (column + front.length + 1) rest).1,
        (ofCode (column + front.length + 1) rest).2) := by
  fun_induction ofCode column front with
  | case1 column front h =>
      have hgap : (front ++ [' ']).all isGap = true := by
        rw [List.all_append, Lexeme.all_of_next?_none h]
        rfl
      have happend : front ++ ' ' :: rest = front ++ [' '] ++ rest := by simp
      rw [happend, ofCode_gap hgap, List.length_append]
      rfl
  | case2 column front lexeme after h hlt hshape =>
      rcases splitLineComment_cases lexeme.start (lexeme.text.drop 2) with
        hwhole | ⟨before, -, body, -, -, -, -, hsplit⟩
      · rw [hwhole] at hline
        exact absurd rfl (hline _ List.mem_cons_self)
      · rw [hsplit] at hline
        exact absurd rfl (hline _ List.mem_cons_self)
  | case3 column front lexeme behind h hlt hshape body after hread hlt' token tail ih =>
      obtain ⟨gap, hgap, rfl, hstart⟩ := Lexeme.exists_of_next?_openComment h hshape
      obtain rfl := Comment.eq_of_read_eq_closed hread
      have happend : gap ++ '(' :: '*' :: (body ++ '*' :: ')' :: after) ++ ' ' :: rest =
          gap ++ '(' :: '*' :: (body ++ '*' :: ')' :: (after ++ ' ' :: rest)) := by simp
      have hfinish : lexeme.start + (body.length + 4) = token.finish := rfl
      have hlength : column + (gap ++ '(' :: '*' :: (body ++ '*' :: ')' :: after)).length + 1 =
          token.finish + after.length + 1 := by
        simp only [← hfinish, hstart, List.length_append, List.length_cons]
        omega
      have htail := ih hdepth (fun other hother => hline other (List.mem_cons_of_mem _ hother))
        fun other hother => hbroken other (List.mem_cons_of_mem _ hother)
      rw [happend, ofCode_gap hgap, ofCode_whole _ _ (Comment.inside_of_read hread), hlength, ← hstart,
        hfinish, htail]
      rfl
  | case4 column front lexeme behind h hlt hshape depth hread =>
      exact absurd hdepth (Comment.pos_of_read_eq_unclosed (Nat.succ_pos 0) hread).ne'
  | case5 column front lexeme behind h hlt tail hshape hopen ih =>
      obtain ⟨gap, c, more, count, hgap, hc, rfl, hbest, hstart, htext, rfl⟩ :=
        Lexeme.exists_of_next? h
      have hlength : column + (gap ++ c :: more).length + 1 =
          lexeme.finish + ((c :: more).drop count).length + 1 := by
        have hsplit := congrArg List.length (List.take_append_drop count (c :: more))
        rw [List.length_append] at hsplit
        rw [Lexeme.finish, htext, hstart, List.length_append]
        omega
      have htail := ih hdepth (fun token htoken => hline token (List.mem_append_right _ htoken))
        fun token htoken => hbroken token (List.mem_append_right _ htoken)
      have hhead := ofCode_cons_append_space rest hc hbest htext hshape hopen
        fun token htoken => hbroken token (List.mem_append_left _ htoken)
      rw [List.append_assoc, ofCode_gap hgap, ← hstart, hhead, htail, hlength, List.append_assoc]

theorem ofCode_append_spaces {column count : Nat} {front : Text} (behind : Text) (hcount : 0 < count)
    (hdepth : (ofCode column front).2 = 0)
    (hline : ∀ token ∈ (ofCode column front).1, token.kind ≠ .comment .line)
    (hbroken : ∀ token ∈ (ofCode column front).1, token.isBrokenString = false) :
    ofCode column (front ++ Text.spaces count ++ behind) =
      ((ofCode column front).1 ++
          (ofCode 0 behind).1.map (Token.shift (column + front.length + count)),
        (ofCode 0 behind).2) := by
  obtain ⟨more, rfl⟩ := Nat.exists_eq_add_of_lt hcount
  have happend : front ++ Text.spaces (0 + more + 1) ++ behind =
      front ++ ' ' :: (Text.spaces more ++ behind) := by
    rw [List.append_assoc, Nat.zero_add]
    rfl
  have hcolumn : column + front.length + 1 + (Text.spaces more).length =
      0 + (column + front.length + (0 + more + 1)) := by
    rw [Text.length_spaces]
    omega
  rw [happend, ofCode_append_space _ hdepth hline hbroken, ofCode_gap (Text.all_isGap_spaces more),
    hcolumn, ofCode_shift]

-- The text in front of the spaces is read as if the line ended there, and the text behind them as if
-- the line began there and outside of all comments.
theorem ofLine_append_spaces (depth count : Nat) (front behind : Text) (hcount : 0 < count)
    (hdepth : (ofLine depth front).2 = 0)
    (hline : ∀ token ∈ (ofLine depth front).1, token.kind ≠ .comment .line)
    (hbroken : ∀ token ∈ (ofLine depth front).1, token.isBrokenString = false) :
    ofLine depth (front ++ Text.spaces count ++ behind) =
      ((ofLine depth front).1 ++ (ofLine 0 behind).1.map (Token.shift (front.length + count)),
        (ofLine 0 behind).2) := by
  have hbehind : ofLine 0 behind = ofCode 0 behind := rfl
  rcases Nat.eq_zero_or_pos depth with rfl | hpos
  · have hcode := ofCode_append_spaces behind hcount hdepth hline hbroken
    rwa [Nat.zero_add] at hcode
  · cases hread : Comment.read depth front with
    | unclosed left =>
        have hleft := Comment.pos_of_read_eq_unclosed hpos hread
        simp only [ofLine, if_neg hpos.ne', hread] at hdepth
        omega
    | closed body rest =>
        obtain rfl := Comment.eq_of_read_eq_closed hread
        have happend : body ++ '*' :: ')' :: rest ++ Text.spaces count ++ behind =
            body ++ '*' :: ')' :: (rest ++ Text.spaces count ++ behind) := by simp
        simp only [ofLine, if_neg hpos.ne', hread] at hdepth hline hbroken
        have hrest := ofCode_append_spaces behind hcount hdepth
          (fun token htoken => hline token (List.mem_cons_of_mem _ htoken))
          fun token htoken => hbroken token (List.mem_cons_of_mem _ htoken)
        have hlength : (Token.ofText (.comment .closing) body 0).finish + rest.length + count =
            (body ++ '*' :: ')' :: rest).length + count := by
          have hfinish : (Token.ofText (.comment .closing) body 0).finish = body.length + 2 :=
            Nat.zero_add _
          simp only [hfinish, List.length_append, List.length_cons]
          omega
        rw [happend, hbehind]
        simp only [ofLine, if_neg hpos.ne', Comment.read_append hread, hrest, hlength, List.cons_append]

-- The comment behind the spaces goes on below. The string in front of them has its closing quote.
theorem ofLine_append_spaces_of_opening :
    (ofLine 1 "a *) \"b\"".toList).2 = 0 ∧
      (∀ token ∈ (ofLine 1 "a *) \"b\"".toList).1, token.kind ≠ .comment .line) ∧
      (∀ token ∈ (ofLine 1 "a *) \"b\"".toList).1, token.isBrokenString = false) ∧
      ∃ row left, ofLine 1 ("a *) \"b\"".toList ++ Text.spaces 2 ++ "x (* y".toList) = (row, left) ∧
        row = [⟨.comment .closing, "a ".toList, 0, 4, none, none⟩, ⟨.string, ['b'], 5, 3, none, none⟩,
          ⟨.ident, ['x'], 10, 1, none, none⟩, ⟨.comment .opening, " y".toList, 12, 4, none, none⟩] ∧
        left = 1 :=
  ⟨by decide +kernel, by decide +kernel, by decide +kernel, _, _,
    ofLine_append_spaces 1 2 "a *) \"b\"".toList "x (* y".toList (by decide) (by decide +kernel)
      (by decide +kernel) (by decide +kernel),
    by decide +kernel, by decide +kernel⟩

end Row

end TlaGlyph
