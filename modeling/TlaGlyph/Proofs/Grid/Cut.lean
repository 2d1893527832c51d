import TlaGlyph.Proofs.Grid.Measure
import TlaGlyph.Proofs.Lexeme.Ascii

namespace TlaGlyph

open Lexeme (isGap isAsciiChar)
open Text (opensMark)

namespace Row

-- The text, which begins at `column` of its line, is cut into the tokens of the row. What is behind a
-- comment is left open.
inductive Cuts : Nat → Text → Row → Prop
  | nil {column : Nat} : Cuts column [] []
  | gap {column : Nat} {c : Char} {rest : Text} {row : Row} (hgap : isGap c = true)
      (hrest : Cuts (column + 1) rest row) : Cuts column (c :: rest) row
  -- one character that is not ASCII, or ASCII text that has nothing to do with the star behind it
  -- unless it is a certain symbol
  | plain {column : Nat} {kind : Kind} {text rest : Text} {row : Row}
      (hplain : Token.Plain kind text) (hgap : text.all (!isGap ·) = true)
      (hascii : text.all isAsciiChar = true ∨ kind = .builtin ∧ text.length = 1)
      (hstar : text.getLast?.any opensMark = true → rest.head? = some '*' →
        kind = .builtin ∧ text = ['/', '\\'])
      (hrest : Cuts (column + text.length) rest row) :
      Cuts column (text ++ rest) (Token.ofText kind text column :: row)
  | string {column : Nat} {text rest : Text} {row : Row} (htext : Lexeme.Within text)
      (hrest : Cuts (column + (text.length + 2)) rest row) :
      Cuts column ('"' :: (text ++ '"' :: rest)) (Token.ofText .string text column :: row)
  | broken {column : Nat} {text rest : Text} {row : Row} (htext : Lexeme.Within text)
      (hstop : rest = [] ∨ rest = ['\\'])
      (hrest : Cuts (column + (text.length + 1)) rest row) :
      Cuts column ('"' :: (text ++ rest)) (Token.ofText .builtin ('"' :: text) column :: row)
  | comment {column : Nat} {mark : Char} {rest : Text} {token : Token} {row : Row}
      (hmark : opensMark mark = true) (hcomment : token.isComment = true)
      (hcolumn : ∀ other ∈ token :: row, column ≤ other.column) :
      Cuts column (mark :: '*' :: rest) (token :: row)

theorem Cuts.behind {column : Nat} {gap text : Text} {row : Row} (hgap : gap.all isGap = true)
    (h : Cuts (column + gap.length) text row) : Cuts column (gap ++ text) row := by
  induction gap generalizing column with
  | nil => exact h
  | cons c gap ih =>
      rw [List.all_cons, Bool.and_eq_true] at hgap
      rw [List.length_cons, Nat.add_comm gap.length, ← Nat.add_assoc] at h
      exact .gap hgap.1 (ih hgap.2 h)

-- No token begins in front of the text.
theorem Cuts.le_column {column : Nat} {text : Text} {row : Row} (h : Cuts column text row) :
    ∀ token ∈ row, column ≤ token.column := by
  induction h with
  | nil => nofun
  | gap hgap hrest ih => exact fun token htoken => Nat.le_of_succ_le (ih token htoken)
  | plain hplain hgap hascii hstar hrest ih | string htext hrest ih | broken htext hstop hrest ih =>
      rintro token (_ | ⟨_, htoken⟩)
      · exact Nat.le_refl _
      · exact Nat.le_trans (Nat.le_add_right _ _) (ih token htoken)
  | comment hmark hcomment hcolumn => exact hcolumn

theorem cuts_splitOperators (column : Nat) {text : Text} (htext : text.all Lexeme.isOperatorChar = true)
    {rest : Text} {row : Row} (hrest : Cuts (column + text.length) rest row) :
    Cuts column (text ++ rest) (splitOperators column text ++ row) := by
  fun_induction splitOperators column text with
  | case1 column => simpa using hrest
  | case2 column c tail more token ih =>
      have hpiece : ∀ d ∈ c :: tail.take more, Lexeme.isInner d = true := by
        intro d hd
        apply Lexeme.isInner_of_isOperatorChar
        apply List.all_eq_true.mp htext d
        exact List.mem_cons.mpr ((List.mem_cons.mp hd).imp_right List.mem_of_mem_take)
      have hfinish : token.finish = column + (c :: tail.take more).length := by
        simp [token, Token.finish, Token.ofText, Token.markWidth, Kind.openMark, Kind.closeMark]
      have hlength : (c :: tail.take more).length + (tail.drop more).length =
          (c :: tail).length := by
        simp only [List.length_cons, List.length_take, List.length_drop]
        omega
      have hdrop : (tail.drop more).all Lexeme.isOperatorChar = true := by
        rw [List.all_cons, Bool.and_eq_true] at htext
        exact List.all_eq_true.mpr fun d hd =>
          List.all_eq_true.mp htext.2 d (List.mem_of_mem_drop hd)
      have hsplit := ih hdrop (by rw [hfinish, Nat.add_assoc, hlength]; exact hrest)
      rw [hfinish] at hsplit
      have hall {p : Char → Bool} (hp : ∀ d, Lexeme.isInner d = true → p d = true) :
          (c :: tail.take more).all p = true :=
        List.all_eq_true.mpr fun d hd => hp d (hpiece d hd)
      have hplain : Token.Plain .builtin (c :: tail.take more) :=
        ⟨rfl, List.cons_ne_nil _ _, Text.unmarked_of_quiet (hall (Lexeme.isQuiet_of (by decide)))⟩
      have hopens : (c :: tail.take more).getLast?.any opensMark = false := by
        cases hlast : (c :: tail.take more).getLast? with
        | none => rfl
        | some last =>
            exact Lexeme.not_opensMark_of_isInner last (hpiece last (List.mem_of_getLast? hlast))
      have hcons := Cuts.plain hplain (hall Lexeme.not_isGap_of_isInner)
        (.inl (hall Lexeme.isAsciiChar_of_isInner)) (by simp [hopens]) hsplit
      rwa [← List.append_assoc, List.cons_append, List.take_append_drop] at hcons

section Tokens

variable {column count : Nat} {c : Char} {tail : Text} {lexeme : Lexeme} {row : Row}

theorem cuts_quote (hbest : Lexeme.longest ('"' :: tail) Lexeme.shapes = (lexeme.shape, count))
    (htext : lexeme.text = ('"' :: tail).take count) (hline : '\n' ∉ tail)
    (hrest : Cuts lexeme.finish (('"' :: tail).drop count) row) :
    Cuts lexeme.start ('"' :: tail) (lexeme.tokens ++ row) := by
  obtain ⟨inside, rest, hinside, hdrop, ⟨rfl, hfinish, htokens⟩ |
    ⟨rfl, hstop, hquote, hfinish, htokens⟩⟩ := exists_of_quote hbest htext
  · rw [hfinish, hdrop] at hrest
    rw [htokens]
    exact .string hinside hrest
  · rw [hfinish, hdrop] at hrest
    rw [htokens]
    have hend := Lexeme.eq_of_stringRun_eq_zero hstop hquote (by simp_all)
    exact .broken hinside hend hrest

theorem cuts_unmarked (hquote : c ≠ '"') (hgap : isGap c = false)
    (hbest : Lexeme.longest (c :: tail) Lexeme.shapes = (lexeme.shape, count))
    (htext : lexeme.text = (c :: tail).take count) (hline : lexeme.shape ≠ .lineComment)
    (hopen : lexeme.shape ≠ .openComment)
    (hrest : Cuts lexeme.finish ((c :: tail).drop count) row) :
    Cuts lexeme.start (c :: tail) (lexeme.tokens ++ row) := by
  have hsplit : c :: tail = lexeme.text ++ (c :: tail).drop count := by
    rw [htext, List.take_append_drop]
  rw [hsplit]
  rcases tokens_cases hquote hbest htext hline hopen with
    ⟨hoperators, htokens⟩ | ⟨kind, hplain, htokens, hkind⟩
  · rw [htokens]
    exact cuts_splitOperators lexeme.start hoperators hrest
  · rw [htokens]
    refine .plain hplain ?_ ?_ ?_ hrest
    · rw [htext]
      exact Lexeme.not_gap_of_longest hquote hline hbest hgap
    · rw [htext]
      rcases Lexeme.ascii_of_longest hquote hline hbest with hascii | ⟨rfl, hshape⟩
      · exact .inl hascii
      · exact .inr ⟨hkind (.inr hshape), rfl⟩
    · intro hlast hstar
      rw [htext] at hlast ⊢
      obtain ⟨hshape, hslash⟩ := Lexeme.eq_of_star hquote hline hbest hopen hlast hstar
      exact ⟨hkind (.inl hshape), hslash⟩

end Tokens

theorem le_column_splitLineComment (column : Nat) (text : Text) :
    ∃ token row, splitLineComment column text = token :: row ∧ token.isComment = true ∧
      ∀ other ∈ token :: row, column ≤ other.column := by
  rcases splitLineComment_cases column text with hwhole | ⟨before, -, body, -, -, -, -, hsplit⟩
  · exact ⟨_, _, hwhole, rfl, by simp [Token.ofText]⟩
  · exact ⟨_, _, hsplit, rfl, by simp [Token.ofText]⟩

-- How a line outside of comments is cut.
theorem ofCode_cuts (column : Nat) {text : Text} (hnewline : '\n' ∉ text) :
    Cuts column text (ofCode column text).1 := by
  fun_induction ofCode column text with
  | case1 column text h =>
      rw [← List.append_nil text]
      exact .behind (Lexeme.all_of_next?_none h) .nil
  | case2 column text lexeme rest h hlt hshape =>
      obtain ⟨gap, c, tail, count, hgap, -, rfl, hbest, hstart, -, -⟩ := Lexeme.exists_of_next? h
      rw [hshape] at hbest
      obtain ⟨tail, rfl, rfl⟩ := Lexeme.exists_of_lineComment (congrArg Prod.fst hbest)
      obtain ⟨token, row, hrow, hcomment, hcolumn⟩ :=
        le_column_splitLineComment lexeme.start (lexeme.text.drop 2)
      rw [hrow]
      exact .behind hgap (.comment (by decide) hcomment (hstart ▸ hcolumn))
  | case3 column text lexeme rest h hlt hshape body after hread hlt' token tail ih =>
      obtain ⟨gap, hgap, rfl, hstart⟩ := Lexeme.exists_of_next?_openComment h hshape
      have hafter := ih ?_
      · refine .behind hgap (.comment (by decide) rfl ?_)
        rintro other (_ | ⟨_, hother⟩)
        · exact Nat.le_of_eq hstart.symm
        · have hle := hafter.le_column other hother
          have hfinish : token.finish = lexeme.start + (body.length + 4) := rfl
          omega
      · -- what follows the comment is on the line
        intro hmem
        apply hnewline
        rw [Comment.eq_of_read_eq_closed hread]
        simp [hmem]
  | case4 column text lexeme rest h hlt hshape depth hread =>
      obtain ⟨gap, hgap, rfl, hstart⟩ := Lexeme.exists_of_next?_openComment h hshape
      exact .behind hgap (.comment (by decide) rfl (by simp [Token.ofText, hstart]))
  | case5 column text lexeme rest h hlt tail hline hopen ih =>
      obtain ⟨gap, c, behind, count, hgap, hc, rfl, hbest, hstart, htext, rfl⟩ :=
        Lexeme.exists_of_next? h
      have hbehind : '\n' ∉ c :: behind := fun hmem => hnewline (List.mem_append_right gap hmem)
      have hrest := ih fun hmem => hbehind (List.mem_of_mem_drop hmem)
      refine .behind hgap ?_
      rw [← hstart]
      by_cases hquote : c = '"'
      · subst hquote
        exact cuts_quote hbest htext (fun hmem => hbehind (List.mem_cons_of_mem _ hmem)) hrest
      · exact cuts_unmarked hquote hc hbest htext hline hopen hrest

end Row

end TlaGlyph
