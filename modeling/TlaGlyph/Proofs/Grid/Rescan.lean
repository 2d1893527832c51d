import TlaGlyph.Proofs.Grid.Measure

namespace TlaGlyph

namespace Row

open Lexeme (isGap isInert longest shapes)

-- What is read from a lexeme on.
def ofLexeme (lexeme : Lexeme) (rest : Text) : Row × Nat :=
  match lexeme.shape with
  | .lineComment => (splitLineComment lexeme.start (lexeme.text.drop 2), 0)
  | .openComment =>
    match Comment.read 1 rest with
    | .closed body after =>
      let token := Token.ofText (.comment .whole) body lexeme.start
      let tail := ofCode token.finish after
      (token :: tail.1, tail.2)
    | .unclosed depth => ([Token.ofText (.comment .opening) rest lexeme.start], depth)
  | _ =>
    let tail := ofCode lexeme.finish rest
    (lexeme.tokens ++ tail.1, tail.2)

-- A lexeme that begins no comment.
theorem ofLexeme_code {lexeme : Lexeme} (rest : Text) (hline : lexeme.shape ≠ .lineComment)
    (hopen : lexeme.shape ≠ .openComment) :
    ofLexeme lexeme rest =
      (lexeme.tokens ++ (ofCode lexeme.finish rest).1, (ofCode lexeme.finish rest).2) := by
  unfold ofLexeme
  cases hshape : lexeme.shape with
  | lineComment => exact absurd hshape hline
  | openComment => exact absurd hshape hopen
  | _ => rfl

theorem ofCode_eq (column : Nat) (text : Text) :
    ofCode column text =
      (Lexeme.next? column text).elim ([], 0) fun found => ofLexeme found.1 found.2 := by
  fun_cases ofCode column text with
  | case1 h => rw [h]; rfl
  | case2 lexeme rest h hlt hshape => rw [h]; simp only [Option.elim_some, ofLexeme, hshape]
  | case3 lexeme rest h hlt hshape body after hread hlt' token tail =>
      rw [h]
      simp only [Option.elim_some, ofLexeme, hshape, hread]
      rfl
  | case4 lexeme rest h hlt hshape depth hread =>
      rw [h]
      simp only [Option.elim_some, ofLexeme, hshape, hread]
  | case5 lexeme rest h hlt tail hline hopen =>
      rw [h, Option.elim_some, ofLexeme_code rest hline hopen]

-- A gap only moves what follows it.
theorem ofCode_gap {gap : Text} (hgap : gap.all isGap = true) (column : Nat) (rest : Text) :
    ofCode column (gap ++ rest) = ofCode (column + gap.length) rest := by
  have hnext : Lexeme.next? column (gap ++ rest) = Lexeme.next? (column + gap.length) rest := by
    have hdrop : (gap ++ rest).dropWhile isGap = rest.dropWhile isGap :=
      List.dropWhile_append_of_pos (List.all_eq_true.mp hgap)
    simp only [Lexeme.next?, hdrop, Text.run_append_of_all hgap, Nat.add_assoc]
  rw [ofCode_eq, ofCode_eq, hnext]

theorem ofCode_nil (column : Nat) : ofCode column [] = ([], 0) := by
  rw [ofCode_eq]
  rfl

theorem ofCode_cons {column count : Nat} {c : Char} {rest : Text} {shape : Lexeme.Shape}
    (hc : isGap c = false) (hbest : longest (c :: rest) shapes = (shape, count)) :
    ofCode column (c :: rest) =
      ofLexeme ⟨shape, column, (c :: rest).take count⟩ ((c :: rest).drop count) := by
  have hnext := @Lexeme.next?_append column count [] rest c shape rfl hc hbest
  rw [List.nil_append] at hnext
  rw [ofCode_eq, hnext]
  rfl

section Pieces

variable (column : Nat) (rest : Text)

theorem ofCode_whole {text : Text} (htext : Comment.Inside 1 text) :
    ofCode column ('(' :: '*' :: (text ++ '*' :: ')' :: rest)) =
      (Token.ofText (.comment .whole) text column :: (ofCode (column + (text.length + 4)) rest).1,
        (ofCode (column + (text.length + 4)) rest).2) := by
  rw [ofCode_cons (by decide) (Lexeme.longest_openMark _)]
  simp only [ofLexeme, List.drop_succ_cons, List.drop_zero, htext rest]
  rfl

theorem ofCode_opening {text : Text} {depth : Nat} (hread : Comment.read 1 text = .unclosed depth) :
    ofCode column ('(' :: '*' :: text) =
      ([Token.ofText (.comment .opening) text column], depth) := by
  rw [ofCode_cons (by decide) (Lexeme.longest_openMark _)]
  simp only [ofLexeme, List.drop_succ_cons, List.drop_zero, hread]

theorem ofCode_line {text : Text} (hline : '\n' ∉ text) :
    ofCode column ('\\' :: '*' :: text) = (splitLineComment column text, 0) := by
  have hrun : text.takeWhile (· != '\n') = text := by
    apply List.takeWhile_eq_self_iff.mpr
    intro c hc
    rw [bne_iff_ne]
    rintro rfl
    exact hline hc
  rw [ofCode_cons (by decide) (Lexeme.longest_lineMark _)]
  simp only [ofLexeme, Text.run, hrun, Nat.add_comm 2, List.take_succ_cons, List.take_length,
    List.drop_succ_cons, List.drop_zero]

theorem ofCode_string {text : Text} (htext : Lexeme.Within text) :
    ofCode column ('"' :: (text ++ '"' :: rest)) =
      (Token.ofText .string text column :: (ofCode (column + (text.length + 2)) rest).1,
        (ofCode (column + (text.length + 2)) rest).2) := by
  have hrun : Lexeme.stringRun (text ++ '"' :: rest) = text.length := htext.append_of_stop rfl
  have hclosed : ((text ++ '"' :: rest).drop (Lexeme.stringRun (text ++ '"' :: rest))).head? =
      some '"' := by
    rw [hrun, List.drop_left]
    rfl
  have hwhole : '"' :: (text ++ '"' :: rest) = '"' :: (text ++ ['"']) ++ rest := by simp
  have hcount : text.length + 2 = ('"' :: (text ++ ['"'])).length := by simp
  rw [ofCode_cons (by decide) (Lexeme.longest_quote_closed hclosed), hrun, hwhole, hcount,
    List.take_left, List.drop_left]
  simp only [ofLexeme, Lexeme.tokens, Lexeme.finish, List.drop_succ_cons, List.drop_zero,
    List.dropLast_concat, List.singleton_append]

end Pieces

-- The comments of a row.
def comments (row : Row) : Row := row.filter Token.isComment

theorem comments_append (row other : Row) :
    comments (row ++ other) = comments row ++ comments other :=
  List.filter_append ..

theorem comments_splitOperators (column : Nat) (text : Text) :
    (splitOperators column text).comments = [] := by
  fun_induction splitOperators column text with
  | case1 => rfl
  | case2 column c rest more token ih => exact ih

theorem comments_tokens (lexeme : Lexeme) : comments lexeme.tokens = [] := by
  unfold Lexeme.tokens
  cases lexeme.shape with
  | operator => exact comments_splitOperators _ _
  | word =>
      simp only [wordKind]
      split <;> rfl
  | _ => rfl

-- Only the first character of a lexeme is looked at.
theorem comments_ofCode_cons {column count : Nat} {c : Char} {rest : Text} {shape : Lexeme.Shape}
    (hc : isGap c = false) (hbest : longest (c :: rest) shapes = (shape, count))
    (hline : shape ≠ .lineComment) (hopen : shape ≠ .openComment) :
    (ofCode column (c :: rest)).1.comments =
        (ofCode (column + count) ((c :: rest).drop count)).1.comments ∧
      (ofCode column (c :: rest)).2 = (ofCode (column + count) ((c :: rest).drop count)).2 := by
  have hfinish : Lexeme.finish ⟨shape, column, (c :: rest).take count⟩ = column + count := by
    rw [Lexeme.finish, List.length_take, Nat.min_eq_left (Lexeme.longest_le_length hbest)]
  rw [ofCode_cons hc hbest, ofLexeme_code _ hline hopen, ← hfinish]
  exact ⟨by rw [comments_append, comments_tokens, List.nil_append], rfl⟩

-- A string takes all that it goes on over, whether or not it has a closing quote.
theorem exists_comments_ofCode_quote (column : Nat) {text : Text} (h : Lexeme.Within text)
    (rest : Text) :
    ∃ start behind, behind <:+ rest ∧
      (ofCode column ('"' :: (text ++ rest))).1.comments = (ofCode start behind).1.comments := by
  obtain ⟨inside, stop, rfl, hinside, hstop⟩ := Lexeme.exists_within rest
  have hrun := (h.append_within hinside).append_of_stop hstop
  have hdrop : (text ++ inside ++ stop).drop (Lexeme.stringRun (text ++ inside ++ stop)) = stop := by
    rw [hrun, List.drop_left]
  rw [← List.append_assoc]
  by_cases hquote : stop.head? = some '"'
  · have hbest := Lexeme.longest_quote_closed (hdrop.symm ▸ hquote)
    have hsame := (@comments_ofCode_cons column _ _ _ _ (by decide) hbest nofun nofun).1
    refine ⟨_, _, ?_, hsame⟩
    rw [List.drop_succ_cons, ← List.drop_drop, hdrop]
    exact (List.drop_suffix 1 stop).trans (List.suffix_append inside stop)
  · have hbest := Lexeme.longest_quote_broken (hdrop.symm ▸ hquote)
    have hsame := (@comments_ofCode_cons column _ _ _ _ (by decide) hbest nofun nofun).1
    refine ⟨_, _, ?_, hsame⟩
    rw [Nat.add_comm 1, List.drop_succ_cons, hdrop]
    exact List.suffix_append inside stop

-- No comment begins where a mark would have to reach into the text behind.
theorem not_comment_of_unmarked {c : Char} {zone rest : Text} {shape : Lexeme.Shape} {count : Nat}
    (hzone : Text.Unmarked (c :: zone)) (hrest : rest.head? ≠ some '*')
    (hbest : longest (c :: (zone ++ rest)) shapes = (shape, count)) :
    shape ≠ .lineComment ∧ shape ≠ .openComment := by
  have hhead : Text.opensMark c = true → ∀ tail, zone ++ rest ≠ '*' :: tail := by
    intro hopens tail htail
    cases zone with
    | nil => exact hrest (by rw [show rest = '*' :: tail from htail]; rfl)
    | cons next zone =>
        obtain rfl := (List.cons.inj htail).1
        exact hzone.2.1 hopens rfl
  constructor
  · rintro rfl
    obtain ⟨tail, rfl, htail⟩ := Lexeme.exists_of_lineComment (congrArg Prod.fst hbest)
    exact hhead rfl tail htail
  · rintro rfl
    obtain ⟨tail, rfl, htail⟩ := Lexeme.exists_of_openComment (congrArg Prod.fst hbest)
    exact hhead rfl tail htail

-- Text in which no comment and no string begins has none of the comments. Its last lexeme may take
-- some of the text that follows, but nothing that may begin a block comment or a string, and no gap.
theorem exists_comments_ofCode {zone rest : Text} (hzone : zone.Unmarked)
    (hrest : rest.head? ≠ some '*') (column : Nat) :
    ∃ count, count ≤ Text.run isInert rest ∧
      (ofCode column (zone ++ rest)).1.comments =
        (ofCode (column + zone.length + count) (rest.drop count)).1.comments ∧
      (ofCode column (zone ++ rest)).2 =
        (ofCode (column + zone.length + count) (rest.drop count)).2 := by
  induction hlength : zone.length using Nat.strong_induction_on generalizing zone column with
  | _ length ih =>
  subst hlength
  have hsplit : zone = zone.takeWhile isGap ++ zone.dropWhile isGap :=
    List.takeWhile_append_dropWhile.symm
  have hgap : (zone.takeWhile isGap).all isGap = true := List.all_takeWhile
  cases hdrop : zone.dropWhile isGap with
  | nil =>
      rw [hdrop, List.append_nil] at hsplit
      rw [← hsplit] at hgap
      exact ⟨0, Nat.zero_le _, by rw [ofCode_gap hgap]; rfl, by rw [ofCode_gap hgap]; rfl⟩
  | cons c tail =>
      rw [hdrop] at hsplit
      generalize zone.takeWhile isGap = gap at hsplit hgap
      subst hsplit
      have hc : isGap c = false := by
        have hhead := List.head?_dropWhile_not isGap (gap ++ c :: tail)
        simpa [hdrop] using hhead
      have htail : Text.Unmarked (c :: tail) := (Text.unmarked_append.mp hzone).2.1
      rw [List.append_assoc, ofCode_gap hgap, List.cons_append]
      cases hbest : longest (c :: (tail ++ rest)) shapes with
      | mk shape count =>
      obtain ⟨hline, hopen⟩ := not_comment_of_unmarked htail hrest hbest
      have hreach := Lexeme.eq_reach_of_longest hbest
      have hpos := Lexeme.pos_of_longest hbest
      have hinert : shape.reach (c :: (tail ++ rest)) ≤ 1 + Text.run isInert (tail ++ rest) :=
        Lexeme.reach_le_inert hline htail.1
      have hrun := Text.run_append_le isInert tail rest
      obtain ⟨hcomments, hdepth⟩ :=
        @comments_ofCode_cons (column + gap.length) count c (tail ++ rest) shape hc hbest hline hopen
      rw [hcomments, hdepth, ← List.cons_append, List.length_append]
      rcases Nat.lt_or_ge (c :: tail).length count with hlt | hle
      · rw [List.drop_append, List.drop_of_length_le (Nat.le_of_lt hlt), List.nil_append]
        refine ⟨count - (c :: tail).length, ?_, ?_⟩
        · simp only [List.length_cons] at hlt ⊢
          omega
        · rw [show column + (gap.length + (c :: tail).length) + (count - (c :: tail).length) =
            column + gap.length + count by omega]
          exact ⟨rfl, rfl⟩
      · rw [List.drop_append_of_le_length hle]
        have hrest' : Text.Unmarked ((c :: tail).drop count) := by
          rw [← List.take_append_drop count (c :: tail)] at htail
          exact (Text.unmarked_append.mp htail).2.1
        obtain ⟨more, hmore, hsame⟩ := ih ((c :: tail).drop count).length
          (by simp only [List.length_drop, List.length_append]; omega) hrest'
          (column + gap.length + count) rfl
        refine ⟨more, hmore, ?_⟩
        rwa [List.length_drop, show column + gap.length + count + ((c :: tail).length - count) =
          column + (gap.length + (c :: tail).length) by omega] at hsame

end Row

end TlaGlyph
