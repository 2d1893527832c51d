import TlaGlyph.Proofs.Lexeme.Reach

namespace TlaGlyph

namespace Text

theorem takeWhile_append_space {p : Char → Bool} (hspace : p ' ' = false) (text rest : Text) :
    (text ++ ' ' :: rest).takeWhile p = text.takeWhile p := by
  induction text with
  | nil => simp [hspace]
  | cons c text ih =>
      rw [List.cons_append, List.takeWhile_cons, List.takeWhile_cons, ih]

theorem run_append_space {p : Char → Bool} (hspace : p ' ' = false) (text rest : Text) :
    run p (text ++ ' ' :: rest) = run p text :=
  congrArg List.length (takeWhile_append_space hspace text rest)

theorem drop_run_append (p : Char → Bool) (text rest : Text) :
    (text ++ rest).drop (run p text) = text.drop (run p text) ++ rest :=
  List.drop_append_of_le_length (run_le_length p text)

theorem isPrefixOf_append_space {word : Text} (hword : ' ' ∉ word) (text rest : Text) :
    word.isPrefixOf (text ++ ' ' :: rest) = word.isPrefixOf text := by
  induction word generalizing text with
  | nil => rw [List.isPrefixOf_nil_left, List.isPrefixOf_nil_left]
  | cons c word ih =>
      rw [List.mem_cons, not_or] at hword
      cases text with
      | nil => simp [List.isPrefixOf, Ne.symm hword.1]
      | cons d text =>
          rw [List.cons_append, List.isPrefixOf_cons_cons, List.isPrefixOf_cons_cons, ih hword.2]

theorem longestPrefix?_append_space {words : List Text} (hwords : ∀ word ∈ words, ' ' ∉ word)
    (text rest : Text) : longestPrefix? words (text ++ ' ' :: rest) = longestPrefix? words text := by
  have hfilter : words.filter (·.isPrefixOf (text ++ ' ' :: rest)) =
      words.filter (·.isPrefixOf text) :=
    List.filter_congr fun word hword => isPrefixOf_append_space (hwords word hword) text rest
  rw [longestPrefix?, longestPrefix?, hfilter]

end Text

namespace Lexeme

open Text (run run_append_space drop_run_append)

variable (text rest : Text)

theorem decimalRun_append_space : decimalRun (text ++ ' ' :: rest) = decimalRun text := by
  have hdigits := run_append_space (p := Char.isDigit) (by decide)
  simp only [decimalRun, hdigits, drop_run_append]
  generalize run Char.isDigit text = digits
  cases text.drop digits with
  | nil => rfl
  | cons c behind =>
      by_cases hc : c = '.'
      · subst hc
        simp only [List.cons_append, hdigits]
      · simp [hc]

theorem radixRun_append_space : radixRun (text ++ ' ' :: rest) = radixRun text := by
  have hspace (base : Char) : isRadixDigit base ' ' = false := by
    apply Bool.eq_false_iff.mpr
    intro hdigit
    exact absurd (isWordLetter_of_isRadixDigit hdigit) (by decide)
  have hbase (tail : Text) : run (isRadixDigit ' ') tail = 0 := by
    cases tail with
    | nil => rfl
    | cons c tail => exact Text.run_cons_of_neg rfl tail
  rcases text with _ | ⟨c, _ | ⟨base, tail⟩⟩
  · rfl
  · by_cases hc : c = '\\'
    · subst hc
      simp [radixRun, hbase]
    · simp [radixRun, hc]
  · by_cases hc : c = '\\'
    · subst hc
      simp only [List.cons_append, radixRun, run_append_space (hspace base)]
    · simp [radixRun, hc]

theorem wordRun_append_space : wordRun (text ++ ' ' :: rest) = wordRun text := by
  simp only [wordRun, Text.takeWhile_append_space (p := isWordLetter) (by decide)]

theorem ruleRun_append_space {c : Char} (hc : c ≠ ' ') :
    ruleRun c (text ++ ' ' :: rest) = ruleRun c text := by
  simp only [ruleRun, run_append_space (p := (· == c)) (by simpa using hc.symm)]

theorem proofStepRun_append_space : proofStepRun (text ++ ' ' :: rest) = proofStepRun text := by
  have hdots := run_append_space (p := (· == '.')) (by decide)
  have hdigits := run_append_space (p := Char.isDigit) (by decide)
  have hletters := run_append_space (p := isWordLetter) (by decide)
  -- a level that is not closed in front of the space is not closed behind it
  have hlevel {mark : Char} (hmark : mark ≠ ' ') {tail : Text}
      (h : ∀ after, tail = mark :: '>' :: after → False) (after : Text)
      (heq : tail ++ ' ' :: rest = mark :: '>' :: after) : False := by
    rcases tail with _ | ⟨c, _ | ⟨d, tail⟩⟩
    · exact hmark (List.cons.inj heq).1.symm
    · exact absurd (List.cons.inj (List.cons.inj heq).2).1 (by decide)
    · obtain ⟨rfl, hrest⟩ := List.cons.inj heq
      obtain ⟨rfl, -⟩ := List.cons.inj hrest
      exact h tail rfl
  cases text with
  | nil => rfl
  | cons c tail =>
      by_cases hc : c = '<'
      · subst hc
        by_cases hstar : ∃ after, tail = '*' :: '>' :: after
        · obtain ⟨after, rfl⟩ := hstar
          simp only [List.cons_append, proofStepRun, hdots]
        by_cases hplus : ∃ after, tail = '+' :: '>' :: after
        · obtain ⟨after, rfl⟩ := hplus
          simp only [List.cons_append, proofStepRun, hdots]
        rw [not_exists] at hstar hplus
        rw [List.cons_append, proofStepRun.eq_3 _ (hlevel (by decide) hstar) (hlevel (by decide) hplus),
          proofStepRun.eq_3 _ hstar hplus, hdigits, drop_run_append]
        generalize run Char.isDigit tail = digits
        cases tail.drop digits with
        | nil => rfl
        | cons d behind =>
            by_cases hd : d = '>'
            · subst hd
              simp only [List.cons_append, hletters, drop_run_append, hdots]
            · simp [hd]
      · simp [proofStepRun, hc]

theorem backslashWordRun_append_space :
    backslashWordRun (text ++ ' ' :: rest) = backslashWordRun text := by
  cases text with
  | nil => rfl
  | cons c tail =>
      by_cases hc : c = '\\'
      · subst hc
        simp only [List.cons_append, backslashWordRun, run_append_space (p := Char.isAlpha) (by decide)]
      · simp [backslashWordRun, hc]

theorem charRun_append_space {p : Char → Bool} (hspace : p ' ' = false) :
    charRun p (text ++ ' ' :: rest) = charRun p text := by
  cases text with
  | nil => simp [charRun, hspace]
  | cons c tail => rfl

theorem openCommentRun_append_space :
    openCommentRun (text ++ ' ' :: rest) = openCommentRun text := by
  rcases text with _ | ⟨c, _ | ⟨d, tail⟩⟩
  · rfl
  · simp [openCommentRun]
  · by_cases hc : c = '('
    · subst hc
      by_cases hd : d = '*'
      · subst hd
        rfl
      · simp [openCommentRun, hd]
    · simp [openCommentRun, hc]

variable {c : Char} {tail : Text}

theorem brokenRun_append_space (hquote : c ≠ '"') :
    brokenRun (c :: tail ++ ' ' :: rest) = brokenRun (c :: tail) := by
  by_cases hc : c = '<'
  · subst hc
    simp only [List.cons_append, brokenRun, run_append_space (p := Char.isDigit) (by decide)]
  · simp [brokenRun]

-- No shape that has begun in front of the space reaches past it. Those of line comments and strings
-- would.
theorem reach_append_space (hquote : c ≠ '"') (hline : c = '\\' → tail.head? ≠ some '*')
    (shape : Shape) : shape.reach (c :: tail ++ ' ' :: rest) = shape.reach (c :: tail) := by
  cases shape with
  | lineComment =>
      simp only [Shape.reach]
      cases tail with
      | nil => simp [lineCommentRun]
      | cons d tail =>
          by_cases hc : c = '\\'
          · have hd : d ≠ '*' := fun hd => hline hc (congrArg some hd)
            simp [lineCommentRun, hd]
          · simp [lineCommentRun, hc]
  | openComment => exact openCommentRun_append_space _ rest
  | string => simp [Shape.reach, stringLiteralRun, hquote]
  | number =>
      simp only [Shape.reach, decimalRun_append_space, radixRun_append_space]
  | word => exact wordRun_append_space _ rest
  | dashes | endMarker => exact ruleRun_append_space _ rest (by decide)
  | proofStep => exact proofStepRun_append_space _ rest
  | backslashWord => exact backslashWordRun_append_space _ rest
  | symbol =>
      have hsymbols : ∀ word ∈ fixedSymbols, ' ' ∉ word := by decide
      simp only [Shape.reach, Text.longestPrefix?_append_space hsymbols]
  | operator => exact run_append_space (by decide) _ rest
  | delimiter | glyph => exact charRun_append_space _ rest (by decide)
  | broken => exact brokenRun_append_space rest hquote

theorem longest_congr {text other : Text} {list : List Shape}
    (h : ∀ shape : Shape, shape.reach text = shape.reach other) :
    longest text list = longest other list := by
  induction list with
  | nil => rfl
  | cons shape list ih => rw [longest, longest, ih, h]

-- A line comment and a string go on over spaces, and no other lexeme does.
theorem longest_append_space (hquote : c ≠ '"')
    (hline : (longest (c :: tail) shapes).1 ≠ .lineComment) :
    longest (c :: tail ++ ' ' :: rest) shapes = longest (c :: tail) shapes := by
  apply longest_congr
  apply reach_append_space rest hquote
  rintro rfl hstar
  obtain ⟨behind, rfl⟩ := List.head?_eq_some_iff.mp hstar
  rw [longest_lineMark] at hline
  exact hline rfl

end Lexeme

end TlaGlyph
