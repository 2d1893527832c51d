import Mathlib.Data.List.TakeWhile
import TlaGlyph.Lexeme.Scan

namespace TlaGlyph

namespace Text

theorem run_le_length (p : Char → Bool) (text : Text) : run p text ≤ text.length :=
  (List.takeWhile_prefix p).length_le

theorem run_cons_of_pos {p : Char → Bool} {c : Char} (h : p c = true) (rest : Text) :
    run p (c :: rest) = 1 + run p rest := by
  simp [run, h, Nat.add_comm]

theorem run_cons_of_neg {p : Char → Bool} {c : Char} (h : p c = false) (rest : Text) :
    run p (c :: rest) = 0 := by
  simp [run, h]

theorem run_cons_le (p : Char → Bool) (c : Char) (rest : Text) :
    run p (c :: rest) ≤ 1 + run p rest := by
  cases h : p c with
  | true => exact Nat.le_of_eq (run_cons_of_pos h rest)
  | false => simp [run_cons_of_neg h rest]

-- A run of a smaller class is the beginning of a run of the larger one.
theorem run_eq_add {p q : Char → Bool} (h : ∀ c, q c = true → p c = true) (text : Text) :
    run p text = run q text + run p (text.drop (run q text)) := by
  induction text with
  | nil => rfl
  | cons c rest ih =>
    cases hc : q c with
    | true =>
        rw [run_cons_of_pos hc, run_cons_of_pos (h c hc), ih, Nat.add_comm 1 (run q rest),
          List.drop_succ_cons]
        omega
    | false => simp [run_cons_of_neg hc]

theorem run_mono {p q : Char → Bool} (h : ∀ c, q c = true → p c = true) (text : Text) :
    run q text ≤ run p text := by
  rw [run_eq_add h text]
  exact Nat.le_add_right _ _

theorem run_append_of_all {p : Char → Bool} {text : Text} (h : text.all p = true) (rest : Text) :
    run p (text ++ rest) = text.length + run p rest := by
  rw [run, List.takeWhile_append_of_pos (List.all_eq_true.mp h), List.length_append, run]

theorem run_append_le (p : Char → Bool) (text rest : Text) :
    run p (text ++ rest) ≤ text.length + run p rest := by
  induction text with
  | nil => simp
  | cons c text ih =>
    have hcons := run_cons_le p c (text ++ rest)
    rw [List.cons_append, List.length_cons]
    omega

end Text

namespace Lexeme

open Text (run run_cons_of_pos run_cons_of_neg run_cons_le run_eq_add run_mono run_le_length
  run_append_of_all)

-- What may begin a block comment or a string, and what is skipped between lexemes.
def stops : List Char := ['(', '"', ' ', '\t', '\x0c', '\r']

def isInert (c : Char) : Bool := !stops.contains c

-- Nor does a line comment begin with it.
def isQuiet (c : Char) : Bool := isInert c && c != '\\'

theorem isInert_of_isQuiet {c : Char} (h : isQuiet c = true) : isInert c = true :=
  (Bool.and_eq_true _ _ ▸ h).1

theorem isQuiet_of {p : Char → Bool} (h : ('\\' :: stops).all (!p ·) = true) (c : Char)
    (hc : p c = true) : isQuiet c = true := by
  have hnot : c ∉ '\\' :: stops := by
    intro hmem
    have hstop := List.all_eq_true.mp h c hmem
    rw [hc] at hstop
    cases hstop
  simp only [List.mem_cons, not_or] at hnot
  simp only [isQuiet, isInert, Bool.and_eq_true, bne_iff_ne, Bool.not_eq_true',
    List.contains_eq_mem, decide_eq_false_iff_not]
  exact ⟨hnot.2, hnot.1⟩

-- What words, numbers and operators are made of.
def isInner (c : Char) : Bool := isWordLetter c || isOperatorChar c

theorem isInner_of_isWordLetter (c : Char) (h : isWordLetter c = true) : isInner c = true := by
  simp [isInner, h]

theorem isInner_of_isOperatorChar (c : Char) (h : isOperatorChar c = true) : isInner c = true := by
  simp [isInner, h]

theorem isInner_of_isDigit (c : Char) (h : c.isDigit = true) : isInner c = true := by
  simp [isInner, isWordLetter, Char.isAlphanum, h]

theorem isInner_of_isAlpha (c : Char) (h : c.isAlpha = true) : isInner c = true := by
  simp [isInner, isWordLetter, Char.isAlphanum, h]

theorem isInner_of_beq {d : Char} (h : isInner d = true) (c : Char) (hc : (c == d) = true) :
    isInner c = true := by
  rw [beq_iff_eq.mp hc, h]

theorem isWordLetter_of_isRadixDigit {base c : Char} (h : isRadixDigit base c = true) :
    isWordLetter c = true := by
  unfold isRadixDigit at h
  split at h
  case h_7 => cases h
  case h_1 | h_2 =>
    simp only [Bool.or_eq_true, beq_iff_eq] at h
    rcases h with rfl | rfl
    · decide
    · decide
  all_goals
    delta isWordLetter Char.isAlphanum Char.isAlpha Char.isUpper Char.isLower Char.isDigit
    simp only [Char.isDigit, Char.le_def, UInt32.le_iff_toNat_le, Bool.or_eq_true, Bool.and_eq_true,
      decide_eq_true_eq, Char.reduceVal, UInt32.reduceToNat] at h ⊢
    omega

theorem isInner_of_isRadixDigit (base c : Char) (h : isRadixDigit base c = true) :
    isInner base = true ∧ isInner c = true := by
  refine ⟨?_, isInner_of_isWordLetter c (isWordLetter_of_isRadixDigit h)⟩
  unfold isRadixDigit at h
  split at h
  all_goals first | decide | cases h

theorem decimalRun_le_inner (text : Text) : decimalRun text ≤ run isInner text := by
  have hdigits := run_eq_add isInner_of_isDigit text
  simp only [decimalRun]
  split
  · next rest hrest =>
    have hdecimals := run_mono isInner_of_isDigit rest
    rw [hrest, run_cons_of_pos (by decide)] at hdigits
    split <;> omega
  · omega

theorem radixRun_le_inner (c : Char) (rest : Text) :
    radixRun (c :: rest) ≤ 1 + run isInner rest := by
  unfold radixRun
  split
  · next base tail heq =>
    obtain ⟨-, rfl⟩ := List.cons.inj heq
    have hdigits := run_mono (fun digit hdigit => (isInner_of_isRadixDigit base digit hdigit).2) tail
    simp only
    split
    · next hpos =>
      cases tail with
      | nil => simp [run] at hpos
      | cons c tail =>
          have hc : isRadixDigit base c = true := by
            by_contra hc
            simp [run_cons_of_neg (Bool.eq_false_iff.mpr hc)] at hpos
          rw [run_cons_of_pos (isInner_of_isRadixDigit base c hc).1]
          omega
    · exact Nat.zero_le _
  · exact Nat.zero_le _

theorem proofStepRun_le_inner (text : Text) : proofStepRun text ≤ run isInner text := by
  have hdots := run_mono (isInner_of_beq (d := '.') (by decide))
  simp only [proofStepRun]
  split
  · next rest =>
    have := hdots rest
    simp only [run_cons_of_pos (show isInner '<' = true by decide),
      run_cons_of_pos (show isInner '*' = true by decide),
      run_cons_of_pos (show isInner '>' = true by decide)]
    omega
  · next rest =>
    have := hdots rest
    simp only [run_cons_of_pos (show isInner '<' = true by decide),
      run_cons_of_pos (show isInner '+' = true by decide),
      run_cons_of_pos (show isInner '>' = true by decide)]
    omega
  · next rest _ _ =>
    have hdigits := run_eq_add isInner_of_isDigit rest
    rw [run_cons_of_pos (by decide)]
    split
    · next tail htail =>
      have hname := run_eq_add isInner_of_isWordLetter tail
      have := hdots (tail.drop (run isWordLetter tail))
      rw [htail, run_cons_of_pos (by decide)] at hdigits
      split <;> omega
    · exact Nat.zero_le _
  · exact Nat.zero_le _

theorem wordRun_le_inner (text : Text) : wordRun text ≤ run isInner text := by
  simp only [wordRun]
  split
  · exact Nat.zero_le _
  · exact run_mono isInner_of_isWordLetter text

theorem ruleRun_le_inner {c : Char} (h : isInner c = true) (text : Text) :
    ruleRun c text ≤ run isInner text := by
  simp only [ruleRun]
  split
  · exact run_mono (isInner_of_beq h) text
  · exact Nat.zero_le _

theorem backslashWordRun_le_inner (c : Char) (rest : Text) :
    backslashWordRun (c :: rest) ≤ 1 + run isInner rest := by
  simp only [backslashWordRun]
  split
  · next tail heq =>
    obtain ⟨-, rfl⟩ := List.cons.inj heq
    have hletters := run_mono isInner_of_isAlpha rest
    split <;> omega
  · exact Nat.zero_le _

-- Behind its first character a lexeme is made of what words and operators are made of. Line comments,
-- strings and the fixed symbols are not.
theorem reach_le_inner {c : Char} {rest : Text} {shape : Shape} (hline : shape ≠ .lineComment)
    (hsymbol : shape ≠ .symbol) (hquote : c ≠ '"') :
    shape.reach (c :: rest) ≤ 1 + run isInner rest := by
  have hcons := run_cons_le isInner c rest
  cases shape with
  | lineComment => exact absurd rfl hline
  | symbol => exact absurd rfl hsymbol
  | openComment =>
      simp only [Shape.reach, openCommentRun]
      split
      · next tail heq =>
        obtain ⟨-, rfl⟩ := List.cons.inj heq
        rw [run_cons_of_pos (by decide)]
        omega
      · omega
  | string =>
      simp only [Shape.reach, stringLiteralRun]
      split
      · next tail heq => exact absurd (List.cons.inj heq).1 hquote
      · omega
  | number =>
      have := decimalRun_le_inner (c :: rest)
      have := radixRun_le_inner c rest
      simp only [Shape.reach]
      omega
  | word => exact Nat.le_trans (wordRun_le_inner _) hcons
  | dashes => exact Nat.le_trans (ruleRun_le_inner (c := '-') (by decide) _) hcons
  | endMarker => exact Nat.le_trans (ruleRun_le_inner (c := '=') (by decide) _) hcons
  | proofStep => exact Nat.le_trans (proofStepRun_le_inner _) hcons
  | backslashWord => exact backslashWordRun_le_inner c rest
  | operator => exact Nat.le_trans (run_mono isInner_of_isOperatorChar _) hcons
  | delimiter | glyph =>
      simp only [Shape.reach, charRun]
      split <;> omega
  | broken =>
      simp only [Shape.reach, brokenRun.eq_def]
      split
      · next tail heq => exact absurd (List.cons.inj heq).1 hquote
      · next tail heq =>
        obtain ⟨-, rfl⟩ := List.cons.inj heq
        have := run_mono isInner_of_isDigit rest
        omega
      · omega
      · omega

theorem reach_le_quiet {c : Char} {rest : Text} {shape : Shape} (hline : shape ≠ .lineComment)
    (hsymbol : shape ≠ .symbol) (hquote : c ≠ '"') :
    shape.reach (c :: rest) ≤ 1 + run isQuiet rest := by
  have hquiet := run_mono (isQuiet_of (p := isInner) (by decide)) rest
  have hinner : shape.reach (c :: rest) ≤ 1 + run isInner rest :=
    reach_le_inner hline hsymbol hquote
  omega

-- As far as the shape of symbols reaches, the text is one of them.
theorem exists_of_reach_symbol {text : Text} (h : 0 < Shape.symbol.reach text) :
    ∃ word ∈ fixedSymbols, ∃ after, text = word ++ after ∧
      Shape.symbol.reach text = word.length := by
  simp only [Shape.reach] at h ⊢
  cases hmax : Text.longestPrefix? fixedSymbols text with
  | none => simp [hmax] at h
  | some n =>
      obtain ⟨word, hword, rfl⟩ := List.mem_map.mp (List.max?_mem hmax)
      obtain ⟨hmem, hbegins⟩ := List.mem_filter.mp hword
      obtain ⟨after, hafter⟩ := List.isPrefixOf_iff_prefix.mp hbegins
      exact ⟨word, hmem, after, hafter.symm, rfl⟩

-- Of all shapes only those of line comments and strings go on over what may begin a block comment
-- or a string.
theorem reach_le_inert {c : Char} {rest : Text} {shape : Shape} (hline : shape ≠ .lineComment)
    (hquote : c ≠ '"') : shape.reach (c :: rest) ≤ 1 + run isInert rest := by
  by_cases hsymbol : shape = .symbol
  · subst hsymbol
    rcases Nat.eq_zero_or_pos (Shape.symbol.reach (c :: rest)) with hzero | hpos
    · omega
    · have htail : ∀ word ∈ fixedSymbols, word.tail.all isInert = true := by decide
      obtain ⟨word, hmem, after, hafter, hreach⟩ := exists_of_reach_symbol hpos
      have hall := htail word hmem
      cases word with
      | nil => simp [hreach]
      | cons first word =>
          rw [List.cons_append] at hafter
          obtain ⟨-, rfl⟩ := List.cons.inj hafter
          rw [List.tail_cons] at hall
          rw [hreach, run_append_of_all hall, List.length_cons]
          omega
  · have hmono := run_mono (p := isInert) (q := isQuiet) (fun _ => isInert_of_isQuiet) rest
    exact Nat.le_trans (reach_le_quiet hline hsymbol hquote) (by omega)

theorem stringRun_le_length (text : Text) : stringRun text ≤ text.length := by
  fun_induction stringRun text with
  | case1 rest => exact Nat.zero_le _
  | case2 c rest hc ih => simp only [List.length_cons]; omega
  | case3 c rest hescape hc => exact Nat.zero_le _
  | case4 c rest hescape hc ih => simp only [List.length_cons]; omega
  | case5 => exact Nat.le_refl _

-- Only strings begin with a quote, whole ones or those that break off.
theorem reach_quote {shape : Shape} (hstring : shape ≠ .string) (hbroken : shape ≠ .broken)
    (rest : Text) : shape.reach ('"' :: rest) = 0 := by
  cases shape with
  | string => exact absurd rfl hstring
  | broken => exact absurd rfl hbroken
  | number => simp [Shape.reach, decimalRun, radixRun, run]
  | word => simp [Shape.reach, wordRun, isWordLetter]
  | dashes | endMarker => simp [Shape.reach, ruleRun, run]
  | symbol => simp [Shape.reach, Text.longestPrefix?, fixedSymbols]
  | operator => simp [Shape.reach, run, isOperatorChar]
  | _ => rfl

theorem reach_le_length (shape : Shape) (text : Text) : shape.reach text ≤ text.length := by
  cases text with
  | nil => cases shape <;> decide
  | cons c rest =>
      by_cases hline : shape = .lineComment
      · subst hline
        simp only [Shape.reach, lineCommentRun]
        split
        · next tail heq =>
          have := run_le_length (· != '\n') tail
          simp only [heq, List.length_cons]
          omega
        · exact Nat.zero_le _
      · by_cases hquote : c = '"'
        · subst hquote
          have hinside := stringRun_le_length rest
          by_cases hstring : shape = .string
          · subst hstring
            simp only [Shape.reach, stringLiteralRun]
            split
            · next hclosed =>
              have hpos : (rest.drop (stringRun rest)).length ≠ 0 := by
                intro hnil
                rw [List.length_eq_zero_iff.mp hnil] at hclosed
                cases hclosed
              rw [List.length_drop] at hpos
              simp only [List.length_cons]
              omega
            · exact Nat.zero_le _
          · by_cases hbroken : shape = .broken
            · subst hbroken
              simp only [Shape.reach, brokenRun, List.length_cons]
              omega
            · rw [reach_quote hstring hbroken]
              exact Nat.zero_le _
        · have hinert : shape.reach (c :: rest) ≤ 1 + run isInert rest :=
            reach_le_inert hline hquote
          have := run_le_length isInert rest
          simp only [List.length_cons]
          omega

-- What begins a comment begins no lexeme of another shape that reaches as far.
theorem reach_lineMark {shape : Shape} (h : shape ≠ .lineComment) (rest : Text) :
    shape.reach ('\\' :: '*' :: rest) ≤ 1 := by
  cases shape with
  | lineComment => exact absurd rfl h
  | number =>
      have hdigits : run (isRadixDigit '*') rest = 0 := by
        cases rest with
        | nil => rfl
        | cons c rest => exact Text.run_cons_of_neg rfl rest
      simp [Shape.reach, decimalRun, radixRun, run_cons_of_neg, hdigits]
  | word => simp [Shape.reach, wordRun, isWordLetter]
  | dashes | endMarker => simp [Shape.reach, ruleRun, run]
  | backslashWord => simp [Shape.reach, backslashWordRun, run]
  | symbol => simp [Shape.reach, Text.longestPrefix?, fixedSymbols]
  | operator => simp [Shape.reach, run, isOperatorChar]
  | openComment => simp [Shape.reach, openCommentRun]
  | string => simp [Shape.reach, stringLiteralRun]
  | proofStep => simp [Shape.reach, proofStepRun]
  | delimiter | glyph =>
      simp only [Shape.reach, charRun]
      split <;> omega
  | broken => simp [Shape.reach, brokenRun]

theorem reach_openMark {shape : Shape} (h : shape ≠ .openComment) (rest : Text) :
    shape.reach ('(' :: '*' :: rest) ≤ 1 := by
  cases shape with
  | openComment => exact absurd rfl h
  | number => simp [Shape.reach, decimalRun, radixRun, run]
  | word => simp [Shape.reach, wordRun, isWordLetter]
  | dashes | endMarker => simp [Shape.reach, ruleRun, run]
  | symbol => simp [Shape.reach, Text.longestPrefix?, fixedSymbols]
  | operator => simp [Shape.reach, run, isOperatorChar]
  | lineComment => simp [Shape.reach, lineCommentRun]
  | backslashWord => simp [Shape.reach, backslashWordRun]
  | string => simp [Shape.reach, stringLiteralRun]
  | proofStep => simp [Shape.reach, proofStepRun]
  | delimiter | glyph =>
      simp only [Shape.reach, charRun]
      split <;> omega
  | broken => simp [Shape.reach, brokenRun]

theorem longest_eq (text : Text) {list : List Shape} (h : list ≠ []) :
    (longest text list).1 ∈ list ∧ (longest text list).2 = (longest text list).1.reach text := by
  induction list with
  | nil => exact absurd rfl h
  | cons shape rest ih =>
      simp only [longest]
      split
      · exact ⟨by simp, rfl⟩
      · next hlt =>
        cases rest with
        | nil => simp [longest] at hlt
        | cons other rest =>
            obtain ⟨hmem, hreach⟩ := ih (List.cons_ne_nil _ _)
            exact ⟨List.mem_cons_of_mem _ hmem, hreach⟩

theorem longest_reach (text : Text) :
    (longest text shapes).2 = (longest text shapes).1.reach text :=
  (longest_eq text (by decide)).2

theorem eq_reach_of_longest {text : Text} {shape : Shape} {count : Nat}
    (hbest : longest text shapes = (shape, count)) : count = shape.reach text := by
  simpa [hbest] using longest_reach text

theorem pos_of_longest {c : Char} {rest : Text} {shape : Shape} {count : Nat}
    (hbest : longest (c :: rest) shapes = (shape, count)) : 0 < count := by
  simpa [hbest] using longest_pos c rest

theorem longest_le_length {text : Text} {shape : Shape} {count : Nat}
    (hbest : longest text shapes = (shape, count)) : count ≤ text.length := by
  rw [eq_reach_of_longest hbest]
  exact reach_le_length shape text

-- A shape that reaches farther than every other one is taken.
theorem longest_of_lt {text : Text} {shape : Shape} (hpos : 0 < shape.reach text)
    (h : ∀ other, other ≠ shape → other.reach text < shape.reach text) :
    longest text shapes = (shape, shape.reach text) := by
  have hreach := longest_reach text
  have hle := reach_le_longest text shape shapes (by cases shape <;> decide)
  have hshape : (longest text shapes).1 = shape := by
    by_contra hne
    have := h _ hne
    omega
  exact Prod.ext hshape (by rw [hreach, hshape])

theorem longest_lineMark (rest : Text) :
    longest ('\\' :: '*' :: rest) shapes = (.lineComment, 2 + run (· != '\n') rest) := by
  have hreach : Shape.lineComment.reach ('\\' :: '*' :: rest) = 2 + run (· != '\n') rest := rfl
  rw [← hreach]
  apply longest_of_lt (by omega)
  intro other hother
  have := reach_lineMark hother rest
  omega

theorem longest_openMark (rest : Text) :
    longest ('(' :: '*' :: rest) shapes = (.openComment, 2) := by
  have hreach : Shape.openComment.reach ('(' :: '*' :: rest) = 2 := rfl
  rw [← hreach]
  apply longest_of_lt (by omega)
  intro other hother
  have := reach_openMark hother rest
  omega

theorem longest_quote_closed {rest : Text}
    (h : (rest.drop (stringRun rest)).head? = some '"') :
    longest ('"' :: rest) shapes = (.string, stringRun rest + 2) := by
  have hreach : Shape.string.reach ('"' :: rest) = stringRun rest + 2 := by
    simp [Shape.reach, stringLiteralRun, h]
  rw [← hreach]
  apply longest_of_lt (by omega)
  intro other hother
  by_cases hbroken : other = .broken
  · subst hbroken
    rw [hreach]
    simp only [Shape.reach, brokenRun]
    omega
  · rw [reach_quote hother hbroken]
    omega

theorem longest_quote_broken {rest : Text}
    (h : (rest.drop (stringRun rest)).head? ≠ some '"') :
    longest ('"' :: rest) shapes = (.broken, 1 + stringRun rest) := by
  have hreach : Shape.broken.reach ('"' :: rest) = 1 + stringRun rest := rfl
  rw [← hreach]
  apply longest_of_lt (by omega)
  intro other hother
  by_cases hstring : other = .string
  · subst hstring
    rw [hreach]
    simp only [Shape.reach, stringLiteralRun, if_neg h]
    omega
  · rw [reach_quote hstring hother]
    omega

-- Comments and strings are known by what they begin with.
theorem exists_of_lineComment {c : Char} {rest : Text}
    (h : (longest (c :: rest) shapes).1 = .lineComment) :
    ∃ tail, c = '\\' ∧ rest = '*' :: tail := by
  have hpos := longest_pos c rest
  rw [longest_reach, h] at hpos
  simp only [Shape.reach, lineCommentRun] at hpos
  split at hpos
  · next tail heq => exact ⟨tail, (List.cons.inj heq).1, (List.cons.inj heq).2⟩
  · exact absurd hpos (Nat.lt_irrefl 0)

theorem exists_of_openComment {c : Char} {rest : Text}
    (h : (longest (c :: rest) shapes).1 = .openComment) :
    ∃ tail, c = '(' ∧ rest = '*' :: tail := by
  have hpos := longest_pos c rest
  rw [longest_reach, h] at hpos
  simp only [Shape.reach, openCommentRun] at hpos
  split at hpos
  · next tail heq => exact ⟨tail, (List.cons.inj heq).1, (List.cons.inj heq).2⟩
  · exact absurd hpos (Nat.lt_irrefl 0)

theorem eq_quote_of_string {c : Char} {rest : Text}
    (h : (longest (c :: rest) shapes).1 = .string) : c = '"' := by
  have hpos := longest_pos c rest
  rw [longest_reach, h] at hpos
  simp only [Shape.reach, stringLiteralRun] at hpos
  split at hpos
  · next tail heq => exact (List.cons.inj heq).1
  · exact absurd hpos (Nat.lt_irrefl 0)

-- The lexeme behind a gap.
theorem next?_append {column count : Nat} {gap rest : Text} {c : Char} {shape : Shape}
    (hgap : gap.all isGap = true) (hc : isGap c = false)
    (hbest : longest (c :: rest) shapes = (shape, count)) :
    next? column (gap ++ c :: rest) =
      some (⟨shape, column + gap.length, (c :: rest).take count⟩, (c :: rest).drop count) := by
  have hall := List.all_eq_true.mp hgap
  have hdrop : (gap ++ c :: rest).dropWhile isGap = c :: rest := by
    rw [List.dropWhile_append_of_pos hall, List.dropWhile_cons_of_neg (by simp [hc])]
  have hrun : run isGap (gap ++ c :: rest) = gap.length := by
    rw [run_append_of_all hgap, run_cons_of_neg hc, Nat.add_zero]
  simp only [next?, hdrop, hbest, hrun]

theorem all_of_next?_none {column : Nat} {text : Text} (h : next? column text = none) :
    text.all isGap = true := by
  unfold next? at h
  split at h
  · next hdrop => exact List.all_eq_true.mpr (List.dropWhile_eq_nil_iff.mp hdrop)
  · cases h

theorem exists_of_next? {column : Nat} {text rest : Text} {lexeme : Lexeme}
    (h : next? column text = some (lexeme, rest)) :
    ∃ gap c tail count, gap.all isGap = true ∧ isGap c = false ∧ text = gap ++ c :: tail ∧
      longest (c :: tail) shapes = (lexeme.shape, count) ∧ lexeme.start = column + gap.length ∧
      lexeme.text = (c :: tail).take count ∧ rest = (c :: tail).drop count := by
  unfold next? at h
  split at h
  · cases h
  · next c tail hdrop =>
    generalize hbest : longest (c :: tail) shapes = best at h
    simp only [Option.some.injEq, Prod.mk.injEq] at h
    obtain ⟨rfl, rfl⟩ := h
    have htext : text = text.takeWhile isGap ++ c :: tail := by
      rw [← hdrop, List.takeWhile_append_dropWhile]
    have hc : isGap c = false := by
      have hhead := List.head?_dropWhile_not isGap text
      simpa [hdrop] using hhead
    exact ⟨text.takeWhile isGap, c, tail, best.2, List.all_takeWhile, hc, htext, hbest, rfl, rfl, rfl⟩

-- What is behind the mark of a comment is all that is left.
theorem exists_of_next?_openComment {column : Nat} {text rest : Text} {lexeme : Lexeme}
    (h : next? column text = some (lexeme, rest)) (hshape : lexeme.shape = .openComment) :
    ∃ gap, gap.all isGap = true ∧ text = gap ++ '(' :: '*' :: rest ∧
      lexeme.start = column + gap.length := by
  obtain ⟨gap, c, tail, count, hgap, -, rfl, hbest, hstart, -, hrest⟩ := exists_of_next? h
  rw [hshape] at hbest
  obtain ⟨tail, rfl, rfl⟩ := exists_of_openComment (congrArg Prod.fst hbest)
  rw [longest_openMark] at hbest
  obtain rfl : 2 = count := congrArg Prod.snd hbest
  exact ⟨gap, hgap, by rw [hrest]; rfl, hstart⟩

end Lexeme

end TlaGlyph
