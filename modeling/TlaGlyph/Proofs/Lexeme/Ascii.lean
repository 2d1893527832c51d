import TlaGlyph.Proofs.Lexeme.Marks

namespace TlaGlyph.Lexeme

open Text (run run_mono opensMark)

def isAsciiChar (c : Char) : Bool := c.toNat ≤ 0x7F

theorem isAsciiChar_of_le {c : Char} {last : UInt32} (hle : c.val ≤ last)
    (hlast : last.toNat ≤ 0x7F) : isAsciiChar c = true :=
  decide_eq_true (Nat.le_trans (UInt32.le_iff_toNat_le.mp hle) hlast)

theorem isAsciiChar_of_isAlphanum {c : Char} (h : c.isAlphanum = true) : isAsciiChar c = true := by
  rcases Bool.or_eq_true_iff.mp h with halpha | hdigit
  · rcases Bool.or_eq_true_iff.mp halpha with hupper | hlower
    · have hle : c.val ≤ 90 := (of_decide_eq_true hupper).2
      exact isAsciiChar_of_le hle (by decide)
    · have hle : c.val ≤ 122 := of_decide_eq_true (Bool.and_eq_true_iff.mp hlower).2
      exact isAsciiChar_of_le hle (by decide)
  · have hle : c.val ≤ 57 := of_decide_eq_true (Bool.and_eq_true_iff.mp hdigit).2
    exact isAsciiChar_of_le hle (by decide)

theorem isAsciiChar_of_isInner (c : Char) (h : isInner c = true) : isAsciiChar c = true := by
  rcases Bool.or_eq_true_iff.mp h with hletter | hoperator
  · rcases Bool.or_eq_true_iff.mp hletter with halphanum | hunderscore
    · exact isAsciiChar_of_isAlphanum halphanum
    · rw [beq_iff_eq.mp hunderscore]
      decide
  · have hall : "-+*/<>=|~&!@#$%^:.'?".toList.all isAsciiChar = true := by decide
    exact List.all_eq_true.mp hall c (List.contains_iff_mem.mp hoperator)

theorem isAsciiChar_of_opensMark {c : Char} (h : opensMark c = true) : isAsciiChar c = true := by
  rcases Bool.or_eq_true_iff.mp h with hparen | hbackslash
  · rw [beq_iff_eq.mp hparen]
    decide
  · rw [beq_iff_eq.mp hbackslash]
    decide

theorem not_isGap_of_isInner (c : Char) (h : isInner c = true) : (!isGap c) = true := by
  by_contra hnot
  have hspace : isGap c = true := by simpa using hnot
  simp only [isGap, Bool.or_eq_true, beq_iff_eq] at hspace
  rcases hspace with ((rfl | rfl) | rfl) | rfl <;> exact absurd h (by decide)

theorem not_opensMark_of_isInner (c : Char) (h : isInner c = true) : opensMark c = false := by
  by_contra hnot
  have hopens : opensMark c = true := by simpa using hnot
  rcases Bool.or_eq_true_iff.mp hopens with hparen | hbackslash
  · rw [beq_iff_eq.mp hparen] at h
    exact absurd h (by decide)
  · rw [beq_iff_eq.mp hbackslash] at h
    exact absurd h (by decide)

variable {c : Char} {rest : Text} {shape : Shape} {count : Nat}

section NotAscii

variable (hc : isAsciiChar c = false)
include hc

theorem ne_of_not_ascii {d : Char} (hd : isAsciiChar d = true) : c ≠ d := by
  rintro rfl
  rw [hc] at hd
  cases hd

theorem run_of_not_ascii : run isInner (c :: rest) = 0 := by
  apply Text.run_cons_of_neg
  by_contra hinner
  have hascii := isAsciiChar_of_isInner c (by simpa using hinner)
  rw [hc] at hascii
  cases hascii

-- Only glyphs and what belongs to no lexeme begin with a character that is not ASCII.
theorem reach_of_not_ascii (hglyph : shape ≠ .glyph) (hbroken : shape ≠ .broken) :
    shape.reach (c :: rest) = 0 := by
  have hinner : run isInner (c :: rest) = 0 := run_of_not_ascii hc
  have hbackslash : c ≠ '\\' := ne_of_not_ascii hc (by decide)
  apply Nat.le_zero.mp
  cases shape with
  | lineComment => simp [Shape.reach, lineCommentRun, hbackslash]
  | openComment =>
      have hparen : c ≠ '(' := ne_of_not_ascii hc (by decide)
      simp [Shape.reach, openCommentRun, hparen]
  | string =>
      have hquote : c ≠ '"' := ne_of_not_ascii hc (by decide)
      simp [Shape.reach, stringLiteralRun, hquote]
  | number =>
      have hdecimal := decimalRun_le_inner (c :: rest)
      have hradix : radixRun (c :: rest) = 0 := by
        unfold radixRun
        split
        · next heq => exact absurd (List.cons.inj heq).1 hbackslash
        · rfl
      simp only [Shape.reach]
      omega
  | word => exact hinner ▸ wordRun_le_inner _
  | dashes => exact hinner ▸ ruleRun_le_inner (c := '-') (by decide) _
  | endMarker => exact hinner ▸ ruleRun_le_inner (c := '=') (by decide) _
  | proofStep => exact hinner ▸ proofStepRun_le_inner _
  | backslashWord => simp [Shape.reach, backslashWordRun, hbackslash]
  | symbol =>
      have hall : ∀ word ∈ fixedSymbols, word.head?.any isAsciiChar = true := by decide
      by_contra hnot
      have hpos : 0 < Shape.symbol.reach (c :: rest) := Nat.not_le.mp hnot
      obtain ⟨word, hmem, after, hafter, -⟩ := exists_of_reach_symbol hpos
      have hhead := hall word hmem
      cases word with
      | nil => cases hhead
      | cons first word =>
          rw [List.cons_append] at hafter
          rw [List.head?_cons, Option.any_some, ← (List.cons.inj hafter).1, hc] at hhead
          cases hhead
  | operator => exact hinner ▸ run_mono isInner_of_isOperatorChar _
  | delimiter =>
      have hall : "()\x7b\x7d[],;".toList.all isAsciiChar = true := by decide
      have hdelimiter : isDelimiter c = false := by
        by_contra hmem
        rw [Bool.not_eq_false, isDelimiter, List.contains_iff_mem] at hmem
        exact ne_of_not_ascii hc (List.all_eq_true.mp hall c hmem) rfl
      simp [Shape.reach, charRun, hdelimiter]
  | glyph => exact absurd rfl hglyph
  | broken => exact absurd rfl hbroken

end NotAscii

section Longest

variable (hquote : c ≠ '"') (hline : shape ≠ .lineComment)
  (hbest : longest (c :: rest) shapes = (shape, count))
include hquote hline hbest

theorem symbol_or_inner :
    (shape = .symbol ∧ (c :: rest).take count ∈ fixedSymbols) ∨
      ∃ inner, (c :: rest).take count = c :: inner ∧ inner.all isInner = true := by
  have hreach := eq_reach_of_longest hbest
  have hpos := pos_of_longest hbest
  by_cases hsymbol : shape = .symbol
  · rw [hsymbol] at hreach
    rw [hreach] at hpos
    obtain ⟨word, hmem, after, hafter, hlength⟩ := exists_of_reach_symbol hpos
    refine .inl ⟨hsymbol, ?_⟩
    rw [hreach, hlength, hafter, List.take_left]
    exact hmem
  · have hinner : shape.reach (c :: rest) ≤ 1 + run isInner rest :=
      reach_le_inner hline hsymbol hquote
    obtain ⟨more, rfl⟩ : ∃ more, count = more + 1 := ⟨count - 1, by omega⟩
    exact .inr ⟨rest.take more, rfl, Text.take_all_of_le_run (by omega)⟩

-- A character that is not ASCII is a lexeme of its own, and no other lexeme holds one.
theorem ascii_of_longest :
    ((c :: rest).take count).all isAsciiChar = true ∨
      count = 1 ∧ (shape = .glyph ∨ shape = .broken) := by
  rcases symbol_or_inner hquote hline hbest with ⟨-, hmem⟩ | ⟨inner, htake, hinner⟩
  · have hall : ∀ word ∈ fixedSymbols, word.all isAsciiChar = true := by decide
    exact .inl (hall _ hmem)
  · by_cases hascii : isAsciiChar c = true
    · refine .inl ?_
      rw [htake, List.all_cons, hascii, Bool.true_and]
      exact List.all_eq_true.mpr fun d hd =>
        isAsciiChar_of_isInner d (List.all_eq_true.mp hinner d hd)
    · have hc : isAsciiChar c = false := by simpa using hascii
      have hless : c ≠ '<' := ne_of_not_ascii hc (by decide)
      have hreach := eq_reach_of_longest hbest
      have hpos := pos_of_longest hbest
      by_cases hglyph : shape = .glyph
      · refine .inr ⟨?_, .inl hglyph⟩
        rw [hglyph] at hreach
        simp only [Shape.reach, charRun] at hreach
        split at hreach <;> omega
      · by_cases hbroken : shape = .broken
        · refine .inr ⟨?_, .inr hbroken⟩
          rw [hreach, hbroken]
          simp [Shape.reach, brokenRun]
        · have hzero : shape.reach (c :: rest) = 0 := reach_of_not_ascii hc hglyph hbroken
          omega

-- Nothing that is skipped between lexemes is in one.
theorem not_gap_of_longest (hgap : isGap c = false) :
    ((c :: rest).take count).all (!isGap ·) = true := by
  rcases symbol_or_inner hquote hline hbest with ⟨-, hmem⟩ | ⟨inner, htake, hinner⟩
  · have hall : ∀ word ∈ fixedSymbols, word.all (!isGap ·) = true := by decide
    exact hall _ hmem
  · rw [htake, List.all_cons, hgap, Bool.not_false, Bool.true_and]
    exact List.all_eq_true.mpr fun d hd => not_isGap_of_isInner d (List.all_eq_true.mp hinner d hd)

-- In front of a star only one lexeme ends in what may begin a mark with it, and that one is a symbol.
theorem eq_of_star (hopen : shape ≠ .openComment)
    (hlast : ((c :: rest).take count).getLast?.any opensMark = true)
    (hstar : ((c :: rest).drop count).head? = some '*') :
    shape = .symbol ∧ (c :: rest).take count = ['/', '\\'] := by
  -- the mark itself would be longer
  have hmark : (c :: rest).take count = [c] → opensMark c = true → False := by
    intro hsingle hopens
    have hsplit := List.take_append_drop count (c :: rest)
    obtain ⟨tail, htail⟩ := List.head?_eq_some_iff.mp hstar
    rw [hsingle, htail] at hsplit
    rw [← hsplit, List.singleton_append] at hbest
    rcases Bool.or_eq_true_iff.mp hopens with hparen | hbackslash
    · rw [beq_iff_eq.mp hparen, longest_openMark] at hbest
      exact hopen (congrArg Prod.fst hbest).symm
    · rw [beq_iff_eq.mp hbackslash, longest_lineMark] at hbest
      exact hline (congrArg Prod.fst hbest).symm
  rcases symbol_or_inner hquote hline hbest with ⟨hsymbol, hmem⟩ | ⟨inner, htake, hinner⟩
  · have hall : ∀ word ∈ fixedSymbols, word.getLast?.any opensMark = true →
        word = ['/', '\\'] ∨ word = ['\\'] := by decide
    rcases hall _ hmem hlast with hword | hword
    · exact ⟨hsymbol, hword⟩
    · have hc : c = '\\' := by
        have hhead := congrArg List.head? hword
        cases count with
        | zero => cases hhead
        | succ count => exact Option.some.inj hhead
      exact absurd (hc ▸ by decide) (hmark (hc ▸ hword))
  · exfalso
    rw [htake, List.getLast?_cons] at hlast
    cases hend : inner.getLast? with
    | none =>
        rw [hend] at hlast
        rw [List.getLast?_eq_none_iff.mp hend] at htake
        exact hmark htake hlast
    | some last =>
        have hinner := List.all_eq_true.mp hinner last (List.mem_of_getLast? hend)
        rw [hend, Option.getD_some, Option.any_some, not_opensMark_of_isInner last hinner] at hlast
        cases hlast

end Longest

end TlaGlyph.Lexeme
