import TlaGlyph.Line.Emission
import TlaGlyph.Proofs.Lexeme.Marks

namespace TlaGlyph

namespace Symbol

theorem exists_of_glyph? {text image : Text} (h : glyph? text = some image) :
    ∃ symbol ∈ table, image = [symbol.glyph] ∧ text ∈ symbol.spellings := by
  obtain ⟨symbol, hfind, rfl⟩ := Option.map_eq_some_iff.mp h
  exact ⟨symbol, List.mem_of_find?_eq_some hfind, rfl, by simpa using List.find?_some hfind⟩

theorem exists_of_canonical? {text image : Text} (h : canonical? text = some image) :
    ∃ symbol ∈ table, text = [symbol.glyph] ∧ image = symbol.canonical := by
  obtain ⟨symbol, hfind, rfl⟩ := Option.map_eq_some_iff.mp h
  have hglyph : [symbol.glyph] = text := by simpa using List.find?_some hfind
  exact ⟨symbol, List.mem_of_find?_eq_some hfind, hglyph.symm, rfl⟩

theorem length_pos_of_mem_spellings :
    ∀ symbol ∈ table, ∀ text ∈ symbol.spellings, 0 < text.length := by
  decide

theorem head?_ne_quote_of_mem_spellings :
    ∀ symbol ∈ table, ∀ text ∈ symbol.spellings, text.head? ≠ some '"' := by
  decide

theorem unmarked_glyph : ∀ symbol ∈ table, Text.Unmarked [symbol.glyph] := by
  decide

-- On the way to Unicode a text gets no longer, on the way to ASCII no shorter.
theorem convert?_toUnicode_le {text image : Text} (h : convert? .toUnicode text = some image) :
    image.length = 1 ∧ 0 < text.length := by
  obtain ⟨symbol, hmem, rfl, htext⟩ := exists_of_glyph? h
  exact ⟨rfl, length_pos_of_mem_spellings symbol hmem text htext⟩

theorem convert?_toAscii_le {text image : Text} (h : convert? .toAscii text = some image) :
    text.length = 1 ∧ 0 < image.length := by
  obtain ⟨symbol, hmem, rfl, rfl⟩ := exists_of_canonical? h
  exact ⟨rfl, length_pos_of_mem_spellings symbol hmem _ (by simp [spellings])⟩

end Symbol

namespace Token

-- Only a builtin that spells a symbol and the opening of a comment without a width are not written
-- the way they are spelled.
theorem emission_cases (direction : Direction) (token : Token) :
    (∃ image, Symbol.convert? direction token.text = some image ∧
      token.spelling = token.text ∧ token.emission direction = image) ∨
    (token.width = 0 ∧ token.emission direction = []) ∨
      token.emission direction = token.spelling := by
  unfold emission
  cases hkind : token.kind with
  | builtin =>
      have hspelling : token.spelling = token.text := by
        simp [spelling, hkind, Kind.openMark, Kind.closeMark]
      cases hconvert : Symbol.convert? direction token.text with
      | none => exact .inr (.inr hspelling.symm)
      | some image => exact .inl ⟨image, rfl, hspelling, rfl⟩
  | comment kind =>
      simp only [CommentKind.emission]
      split
      · next h => exact .inr (.inl ⟨h.2, rfl⟩)
      · exact .inr (.inr (by simp [spelling, hkind, Kind.openMark, Kind.closeMark]))
  | _ => exact .inr (.inr rfl)

-- No symbol is spelled with a quote.
theorem emission_quote {token : Token} {text : Text} (hkind : token.kind = .builtin)
    (htext : token.text = '"' :: text) : token.emission .toUnicode = '"' :: text := by
  have hnone : Symbol.convert? .toUnicode token.text = none := by
    cases hglyph : Symbol.convert? .toUnicode token.text with
    | none => rfl
    | some image =>
        obtain ⟨symbol, hmem, -, hspelling⟩ := Symbol.exists_of_glyph? hglyph
        have hhead : token.text.head? = some '"' := by rw [htext]; rfl
        exact absurd hhead (Symbol.head?_ne_quote_of_mem_spellings symbol hmem _ hspelling)
  rw [emission, hkind]
  simp only [hnone, Option.getD_none]
  exact htext

theorem emission_toUnicode_le (token : Token) :
    (token.emission .toUnicode).length ≤ token.spelling.length := by
  rcases emission_cases .toUnicode token with ⟨image, hconvert, hspelling, himage⟩ | ⟨-, hnil⟩ | hsame
  · obtain ⟨hlength, hpos⟩ := Symbol.convert?_toUnicode_le hconvert
    rw [himage, hspelling]
    omega
  · rw [hnil]
    exact Nat.zero_le _
  · exact Nat.le_of_eq (congrArg List.length hsame)

theorem le_emission_toAscii {token : Token} (hwidth : 0 < token.width) :
    token.spelling.length ≤ (token.emission .toAscii).length := by
  rcases emission_cases .toAscii token with ⟨image, hconvert, hspelling, himage⟩ | ⟨hzero, -⟩ | hsame
  · obtain ⟨hlength, hpos⟩ := Symbol.convert?_toAscii_le hconvert
    rw [himage, hspelling]
    omega
  · omega
  · exact Nat.le_of_eq (congrArg List.length hsame.symm)

theorem emission_pos {token : Token} (direction : Direction) (hwidth : 0 < token.width)
    (hspelled : token.width = token.spelling.length) : 0 < (token.emission direction).length := by
  rcases emission_cases direction token with ⟨image, hconvert, hspelling, himage⟩ | ⟨hzero, -⟩ | hsame
  · rw [himage]
    cases direction with
    | toUnicode =>
        have hlength := (Symbol.convert?_toUnicode_le hconvert).1
        omega
    | toAscii => exact (Symbol.convert?_toAscii_le hconvert).2
  · omega
  · rw [hsame]
    omega

end Token

end TlaGlyph
