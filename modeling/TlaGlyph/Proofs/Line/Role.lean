import TlaGlyph.Proofs.Grid.Scan
import TlaGlyph.Proofs.Lexeme.Ascii
import TlaGlyph.Proofs.Line.Emission

namespace TlaGlyph

open Lexeme (isGap isAsciiChar)
open Text (opensMark)

namespace Symbol

theorem not_ascii_glyph : ∀ symbol ∈ table, isAsciiChar symbol.glyph = false := by decide +kernel

theorem not_gap_glyph : ∀ symbol ∈ table, isGap symbol.glyph = false := by decide +kernel

theorem ascii_of_mem_spellings :
    ∀ symbol ∈ table, ∀ text ∈ symbol.spellings, text.all isAsciiChar = true := by
  decide +kernel

theorem not_gap_of_mem_spellings :
    ∀ symbol ∈ table, ∀ text ∈ symbol.spellings, text.all (!isGap ·) = true := by
  decide +kernel

theorem exists_cons {symbol : Symbol} {text : Text} (hsymbol : symbol ∈ table)
    (htext : text ∈ symbol.spellings) :
    ∃ c rest, text = c :: rest ∧ isAsciiChar c = true ∧ isGap c = false ∧ c ≠ '"' := by
  have hascii := ascii_of_mem_spellings symbol hsymbol text htext
  have hgap := not_gap_of_mem_spellings symbol hsymbol text htext
  have hquote := head?_ne_quote_of_mem_spellings symbol hsymbol text htext
  cases text with
  | nil => exact absurd (length_pos_of_mem_spellings symbol hsymbol [] htext) (by decide)
  | cons c rest =>
      rw [List.all_cons, Bool.and_eq_true] at hascii hgap
      refine ⟨c, rest, rfl, hascii.1, by simpa using hgap.1, ?_⟩
      rintro rfl
      exact hquote rfl

-- No spelling begins with a star, and none with a mark of a comment.
theorem head?_ne_star : ∀ symbol ∈ table, symbol.canonical.head? ≠ some '*' := by decide +kernel

theorem second_ne_star : ∀ symbol ∈ table, symbol.canonical.head?.any opensMark = true →
    (symbol.canonical.drop 1).head?.any (· != '*') = true := by
  decide +kernel

-- Of the spellings of a symbol none is a part of the canonical one, and none has it as a part.
theorem eq_canonical_of_prefix : ∀ symbol ∈ table, ∀ text ∈ symbol.spellings,
    text.isPrefixOf symbol.canonical = true ∨ symbol.canonical.isPrefixOf text = true →
      text = symbol.canonical := by
  decide +kernel

-- A canonical spelling does not come apart into one of another kind for the same glyph.
theorem glyph_eq_iff {symbol other : Symbol} {text rest behind : Text} (hsymbol : symbol ∈ table)
    (hother : other ∈ table) (htext : text ∈ other.spellings)
    (hsame : symbol.canonical ++ rest = text ++ behind) :
    other.glyph = symbol.glyph ↔ text = symbol.canonical := by
  have hspelling := (convert?_of_mem_table symbol hsymbol).2 symbol.canonical (.head _)
  have hspells := (convert?_of_mem_table other hother).2 text htext
  constructor
  · intro hglyph
    have hcanonical : other.canonical = symbol.canonical := by
      have hwrites := (convert?_of_mem_table other hother).1
      rw [hglyph, (convert?_of_mem_table symbol hsymbol).1] at hwrites
      exact (Option.some.inj hwrites).symm
    have hbegins := List.prefix_or_prefix_of_prefix (hsame ▸ List.prefix_append text behind)
      (List.prefix_append symbol.canonical rest)
    simp only [← List.isPrefixOf_iff_prefix, ← hcanonical] at hbegins
    rw [← hcanonical]
    exact eq_canonical_of_prefix other hother text htext hbegins
  · rintro rfl
    rw [hspelling] at hspells
    exact (List.cons.inj (Option.some.inj hspells)).1.symm

theorem canonical?_eq_none_of_ascii {text : Text} (h : text.all isAsciiChar = true) :
    canonical? text = none := by
  cases hcanonical : canonical? text with
  | none => rfl
  | some image =>
      obtain ⟨symbol, hmem, rfl, -⟩ := exists_of_canonical? hcanonical
      rw [List.all_cons, not_ascii_glyph symbol hmem] at h
      cases h

theorem glyph?_glyph {symbol : Symbol} (h : symbol ∈ table) : glyph? [symbol.glyph] = none := by
  cases hglyph : glyph? [symbol.glyph] with
  | none => rfl
  | some image =>
      obtain ⟨other, hmem, -, htext⟩ := exists_of_glyph? hglyph
      have hascii := ascii_of_mem_spellings other hmem _ htext
      rw [List.all_cons, not_ascii_glyph symbol h] at hascii
      cases hascii

-- A string that breaks off is no symbol.
theorem glyph?_quote (text : Text) : glyph? ('"' :: text) = none := by
  cases hglyph : glyph? ('"' :: text) with
  | none => rfl
  | some image =>
      obtain ⟨symbol, hmem, -, htext⟩ := exists_of_glyph? hglyph
      exact absurd rfl (head?_ne_quote_of_mem_spellings symbol hmem _ htext)

theorem canonical?_quote (text : Text) : canonical? ('"' :: text) = none := by
  cases hcanonical : canonical? ('"' :: text) with
  | none => rfl
  | some image =>
      obtain ⟨symbol, hmem, htext, -⟩ := exists_of_canonical? hcanonical
      have hglyph := not_ascii_glyph symbol hmem
      rw [← (List.cons.inj htext).1] at hglyph
      exact absurd hglyph (by decide)

end Symbol

namespace Token

-- A token without marks is an ASCII spelling, a glyph, or no symbol at all.
inductive Role (kind : Kind) (text : Text) : Prop
  | ascii {symbol : Symbol} (hkind : kind = .builtin) (hsymbol : symbol ∈ Symbol.table)
      (htext : text ∈ symbol.spellings)
  | glyph {symbol : Symbol} (hkind : kind = .builtin) (hsymbol : symbol ∈ Symbol.table)
      (htext : text = [symbol.glyph])
  | other (hglyph : kind = .builtin → Symbol.glyph? text = none)
      (hcanonical : kind = .builtin → Symbol.canonical? text = none)

theorem role (kind : Kind) (text : Text) : Role kind text := by
  by_cases hkind : kind = .builtin
  · cases hglyph : Symbol.glyph? text with
    | some image =>
        obtain ⟨symbol, hmem, -, htext⟩ := Symbol.exists_of_glyph? hglyph
        exact .ascii hkind hmem htext
    | none =>
        cases hcanonical : Symbol.canonical? text with
        | some image =>
            obtain ⟨symbol, hmem, htext, -⟩ := Symbol.exists_of_canonical? hcanonical
            exact .glyph hkind hmem htext
        | none => exact .other (fun _ => hglyph) fun _ => hcanonical
  · exact .other (fun h => absurd h hkind) fun h => absurd h hkind

section Emission

variable {symbol : Symbol} {text : Text} (hsymbol : symbol ∈ Symbol.table) (column : Nat)
  (direction : Direction)
include hsymbol

theorem emission_toUnicode_spelling (htext : text ∈ symbol.spellings) :
    (ofText .builtin text column).emission .toUnicode = [symbol.glyph] := by
  simp [emission, ofText, Symbol.convert?, (Symbol.convert?_of_mem_table symbol hsymbol).2 text htext]

theorem emission_toAscii_spelling (htext : text ∈ symbol.spellings) :
    (ofText .builtin text column).emission .toAscii = text := by
  simp [emission, ofText, Symbol.convert?,
    Symbol.canonical?_eq_none_of_ascii (Symbol.ascii_of_mem_spellings symbol hsymbol text htext)]

theorem emission_toUnicode_glyph :
    (ofText .builtin [symbol.glyph] column).emission .toUnicode = [symbol.glyph] := by
  simp [emission, ofText, Symbol.convert?, Symbol.glyph?_glyph hsymbol]

theorem emission_toAscii_glyph :
    (ofText .builtin [symbol.glyph] column).emission .toAscii = symbol.canonical := by
  simp [emission, ofText, Symbol.convert?, (Symbol.convert?_of_mem_table symbol hsymbol).1]

end Emission

theorem emission_other {kind : Kind} {text : Text} (hplain : kind.isPlain = true)
    (hglyph : kind = .builtin → Symbol.glyph? text = none)
    (hcanonical : kind = .builtin → Symbol.canonical? text = none) (column : Nat)
    (direction : Direction) : (ofText kind text column).emission direction = text := by
  cases kind with
  | builtin =>
      cases direction <;> simp [emission, ofText, Symbol.convert?, hglyph, hcanonical]
  | label | prolog | epilog | string | comment => cases hplain
  | _ => simp [emission, ofText, spelling, Kind.openMark, Kind.closeMark]

theorem emission_toAscii_of_ascii {kind : Kind} {text : Text} (hplain : kind.isPlain = true)
    (hascii : text.all isAsciiChar = true) (column : Nat) :
    (ofText kind text column).emission .toAscii = text := by
  cases role kind text with
  | ascii hkind hsymbol htext =>
      rw [hkind]
      exact emission_toAscii_spelling hsymbol column htext
  | glyph hkind hsymbol htext =>
      rw [htext, List.all_cons, Symbol.not_ascii_glyph _ hsymbol] at hascii
      cases hascii
  | other hglyph hcanonical => exact emission_other hplain hglyph hcanonical column .toAscii

theorem emission_string (text : Text) (column : Nat) (direction : Direction) :
    (ofText .string text column).emission direction = '"' :: (text ++ ['"']) := rfl

theorem emission_broken (text : Text) (column : Nat) (direction : Direction) :
    (ofText .builtin ('"' :: text) column).emission direction = '"' :: text :=
  emission_other rfl (fun _ => Symbol.glyph?_quote text) (fun _ => Symbol.canonical?_quote text)
    column direction

end Token

end TlaGlyph
