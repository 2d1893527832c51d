import TlaGlyph.Proofs.Conversion.Steady
import TlaGlyph.Proofs.Line.Glyphed

namespace TlaGlyph

open Lexeme (isAsciiChar)

namespace Token

-- The token is ASCII unless it is a string, and if it is a symbol, it is the canonical spelling of it.
structure Canonical (token : Token) : Prop where
  ascii : token.kind ≠ .string → token.text.all isAsciiChar = true
  symbol : token.kind = .builtin → ∀ image ∈ Symbol.convert? .toUnicode token.text,
    Symbol.convert? .toAscii image = some token.text

instance (token : Token) : Decidable token.Canonical :=
  decidable_of_iff ((token.kind ≠ .string → token.text.all isAsciiChar = true) ∧
      (token.kind = .builtin → ∀ image ∈ Symbol.convert? .toUnicode token.text,
        Symbol.convert? .toAscii image = some token.text))
    ⟨fun h => ⟨h.1, h.2⟩, fun h => ⟨h.ascii, h.symbol⟩⟩

end Token

namespace Row

variable {direction : Direction} {row written : Row} {line : Text}

-- A row with nothing above it keeps its gaps.
theorem Converted.eq_laidFrom (h : Converted [] direction row written line)
    (hmeasured : row.Measured 0) :
    line = row.lineFrom direction 0 ∧ written = row.laidFrom direction 0 0 := by
  have hsame := h.unwritten_eq
  obtain ⟨hline, hwritten⟩ := (h.placed hmeasured nofun).of_unanchored fun token _ => token.goal?_nil
  rw [← lineFrom_unwritten, ← laidFrom_unwritten, ← hsame, lineFrom_unwritten, laidFrom_unwritten]
  exact ⟨hline, hwritten⟩

end Row

namespace Grid

theorem parse_of_line {line : Text} (hne : line ≠ []) (hnewline : '\n' ∉ line) :
    parse line = [(Row.ofCode 0 line).1] := by
  have hlines : Text.lines line = [line] := by
    have hdrop : line.dropWhile (· != '\n') = [] := by
      rw [List.dropWhile_eq_nil_iff]
      intro c hc
      have : c ≠ '\n' := by
        rintro rfl
        exact hnewline hc
      simpa using this
    rw [Text.lines]
    split
    · simp [hne]
    · next h =>
        rw [hdrop] at h
        cases h
  have hrow : Row.ofLine 0 line = Row.ofCode 0 line := rfl
  rw [parse, ofSource, hlines]
  by_cases hheader : Module.isHeader line = true
  · simp [hheader, hrow, Module.framedRows, align, alignFrom]
  · simp [hheader, hrow, Module.rows, align, alignFrom]

end Grid

namespace Text

-- A line by itself is converted token by token.
theorem convertLines_of_line (direction : Direction) {line : Text} (hne : line ≠ [])
    (hnewline : '\n' ∉ line) :
    convertLines direction line = .ok [(Row.ofCode 0 line).1.lineFrom direction 0] ∧
      written direction line = [(Row.ofCode 0 line).1.laidFrom direction 0 0] := by
  have hparse := Grid.parse_of_line hne hnewline
  obtain ⟨lines, hlines⟩ : ∃ lines, convertLines direction line = .ok lines := by
    cases direction with
    | toUnicode =>
        rcases Grid.convert_parse .toUnicode line with ⟨lines, hlines, -⟩ | ⟨hdirection, -⟩
        · exact ⟨lines, hlines⟩
        · cases hdirection
    | toAscii =>
        apply convertLines_toAscii_of_unanchored
        intro comments rest code hrow _ _ comment hcomment
        rw [hparse, List.mem_singleton] at hrow
        have hbare : Row.bare (Row.ofCode 0 line).1 = (Row.ofCode 0 line).1 :=
          (Frame.code 0 line).bare_row
        have hmem : comment ∈ Row.bare (Row.ofCode 0 line).1 := by
          rw [hbare, ← hrow]
          exact List.mem_append_left _ hcomment
        obtain ⟨origin, -, rfl⟩ := List.mem_map.mp hmem
        rfl
  have hruns := runs_of_convertLines hlines
  rw [hparse] at hruns
  generalize hafter : written direction line = after at hruns
  cases hruns with
  | cons hrow hrest =>
  cases hrest
  obtain ⟨rfl, rfl⟩ := hrow.eq_laidFrom (Frame.measured_row (.code 0 line))
  exact ⟨hlines, rfl⟩

-- A line on which no comment stands, with plain spaces between its tokens and none at the end.
structure PlainLine (source : Text) : Prop where
  ne_nil : source ≠ []
  newline : '\n' ∉ source
  code : ∀ row ∈ Grid.parse source, ∀ token ∈ row, token.isComment = false
  tidy : ∀ row ∈ Grid.parse source, row.Tidy source

instance (source : Text) : Decidable source.PlainLine :=
  decidable_of_iff (source ≠ [] ∧ '\n' ∉ source ∧
      (∀ row ∈ Grid.parse source, ∀ token ∈ row, token.isComment = false) ∧
      ∀ row ∈ Grid.parse source, row.Tidy source)
    ⟨fun ⟨hne, hnewline, hcode, htidy⟩ => ⟨hne, hnewline, hcode, htidy⟩,
      fun h => ⟨h.ne_nil, h.newline, h.code, h.tidy⟩⟩

section PlainLine

variable {source : Text} (hplain : PlainLine source)
include hplain

theorem PlainLine.mem_parse : (Row.ofCode 0 source).1 ∈ Grid.parse source := by
  rw [Grid.parse_of_line hplain.ne_nil hplain.newline]
  exact List.mem_singleton_self _

-- The line reads as its tokens do if there is nothing to do on them.
theorem PlainLine.lineFrom_eq {direction : Direction}
    (hsymbols : ∀ row ∈ Grid.parse source, ∀ token ∈ row, token.kind = .builtin →
      Symbol.convert? direction token.text = none) :
    (Row.ofCode 0 source).1.lineFrom direction 0 = source := by
  have hrow := hplain.mem_parse
  have hread : (Row.ofCode 0 source).1.ReadFrom source :=
    @Frame.readFrom (.code 0 source) hplain.newline
  have hwhole : ∀ block, ¬(Row.ofCode 0 source).1.SplitsOff block := by
    apply Row.not_splitsOff
    intro token htoken hkind
    have hcode := hplain.code _ hrow token (List.dropLast_subset _ htoken)
    rw [Token.isComment, hkind] at hcode
    cases hcode
  have hspan : ∀ token ∈ (Row.ofCode 0 source).1, token.emission direction = token.span source := by
    intro token htoken
    exact hread.emission_eq_span htoken
      ⟨hsymbols _ hrow token htoken, hread.width_eq htoken hwhole⟩
  rw [Row.lineFrom_eq_blanked hread.measured hread.finish_le hspan]
  exact (Row.tidy_iff hread.measured hread.finish_le).mp (hplain.tidy _ hrow)

end PlainLine

-- A line in canonical spellings comes back from its glyphs, and no token has to stand apart from another
-- for that.
theorem exists_convertLines_toAscii {source : Text} (hplain : PlainLine source)
    (hcanonical : ∀ row ∈ Grid.parse source, ∀ token ∈ row, token.Canonical) :
    ∃ line, convertLines .toUnicode source = .ok [line] ∧
      convertLines .toAscii line = .ok [source] := by
  have hrow := hplain.mem_parse
  have hsame : (Row.ofCode 0 source).1.lineFrom .toAscii 0 = source := by
    apply hplain.lineFrom_eq
    intro row hrow token htoken hkind
    have hstring : token.kind ≠ .string := by
      rw [hkind]
      exact Kind.noConfusion
    exact Symbol.canonical?_eq_none_of_ascii ((hcanonical row hrow token htoken).ascii hstring)
  obtain ⟨spellings, hspelled⟩ := (Row.ofCode_cuts 0 hplain.newline).exists_spelled
    (hplain.code _ hrow) (fun token htoken => (hcanonical _ hrow token htoken).symbol) 0
  rw [hsame] at hspelled
  have hne := mt hspelled.eq_nil_iff.mp hplain.ne_nil
  have hnewline := mt hspelled.newline.mp hplain.newline
  have hline := (hspelled.lineFrom_eq (Row.ofCode_cuts 0 hnewline)).1
  refine ⟨_, (convertLines_of_line .toUnicode hplain.ne_nil hplain.newline).1, ?_⟩
  rw [(convertLines_of_line .toAscii hne hnewline).1, hline]

-- The slash belongs to a run of operator characters on the first line, and to a symbol on the other.
theorem exists_convertLines_toAscii_of_adjacent :
    PlainLine "x=>/\\y \\in\"é\"".toList ∧
      (∀ row ∈ Grid.parse "x=>/\\y \\in\"é\"".toList, ∀ token ∈ row, token.Canonical) ∧
      convertLines .toAscii "x⇒/\\y ∈\"é\"".toList = .ok ["x=>/\\y \\in\"é\"".toList] := by
  have hfirst : (PlainLine "x=>/\\y \\in\"é\"".toList ∧
      ∀ row ∈ Grid.parse "x=>/\\y \\in\"é\"".toList, ∀ token ∈ row, token.Canonical) ∧
      convertLines .toUnicode "x=>/\\y \\in\"é\"".toList = .ok ["x⇒/\\y ∈\"é\"".toList] := by
    decide +kernel
  obtain ⟨⟨hplain, hcanonical⟩, hglyphs⟩ := hfirst
  obtain ⟨line, hline, hback⟩ := exists_convertLines_toAscii hplain hcanonical
  rw [hglyphs, Except.ok.injEq, List.singleton_inj] at hline
  exact ⟨hplain, hcanonical, hline ▸ hback⟩

-- A line with glyphs is spelled, and what is spelled comes back just when it is read as the spellings
-- that were written and no others.
theorem exists_convertLines_toUnicode {source : Text} (hplain : PlainLine source)
    (hglyphs : ∀ row ∈ Grid.parse source, ∀ token ∈ row, token.kind = .builtin →
      Symbol.convert? .toUnicode token.text = none) :
    ∃ line, convertLines .toAscii source = .ok [line] ∧
      (convertLines .toUnicode line = .ok [source] ↔
        (Grid.parse line).flatMap Row.symbols = (written .toAscii source).flatMap Row.spelled) := by
  have hrow := hplain.mem_parse
  have hcuts : Row.Cuts 0 source (Row.ofCode 0 source).1 := Row.ofCode_cuts 0 hplain.newline
  have hcanonical : ∀ token ∈ (Row.ofCode 0 source).1, token.kind = .builtin → ∀ image,
      Symbol.glyph? token.text = some image → Symbol.canonical? image = some token.text := by
    intro token htoken hkind image himage
    have hnone : Symbol.glyph? token.text = none := hglyphs _ hrow token htoken hkind
    rw [hnone] at himage
    cases himage
  obtain ⟨spellings, hspelled⟩ := hcuts.exists_spelled (hplain.code _ hrow) hcanonical 0
  rw [hplain.lineFrom_eq hglyphs] at hspelled
  have hne := mt hspelled.eq_nil_iff.mpr hplain.ne_nil
  have hnewline := mt hspelled.newline.mpr hplain.newline
  have hspellings := (hspelled.lineFrom_eq hcuts).2
  have hiff := hspelled.eq_iff (Row.ofCode_cuts 0 hnewline).glyphed
  obtain ⟨hline, hwritten⟩ := convertLines_of_line .toAscii hplain.ne_nil hplain.newline
  refine ⟨_, hline, ?_⟩
  rw [(convertLines_of_line .toUnicode hne hnewline).1, hwritten, Grid.parse_of_line hne hnewline,
    List.flatMap_singleton, List.flatMap_singleton, hspellings, Except.ok.injEq,
    List.singleton_inj]
  exact hiff

-- The letters behind the glyphs are no part of their spellings.
theorem exists_convertLines_toUnicode_of_apart :
    PlainLine "x∈ S∧¬T".toList ∧
      (∀ row ∈ Grid.parse "x∈ S∧¬T".toList, ∀ token ∈ row, token.kind = .builtin →
        Symbol.convert? .toUnicode token.text = none) ∧
      convertLines .toUnicode "x\\in S/\\~T".toList = .ok ["x∈ S∧¬T".toList] := by
  have hfirst : (PlainLine "x∈ S∧¬T".toList ∧
      ∀ row ∈ Grid.parse "x∈ S∧¬T".toList, ∀ token ∈ row, token.kind = .builtin →
        Symbol.convert? .toUnicode token.text = none) ∧
      convertLines .toAscii "x∈ S∧¬T".toList = .ok ["x\\in S/\\~T".toList] := by decide +kernel
  obtain ⟨⟨hplain, hglyphs⟩, hascii⟩ := hfirst
  obtain ⟨line, hline, hback⟩ := exists_convertLines_toUnicode hplain hglyphs
  rw [hascii, Except.ok.injEq, List.singleton_inj] at hline
  subst hline
  exact ⟨hplain, hglyphs, hback.mpr (by decide +kernel)⟩

-- The spelling of the glyph takes the letter behind it.
theorem not_forall_exists_convertLines_toUnicode :
    ¬ ∀ source : Text, PlainLine source →
      (∀ row ∈ Grid.parse source, ∀ token ∈ row, token.kind = .builtin →
        Symbol.convert? .toUnicode token.text = none) →
      ∃ line, convertLines .toAscii source = .ok [line] ∧
        convertLines .toUnicode line = .ok [source] := by
  intro h
  have hfirst : (PlainLine "x∈S".toList ∧
      ∀ row ∈ Grid.parse "x∈S".toList, ∀ token ∈ row, token.kind = .builtin →
        Symbol.convert? .toUnicode token.text = none) ∧
      convertLines .toAscii "x∈S".toList = .ok ["x\\inS".toList] ∧
      convertLines .toUnicode "x\\inS".toList = .ok ["x\\inS".toList] := by decide +kernel
  obtain ⟨⟨hplain, hglyphs⟩, hascii, hsecond⟩ := hfirst
  obtain ⟨line, hline, hback⟩ := h _ hplain hglyphs
  rw [hascii, Except.ok.injEq, List.singleton_inj] at hline
  rw [← hline, hsecond] at hback
  exact absurd hback (by decide)

end Text

end TlaGlyph
