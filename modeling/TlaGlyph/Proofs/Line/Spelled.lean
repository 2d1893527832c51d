import TlaGlyph.Proofs.Grid.Cut
import TlaGlyph.Proofs.Line.Role
import TlaGlyph.Proofs.Line.Steady

namespace TlaGlyph

open Lexeme (isGap isAsciiChar Within)
open Text (opensMark)

namespace Text

-- Two texts that are the same line, one with glyphs and one with their canonical spellings, which are
-- listed with their columns. The second text begins at `column`. No mark of a comment is in the text
-- with the glyphs, and its gaps are single spaces with none at the end.
inductive Spelled : Nat → Text → Text → List (Nat × Text) → Prop
  | nil {column : Nat} : Spelled column [] [] []
  | space {column : Nat} {glyphs ascii : Text} {spellings : List (Nat × Text)} (hne : glyphs ≠ [])
      (hrest : Spelled (column + 1) glyphs ascii spellings) :
      Spelled column (' ' :: glyphs) (' ' :: ascii) spellings
  | keep {column : Nat} {c : Char} {glyphs ascii : Text} {spellings : List (Nat × Text)}
      (hquote : c ≠ '"') (hgap : isGap c = false) (hglyph : Symbol.canonical? [c] = none)
      (hmark : opensMark c = true → glyphs.head? ≠ some '*')
      (hrest : Spelled (column + 1) glyphs ascii spellings) :
      Spelled column (c :: glyphs) (c :: ascii) spellings
  | glyph {column : Nat} {symbol : Symbol} {glyphs ascii : Text} {spellings : List (Nat × Text)}
      (hsymbol : symbol ∈ Symbol.table)
      (hrest : Spelled (column + symbol.canonical.length) glyphs ascii spellings) :
      Spelled column (symbol.glyph :: glyphs) (symbol.canonical ++ ascii)
        ((column, symbol.canonical) :: spellings)
  | string {column : Nat} {text glyphs ascii : Text} {spellings : List (Nat × Text)}
      (htext : Within text) (hrest : Spelled (column + (text.length + 2)) glyphs ascii spellings) :
      Spelled column ('"' :: (text ++ '"' :: glyphs)) ('"' :: (text ++ '"' :: ascii)) spellings
  | broken {column : Nat} {text stop : Text} (htext : Within text) (hstop : stop = [] ∨ stop = ['\\']) :
      Spelled column ('"' :: (text ++ stop)) ('"' :: (text ++ stop)) []

section Spelled

variable {column : Nat} {text glyphs ascii : Text} {spellings : List (Nat × Text)}

theorem Spelled.eq_nil_iff (h : Spelled column glyphs ascii spellings) : glyphs = [] ↔ ascii = [] := by
  cases h with
  | nil => exact Iff.rfl
  | space | keep | string | broken => simp
  | @glyph _ symbol _ ascii _ hsymbol hrest =>
      have hpos := Symbol.length_pos_of_mem_spellings symbol hsymbol symbol.canonical (.head _)
      have hne := List.ne_nil_of_length_pos hpos
      simp [hne]

theorem Spelled.newline (h : Spelled column glyphs ascii spellings) : '\n' ∈ glyphs ↔ '\n' ∈ ascii := by
  induction h with
  | nil => exact Iff.rfl
  | space _ _ ih | keep _ _ _ _ _ ih | string _ _ ih => simp [ih]
  | broken => exact Iff.rfl
  | @glyph _ symbol _ _ _ hsymbol _ ih =>
      have hall : ∀ symbol ∈ Symbol.table, '\n' ≠ symbol.glyph ∧ '\n' ∉ symbol.canonical := by decide
      simp [hall symbol hsymbol, ih]

-- The entries stand from the beginning of the text on.
theorem Spelled.le_column (h : Spelled column glyphs ascii spellings) :
    ∀ entry ∈ spellings, column ≤ entry.1 := by
  induction h with
  | nil | broken => nofun
  | space _ _ ih | keep _ _ _ _ _ ih | string _ _ ih =>
      exact fun entry hentry => Nat.le_trans (Nat.le_add_right _ _) (ih entry hentry)
  | glyph _ _ ih =>
      rintro entry (_ | ⟨_, hentry⟩)
      · exact Nat.le_refl _
      · exact Nat.le_trans (Nat.le_add_right _ _) (ih entry hentry)

-- Text that is kept character by character.
theorem Spelled.keep_append (hchars : ∀ c ∈ text, Symbol.canonical? [c] = none)
    (hunmarked : text.Unmarked) (hgap : text.all (!isGap ·) = true)
    (hlast : text.getLast?.any opensMark = true → glyphs.head? ≠ some '*')
    (h : Spelled (column + text.length) glyphs ascii spellings) :
    Spelled column (text ++ glyphs) (text ++ ascii) spellings := by
  induction text generalizing column with
  | nil => exact h
  | cons c rest ih =>
      obtain ⟨hquote, hmark, hunmarked⟩ := hunmarked
      rw [List.all_cons, Bool.and_eq_true, Bool.not_eq_true'] at hgap
      have hrest : Spelled (column + 1) (rest ++ glyphs) (rest ++ ascii) spellings := by
        refine ih (fun d hd => hchars d (by simp [hd])) hunmarked hgap.2 ?_ ?_
        · intro hopens
          refine hlast ?_
          rw [List.getLast?_cons]
          cases hend : rest.getLast? with
          | none => simp [hend] at hopens
          | some last => simpa [hend] using hopens
        · rwa [List.length_cons, Nat.add_comm rest.length, ← Nat.add_assoc] at h
      refine .keep hquote hgap.1 (hchars c (by simp)) (fun hopens => ?_) hrest
      cases rest with
      | nil => exact hlast hopens
      | cons next rest => exact hmark hopens

end Spelled

end Text

namespace Row

open Text (Spelled)

variable {direction : Direction} {column width : Nat} {text : Text} {row : Row}

theorem lineFrom_plain {kind : Kind} (hkind : kind.isPlain = true) :
    lineFrom direction column (Token.ofText kind text column :: row) =
      (Token.ofText kind text column).emission direction ++
        lineFrom direction (column + text.length) row := by
  rw [lineFrom_ofText, Kind.markWidth_of_isPlain hkind]
  rfl

theorem Cuts.eq_nil (h : Cuts column [] row) : row = [] := by
  generalize htext : ([] : Text) = text at h
  cases h with
  | nil => rfl
  | plain hplain => exact absurd (List.append_eq_nil_iff.mp htext.symm).1 hplain.ne_nil
  | gap | string | broken | comment => cases htext

-- What may be left behind a string that breaks off.
theorem Cuts.row_of_stop (h : Cuts column text row) (hstop : text = [] ∨ text = ['\\']) :
    (text = [] ∧ row = []) ∨
      (text = ['\\'] ∧ ∃ kind, kind.isPlain = true ∧ row = [Token.ofText kind ['\\'] column]) := by
  rcases hstop with rfl | rfl
  · exact .inl ⟨rfl, h.eq_nil⟩
  · refine .inr ⟨rfl, ?_⟩
    generalize htext : ['\\'] = text at h
    cases h with
    | gap hgap =>
        rw [← (List.cons.inj htext).1] at hgap
        exact absurd hgap (by decide)
    | @plain _ kind text rest row hplain hgap hascii hstar hrest =>
        rcases List.append_eq_singleton_iff.mp htext.symm with ⟨rfl, -⟩ | ⟨rfl, rfl⟩
        · exact absurd rfl hplain.ne_nil
        · rw [hrest.eq_nil]
          exact ⟨kind, hplain.isPlain, rfl⟩
    | nil | string | broken | comment => cases htext

theorem Cuts.lineFrom_of_stop (h : Cuts column text row) (hstop : text = [] ∨ text = ['\\']) :
    row.lineFrom direction column = text := by
  rcases h.row_of_stop hstop with ⟨rfl, rfl⟩ | ⟨rfl, kind, hkind, rfl⟩
  · rfl
  · rw [lineFrom_plain hkind, Token.emission_other hkind (fun _ => by decide) fun _ => by decide]
    rfl

theorem Cuts.lineFrom_ne_nil (h : Cuts column text row)
    (hcode : ∀ token ∈ row, token.isComment = false) (hne : row ≠ []) :
    row.lineFrom direction column ≠ [] := by
  cases h with
  | nil => exact absurd rfl hne
  | gap hgap hrest =>
      rw [lineFrom_succ hne hrest.le_column]
      exact List.cons_ne_nil _ _
  | @plain _ kind text rest row hplain =>
      have hlength := List.length_pos_iff.mpr hplain.ne_nil
      have hpos := Token.emission_pos direction
        (show 0 < (Token.ofText kind text column).width from Nat.lt_add_right _ hlength)
        (Token.ofText_width kind text column)
      rw [lineFrom_plain hplain.isPlain]
      exact List.append_ne_nil_of_left_ne_nil (List.ne_nil_of_length_pos hpos) _
  | string =>
      rw [lineFrom_ofText, Token.emission_string]
      exact List.cons_ne_nil _ _
  | broken =>
      rw [lineFrom_ofText, Token.emission_broken]
      exact List.cons_ne_nil _ _
  | comment hmark hcomment => exact absurd hcomment (by simp [hcode])

-- The line does not begin with a star unless the text does.
theorem Cuts.head?_eq_star (h : Cuts column text row) (hcode : ∀ token ∈ row, token.isComment = false)
    (hstar : (row.lineFrom .toUnicode column).head? = some '*') : text.head? = some '*' := by
  cases h with
  | nil => cases hstar
  | gap hgap hrest =>
      by_cases hne : row = []
      · rw [hne] at hstar
        cases hstar
      · rw [lineFrom_succ hne hrest.le_column] at hstar
        cases hstar
  | @plain _ kind text rest row hplain hgap hascii _ hrest =>
      rw [lineFrom_plain hplain.isPlain] at hstar
      cases Token.role kind text with
      | @ascii symbol hkind hsymbol htext =>
          rw [hkind, Token.emission_toUnicode_spelling hsymbol column htext] at hstar
          have hglyph := Symbol.not_ascii_glyph symbol hsymbol
          rw [Option.some.inj hstar] at hglyph
          cases hglyph
      | @glyph symbol hkind hsymbol htext =>
          rw [hkind, htext, Token.emission_toUnicode_glyph hsymbol column] at hstar
          have hglyph := Symbol.not_ascii_glyph symbol hsymbol
          rw [Option.some.inj hstar] at hglyph
          cases hglyph
      | other hglyph hcanonical =>
          rw [Token.emission_other hplain.isPlain hglyph hcanonical] at hstar
          cases text with
          | nil => exact absurd rfl hplain.ne_nil
          | cons c text => exact hstar
  | string =>
      rw [lineFrom_ofText, Token.emission_string] at hstar
      cases hstar
  | broken =>
      rw [lineFrom_ofText, Token.emission_broken] at hstar
      cases hstar
  | comment hmark hcomment => exact absurd hcomment (by simp [hcode])

-- Tokens whose spellings are canonical read the same in both directions but for their symbols.
theorem Cuts.exists_spelled (h : Cuts column text row)
    (hcode : ∀ token ∈ row, token.isComment = false)
    (hcanonical : ∀ token ∈ row, token.kind = .builtin → ∀ image,
      Symbol.glyph? token.text = some image → Symbol.canonical? image = some token.text)
    (start : Nat) :
    ∃ spellings, Spelled start (row.lineFrom .toUnicode column) (row.lineFrom .toAscii column)
      spellings := by
  induction h generalizing start with
  | nil => exact ⟨[], .nil⟩
  | @gap column c rest row hgap hrest ih =>
      obtain ⟨spellings, hspelled⟩ := ih hcode hcanonical (start + 1)
      by_cases hne : row = []
      · subst hne
        exact ⟨[], .nil⟩
      · have hle := hrest.le_column
        rw [lineFrom_succ hne hle, lineFrom_succ hne hle]
        exact ⟨spellings, .space (hrest.lineFrom_ne_nil hcode hne) hspelled⟩
  | @plain column kind text rest row hplain hgap hascii hstar hrest ih =>
      have hcode' : ∀ token ∈ row, token.isComment = false :=
        fun token htoken => hcode token (by simp [htoken])
      have hothers := ih hcode' fun token htoken => hcanonical token (by simp [htoken])
      rw [lineFrom_plain hplain.isPlain, lineFrom_plain hplain.isPlain]
      cases Token.role kind text with
      | @ascii symbol hkind hsymbol htext =>
          subst hkind
          have himage := hcanonical _ (.head _) rfl _
            ((Symbol.convert?_of_mem_table symbol hsymbol).2 text htext)
          obtain rfl : symbol.canonical = text := by
            rw [(Symbol.convert?_of_mem_table symbol hsymbol).1] at himage
            exact Option.some.inj himage
          obtain ⟨spellings, hspelled⟩ := hothers (start + symbol.canonical.length)
          rw [Token.emission_toUnicode_spelling hsymbol column htext,
            Token.emission_toAscii_spelling hsymbol column htext]
          exact ⟨_, .glyph hsymbol hspelled⟩
      | @glyph symbol hkind hsymbol htext =>
          subst hkind htext
          obtain ⟨spellings, hspelled⟩ := hothers (start + symbol.canonical.length)
          rw [Token.emission_toUnicode_glyph hsymbol column,
            Token.emission_toAscii_glyph hsymbol column]
          exact ⟨_, .glyph hsymbol hspelled⟩
      | other hglyph hnone =>
          obtain ⟨spellings, hspelled⟩ := hothers (start + text.length)
          rw [Token.emission_other hplain.isPlain hglyph hnone,
            Token.emission_other hplain.isPlain hglyph hnone]
          refine ⟨spellings, .keep_append ?_ hplain.unmarked hgap ?_ hspelled⟩
          · intro c hc
            rcases hascii with hascii | ⟨hkind, hlength⟩
            · have hsingle : isAsciiChar c = true := List.all_eq_true.mp hascii c hc
              exact Symbol.canonical?_eq_none_of_ascii (by simp [hsingle])
            · obtain ⟨d, rfl⟩ := List.length_eq_one_iff.mp hlength
              rw [List.mem_singleton.mp hc]
              exact hnone hkind
          · intro hlast hhead
            obtain ⟨hkind, htext⟩ := hstar hlast (hrest.head?_eq_star hcode' hhead)
            have hslash := hglyph hkind
            rw [htext] at hslash
            exact absurd hslash (by decide)
  | @string column text rest row htext hrest ih =>
      obtain ⟨spellings, hspelled⟩ := ih (fun token htoken => hcode token (by simp [htoken]))
        (fun token htoken => hcanonical token (by simp [htoken])) (start + (text.length + 2))
      rw [lineFrom_ofText, lineFrom_ofText, Token.emission_string, Token.emission_string]
      simp only [List.cons_append, List.append_assoc, List.nil_append]
      exact ⟨spellings, .string htext hspelled⟩
  | @broken column text rest row htext hstop hrest ih =>
      rw [lineFrom_ofText, lineFrom_ofText, Token.emission_broken, Token.emission_broken]
      have hwidth : ('"' :: text).length + Token.markWidth .builtin = text.length + 1 := rfl
      rw [hwidth, hrest.lineFrom_of_stop hstop, hrest.lineFrom_of_stop hstop]
      exact ⟨[], .broken htext hstop⟩
  | comment hmark hcomment => exact absurd hcomment (by simp [hcode])

-- The canonical spellings that the glyphs of the row were written in, each with its column.
def spelled (row : Row) : List (Nat × Text) :=
  row.filterMap fun token =>
    if token.kind = .builtin then
      (Symbol.canonical? token.text).bind fun spelling => token.outputColumn.map (·, spelling)
    else none

theorem spelled_cons {token : Token}
    (h : token.kind = .builtin → Symbol.canonical? token.text = none) :
    spelled (token :: row) = spelled row := by
  rw [spelled, spelled, List.filterMap_cons]
  by_cases hkind : token.kind = .builtin
  · simp [hkind, h hkind]
  · simp [hkind]

theorem spelled_cons_glyph {symbol : Symbol} (hsymbol : symbol ∈ Symbol.table) :
    spelled ((Token.ofText .builtin [symbol.glyph] column).writtenAt width :: row) =
      (width, symbol.canonical) :: spelled row := by
  simp [spelled, Token.writtenAt, Token.ofText, (Symbol.convert?_of_mem_table symbol hsymbol).1]

theorem Cuts.spelled_of_stop (h : Cuts column text row) (hstop : text = [] ∨ text = ['\\'])
    (start : Nat) : (row.laidFrom direction column start).spelled = [] := by
  rcases h.row_of_stop hstop with ⟨rfl, rfl⟩ | ⟨rfl, kind, -, rfl⟩
  · rfl
  · have hcanonical : Symbol.canonical? ['\\'] = none := by decide
    rw [laidFrom_ofText, spelled_cons fun _ => hcanonical]
    rfl

end Row

namespace Text

variable {column start : Nat} {text glyphs ascii : Text} {spellings : List (Nat × Text)} {row : Row}

-- ASCII text is kept.
theorem Spelled.exists_of_ascii (hascii : text.all isAsciiChar = true) (hunmarked : text.Unmarked)
    (hgap : text.all (!isGap ·) = true) (h : Spelled start (text ++ glyphs) ascii spellings) :
    ∃ rest, ascii = text ++ rest ∧ Spelled (start + text.length) glyphs rest spellings := by
  induction text generalizing start ascii with
  | nil => exact ⟨ascii, rfl, h⟩
  | cons c text ih =>
      rw [List.all_cons, Bool.and_eq_true] at hascii hgap
      rw [List.cons_append] at h
      generalize htail : text ++ glyphs = tail at h
      cases h with
      | space => exact absurd hgap.1 (by decide)
      | keep _ _ _ _ hrest =>
          rw [← htail] at hrest
          obtain ⟨rest, rfl, hspelled⟩ := ih hascii.2 hunmarked.2.2 hgap.2 hrest
          refine ⟨rest, rfl, ?_⟩
          rwa [List.length_cons, Nat.add_comm text.length, ← Nat.add_assoc]
      | glyph hsymbol =>
          rw [Symbol.not_ascii_glyph _ hsymbol] at hascii
          cases hascii.1
      | string | broken => exact absurd rfl hunmarked.1

-- A string is on the line with the glyphs what it is on the other.
theorem Spelled.exists_of_quote {tail : Text} (h : Spelled start ('"' :: tail) ascii spellings) :
    (∃ text glyphs rest, Within text ∧ tail = text ++ '"' :: glyphs ∧
        ascii = '"' :: (text ++ '"' :: rest) ∧
        Spelled (start + (text.length + 2)) glyphs rest spellings) ∨
      ∃ text stop, Within text ∧ (stop = [] ∨ stop = ['\\']) ∧ tail = text ++ stop ∧
        ascii = '"' :: (text ++ stop) ∧ spellings = [] := by
  generalize hglyphs : '"' :: tail = glyphs at h
  cases h with
  | nil | space => cases hglyphs
  | keep hquote => exact absurd (List.cons.inj hglyphs).1.symm hquote
  | glyph hsymbol =>
      have hglyph := Symbol.not_ascii_glyph _ hsymbol
      rw [← (List.cons.inj hglyphs).1] at hglyph
      exact absurd hglyph (by decide)
  | string htext hrest => exact .inl ⟨_, _, _, htext, (List.cons.inj hglyphs).2, rfl, hrest⟩
  | broken htext hstop => exact .inr ⟨_, _, htext, hstop, (List.cons.inj hglyphs).2, rfl, rfl⟩

-- On the way to ASCII every glyph is spelled, whatever it stands next to, and nothing else changes.
theorem Spelled.lineFrom_eq (hcuts : Row.Cuts column glyphs row)
    (h : Spelled start glyphs ascii spellings) :
    row.lineFrom .toAscii column = ascii ∧
      (row.laidFrom .toAscii column start).spelled = spellings := by
  induction hcuts generalizing start ascii spellings with
  | nil =>
      cases h
      exact ⟨rfl, rfl⟩
  | @gap column c rest row hgap hrest ih =>
      cases h with
      | space hne hspelled =>
          obtain ⟨hline, hspellings⟩ := ih hspelled
          have hrow : row ≠ [] := by
            rintro rfl
            rw [← hline] at hspelled
            exact hne (hspelled.eq_nil_iff.mpr rfl)
          rw [Row.lineFrom_succ hrow hrest.le_column, Row.laidFrom_succ hrest.le_column, hline]
          exact ⟨rfl, hspellings⟩
      | keep _ hnot =>
          rw [hgap] at hnot
          cases hnot
      | glyph hsymbol =>
          rw [Symbol.not_gap_glyph _ hsymbol] at hgap
          cases hgap
      | string | broken => exact absurd hgap (by decide)
  | @plain column kind text rest row hplain hgap hascii hstar hrest ih =>
      rw [Row.lineFrom_plain hplain.isPlain, Row.laidFrom_ofText,
        Kind.markWidth_of_isPlain hplain.isPlain, Nat.add_zero]
      rcases hascii with hascii | ⟨rfl, hlength⟩
      · obtain ⟨behind, rfl, hspelled⟩ := h.exists_of_ascii hascii hplain.unmarked hgap
        obtain ⟨hline, hspellings⟩ := ih hspelled
        rw [Token.emission_toAscii_of_ascii hplain.isPlain hascii, hline, Row.spelled_cons]
        · exact ⟨rfl, hspellings⟩
        · exact fun _ => Symbol.canonical?_eq_none_of_ascii hascii
      · obtain ⟨d, rfl⟩ := List.length_eq_one_iff.mp hlength
        rw [List.singleton_append] at h
        cases h with
        | space => exact absurd hgap (by decide)
        | keep hquote hnot hcanonical hmark hspelled =>
            have hemission : (Token.ofText .builtin [d] column).emission .toAscii = [d] := by
              simp [Token.emission, Token.ofText, Symbol.convert?, hcanonical]
            obtain ⟨hline, hspellings⟩ := ih hspelled
            rw [hemission, hline, Row.spelled_cons fun _ => hcanonical]
            exact ⟨rfl, hspellings⟩
        | @glyph _ symbol _ _ _ hsymbol hspelled =>
            obtain ⟨hline, hspellings⟩ := ih hspelled
            rw [Token.emission_toAscii_glyph hsymbol column, hline, Row.spelled_cons_glyph hsymbol]
            exact ⟨rfl, congrArg _ hspellings⟩
        | string | broken => exact absurd rfl hplain.unmarked.1
  | @string column text rest row htext hrest ih =>
      rw [Row.lineFrom_ofText, Row.laidFrom_ofText, Token.emission_string,
        Row.spelled_cons (by simp [Token.writtenAt, Token.ofText])]
      rcases h.exists_of_quote with ⟨other, behind, after, hother, hsame, rfl, hspelled⟩ |
        ⟨other, stop, hother, hstop, hsame, -⟩
      · obtain ⟨rfl, rfl⟩ := htext.quote_inj hother hsame
        obtain ⟨hline, hspellings⟩ := ih hspelled
        have hwidth : ('"' :: (text ++ ['"'])).length = text.length + 2 := by simp
        rw [hwidth]
        refine ⟨?_, hspellings⟩
        have hcolumn : text.length + Token.markWidth .string = text.length + 2 := rfl
        rw [hcolumn, hline]
        simp
      · exact absurd hsame (htext.quote_ne hother hstop)
  | @broken column text rest row htext hstop hrest ih =>
      have hcolumn : ('"' :: text).length + Token.markWidth .builtin = text.length + 1 := rfl
      rw [Row.lineFrom_ofText, Row.laidFrom_ofText, Token.emission_broken, hcolumn,
        hrest.lineFrom_of_stop hstop]
      rcases h.exists_of_quote with ⟨other, behind, after, hother, hsame, -⟩ |
        ⟨other, stop, -, -, hsame, rfl, rfl⟩
      · exact absurd hsame.symm (hother.quote_ne htext hstop)
      · refine ⟨congrArg _ hsame, ?_⟩
        rw [Row.spelled_cons fun _ => Symbol.canonical?_quote text]
        exact hrest.spelled_of_stop hstop _
  | @comment column mark rest token row hmark =>
      generalize htail : '*' :: rest = tail at h
      cases h with
      | space => exact absurd hmark (by decide)
      | keep _ _ _ hstar => exact absurd (htail ▸ rfl) (hstar hmark)
      | glyph hsymbol =>
          have hascii := Lexeme.isAsciiChar_of_opensMark hmark
          rw [Symbol.not_ascii_glyph _ hsymbol] at hascii
          cases hascii
      | string | broken => exact absurd hmark (by decide)

end Text

end TlaGlyph
