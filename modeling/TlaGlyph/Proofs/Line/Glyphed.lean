import TlaGlyph.Proofs.Line.Spelled

namespace TlaGlyph

open Lexeme (isGap isAsciiChar Within)
open Text (opensMark)

namespace Text

-- A text, which begins at `column`, and what it reads with its symbols converted, which are listed with
-- their columns. What a comment comes to is left open, and so is what is behind it.
inductive Glyphed : Nat → Text → Text → List (Nat × Text) → Prop
  | nil {column : Nat} {gap : Text} (hgap : gap.all isGap = true) : Glyphed column gap [] []
  | space {column : Nat} {c : Char} {ascii glyphs : Text} {symbols : List (Nat × Text)}
      (hgap : isGap c = true) (hrest : Glyphed (column + 1) ascii glyphs symbols) :
      Glyphed column (c :: ascii) (' ' :: glyphs) symbols
  | keep {column : Nat} {c : Char} {ascii glyphs : Text} {symbols : List (Nat × Text)}
      (hquote : c ≠ '"') (hgap : isGap c = false)
      (hrest : Glyphed (column + 1) ascii glyphs symbols) :
      Glyphed column (c :: ascii) (c :: glyphs) symbols
  | glyph {column : Nat} {symbol : Symbol} {text ascii glyphs : Text} {symbols : List (Nat × Text)}
      (hsymbol : symbol ∈ Symbol.table) (htext : text ∈ symbol.spellings)
      (hrest : Glyphed (column + text.length) ascii glyphs symbols) :
      Glyphed column (text ++ ascii) (symbol.glyph :: glyphs) ((column, text) :: symbols)
  | string {column : Nat} {text ascii glyphs : Text} {symbols : List (Nat × Text)}
      (htext : Within text) (hrest : Glyphed (column + (text.length + 2)) ascii glyphs symbols) :
      Glyphed column ('"' :: (text ++ '"' :: ascii)) ('"' :: (text ++ '"' :: glyphs)) symbols
  | broken {column : Nat} {text stop : Text} (htext : Within text) (hstop : stop = [] ∨ stop = ['\\']) :
      Glyphed column ('"' :: (text ++ stop)) ('"' :: (text ++ stop)) []
  | comment {column : Nat} {mark : Char} {ascii glyphs : Text} {symbols : List (Nat × Text)}
      (hmark : opensMark mark = true) (hsymbols : ∀ entry ∈ symbols, column ≤ entry.1) :
      Glyphed column (mark :: '*' :: ascii) glyphs symbols

section Glyphed

variable {column : Nat} {text ascii glyphs : Text} {symbols : List (Nat × Text)}

theorem Glyphed.le_column (h : Glyphed column ascii glyphs symbols) :
    ∀ entry ∈ symbols, column ≤ entry.1 := by
  induction h with
  | nil | broken => nofun
  | space _ _ ih | keep _ _ _ ih | string _ _ ih =>
      exact fun entry hentry => Nat.le_trans (Nat.le_add_right _ _) (ih entry hentry)
  | glyph _ _ _ ih =>
      rintro entry (_ | ⟨_, hentry⟩)
      · exact Nat.le_refl _
      · exact Nat.le_trans (Nat.le_add_right _ _) (ih entry hentry)
  | comment _ hsymbols => exact hsymbols

theorem Glyphed.keep_append (hquote : '"' ∉ text) (hgap : text.all (!isGap ·) = true)
    (h : Glyphed (column + text.length) ascii glyphs symbols) :
    Glyphed column (text ++ ascii) (text ++ glyphs) symbols := by
  induction text generalizing column with
  | nil => exact h
  | cons c rest ih =>
      rw [List.all_cons, Bool.and_eq_true, Bool.not_eq_true'] at hgap
      rw [List.mem_cons, not_or] at hquote
      rw [List.length_cons, Nat.add_comm rest.length, ← Nat.add_assoc] at h
      exact .keep (Ne.symm hquote.1) hgap.1 (ih hquote.2 hgap.2 h)

-- A string reads the same.
theorem Glyphed.exists_of_quote {tail : Text} (h : Glyphed column ('"' :: tail) glyphs symbols) :
    (∃ text ascii rest, Within text ∧ tail = text ++ '"' :: ascii ∧
        glyphs = '"' :: (text ++ '"' :: rest) ∧
        Glyphed (column + (text.length + 2)) ascii rest symbols) ∨
      ∃ text stop, Within text ∧ (stop = [] ∨ stop = ['\\']) ∧ tail = text ++ stop ∧
        glyphs = '"' :: (text ++ stop) ∧ symbols = [] := by
  generalize hascii : '"' :: tail = ascii at h
  cases h with
  | nil hgap =>
      rw [← hascii, List.all_cons, Bool.and_eq_true] at hgap
      exact absurd hgap.1 (by decide)
  | space hgap =>
      rw [← (List.cons.inj hascii).1] at hgap
      exact absurd hgap (by decide)
  | keep hquote => exact absurd (List.cons.inj hascii).1.symm hquote
  | glyph hsymbol htext =>
      obtain ⟨c, rest, rfl, -, -, hquote⟩ := Symbol.exists_cons hsymbol htext
      exact absurd (List.cons.inj hascii).1.symm hquote
  | string htext hrest => exact .inl ⟨_, _, _, htext, (List.cons.inj hascii).2, rfl, hrest⟩
  | broken htext hstop => exact .inr ⟨_, _, htext, hstop, (List.cons.inj hascii).2, rfl, rfl⟩
  | comment hmark =>
      rw [← (List.cons.inj hascii).1] at hmark
      exact absurd hmark (by decide)

-- What else begins with no gap is kept, is a symbol or is a comment.
theorem Glyphed.cases_of_not_gap {c : Char} {tail : Text} (hquote : c ≠ '"') (hgap : isGap c = false)
    (h : Glyphed column (c :: tail) glyphs symbols) :
    (∃ rest, glyphs = c :: rest ∧ Glyphed (column + 1) tail rest symbols) ∨
      (∃ symbol ∈ Symbol.table, ∃ text ∈ symbol.spellings, ∃ ascii rest entries,
        c :: tail = text ++ ascii ∧ glyphs = symbol.glyph :: rest ∧
          symbols = (column, text) :: entries ∧
          Glyphed (column + text.length) ascii rest entries) ∨
      (opensMark c = true ∧ tail.head? = some '*') := by
  generalize hascii : c :: tail = ascii at h
  cases h with
  | nil hgaps =>
      rw [← hascii, List.all_cons, hgap] at hgaps
      cases hgaps
  | space hspace =>
      rw [← (List.cons.inj hascii).1, hgap] at hspace
      cases hspace
  | keep _ _ hrest =>
      obtain ⟨rfl, rfl⟩ := List.cons.inj hascii
      exact .inl ⟨_, rfl, hrest⟩
  | glyph hsymbol htext hrest =>
      exact .inr (.inl ⟨_, hsymbol, _, htext, _, _, _, rfl, rfl, rfl, hrest⟩)
  | string | broken => exact absurd (List.cons.inj hascii).1 hquote
  | comment hmark =>
      obtain ⟨rfl, rfl⟩ := List.cons.inj hascii
      exact .inr (.inr ⟨hmark, rfl⟩)

end Glyphed

end Text

namespace Row

open Text (Glyphed)

variable {column : Nat} {text : Text} {row : Row}

-- The spellings on the row that are converted to glyphs, each with its column.
def symbols (row : Row) : List (Nat × Text) :=
  row.filterMap fun token =>
    if token.kind = .builtin ∧ (Symbol.glyph? token.text).isSome = true then
      some (token.column, token.text)
    else none

theorem symbols_cons {token : Token} (h : token.kind = .builtin → Symbol.glyph? token.text = none) :
    symbols (token :: row) = symbols row := by
  rw [symbols, symbols, List.filterMap_cons]
  by_cases hkind : token.kind = .builtin
  · simp [h hkind]
  · simp [hkind]

theorem symbols_cons_spelling {symbol : Symbol} (hsymbol : symbol ∈ Symbol.table)
    (htext : text ∈ symbol.spellings) :
    symbols (Token.ofText .builtin text column :: row) = (column, text) :: symbols row := by
  simp [symbols, Token.ofText, (Symbol.convert?_of_mem_table symbol hsymbol).2 text htext]

theorem le_column_symbols (h : ∀ token ∈ row, column ≤ token.column) :
    ∀ entry ∈ symbols row, column ≤ entry.1 := by
  intro entry hentry
  obtain ⟨token, htoken, hsome⟩ := List.mem_filterMap.mp hentry
  split at hsome
  · rw [← Option.some.inj hsome]
    exact h token htoken
  · cases hsome

theorem Cuts.all_gap (h : Cuts column text []) : text.all isGap = true := by
  generalize hrow : ([] : Row) = row at h
  induction h with
  | nil => rfl
  | gap hgap hrest ih => rw [List.all_cons, hgap, ih hrow, Bool.true_and]
  | plain | string | broken | comment => cases hrow

theorem Cuts.symbols_of_stop (h : Cuts column text row) (hstop : text = [] ∨ text = ['\\']) :
    row.symbols = [] := by
  rcases h.row_of_stop hstop with ⟨rfl, rfl⟩ | ⟨rfl, kind, -, rfl⟩
  · rfl
  · have hglyph : Symbol.glyph? ['\\'] = none := by decide
    rw [symbols_cons fun _ => hglyph]
    rfl

theorem Cuts.glyphed (h : Cuts column text row) :
    Glyphed column text (row.lineFrom .toUnicode column) row.symbols := by
  induction h with
  | nil => exact .nil rfl
  | @gap column c rest row hgap hrest ih =>
      by_cases hne : row = []
      · subst hne
        refine .nil ?_
        rw [List.all_cons, hgap, hrest.all_gap, Bool.true_and]
      · rw [lineFrom_succ hne hrest.le_column]
        exact .space hgap ih
  | @plain column kind text rest row hplain hgap hascii hstar hrest ih =>
      rw [lineFrom_plain hplain.isPlain]
      have hquote : '"' ∉ text := hplain.unmarked.quote_notMem
      cases Token.role kind text with
      | @ascii symbol hkind hsymbol htext =>
          rw [hkind, Token.emission_toUnicode_spelling hsymbol column htext,
            symbols_cons_spelling hsymbol htext]
          exact .glyph hsymbol htext ih
      | @glyph symbol hkind hsymbol htext =>
          subst hkind htext
          rw [Token.emission_toUnicode_glyph hsymbol column,
            symbols_cons fun _ => Symbol.glyph?_glyph hsymbol]
          exact .keep_append hquote hgap ih
      | other hglyph hcanonical =>
          rw [Token.emission_other hplain.isPlain hglyph hcanonical, symbols_cons hglyph]
          exact .keep_append hquote hgap ih
  | @string column text rest row htext hrest ih =>
      rw [lineFrom_ofText, Token.emission_string, symbols_cons (by simp [Token.ofText])]
      simp only [List.cons_append, List.append_assoc, List.nil_append]
      exact .string htext ih
  | @broken column text rest row htext hstop hrest ih =>
      have hwidth : ('"' :: text).length + Token.markWidth .builtin = text.length + 1 := rfl
      rw [lineFrom_ofText, Token.emission_broken, hwidth, hrest.lineFrom_of_stop hstop,
        symbols_cons fun _ => Symbol.glyph?_quote text, hrest.symbols_of_stop hstop]
      exact .broken htext hstop
  | comment hmark hcomment hcolumn => exact .comment hmark (le_column_symbols hcolumn)

end Row

namespace Text

variable {column : Nat} {glyphs ascii line : Text} {spellings symbols : List (Nat × Text)}

-- No gap is at the end.
theorem Spelled.eq_nil_of_gap (h : Spelled column glyphs ascii spellings)
    (hgap : ascii.all isGap = true) : glyphs = [] := by
  induction h with
  | nil => rfl
  | space hne hrest ih =>
      rw [List.all_cons, Bool.and_eq_true] at hgap
      exact absurd (ih hgap.2) hne
  | keep _ hnot =>
      rw [List.all_cons, hnot] at hgap
      cases hgap
  | glyph hsymbol hrest =>
      obtain ⟨c, rest, hcons, -, hnot, -⟩ := Symbol.exists_cons hsymbol (.head _)
      rw [hcons, List.cons_append, List.all_cons, hnot] at hgap
      cases hgap
  | string | broken =>
      rw [List.all_cons, Bool.and_eq_true] at hgap
      exact absurd hgap.1 (by decide)

-- Only a star reads as one.
theorem Spelled.head?_eq_star {rest : Text} (h : Spelled column glyphs ('*' :: rest) spellings) :
    glyphs.head? = some '*' := by
  generalize hascii : '*' :: rest = ascii at h
  cases h with
  | nil | space | string | broken => cases hascii
  | keep => exact congrArg some (List.cons.inj hascii).1.symm
  | @glyph _ symbol _ _ _ hsymbol =>
      have hstar := Symbol.head?_ne_star symbol hsymbol
      obtain ⟨c, rest, hcons, -⟩ := Symbol.exists_cons hsymbol (.head _)
      rw [hcons] at hascii hstar
      exact absurd (congrArg some (List.cons.inj hascii).1.symm) hstar

-- The line in ASCII reads as the line with the glyphs if the spellings, and nothing else, are symbols.
theorem Spelled.eq_iff (h : Spelled column glyphs ascii spellings)
    (hglyphed : Glyphed column ascii line symbols) : line = glyphs ↔ symbols = spellings := by
  induction h generalizing line symbols with
  | nil =>
      generalize hascii : ([] : Text) = ascii at hglyphed
      cases hglyphed with
      | nil => exact iff_of_true hascii rfl
      | glyph hsymbol htext =>
          obtain ⟨c, rest, rfl, -⟩ := Symbol.exists_cons hsymbol htext
          cases hascii
      | space | keep | string | broken | comment => cases hascii
  | @space column glyphs ascii spellings hne hrest ih =>
      generalize hascii : ' ' :: ascii = whole at hglyphed
      cases hglyphed with
      | nil hgap =>
          rw [← hascii, List.all_cons, Bool.and_eq_true] at hgap
          exact absurd (hrest.eq_nil_of_gap hgap.2) hne
      | space _ hafter =>
          rw [← (List.cons.inj hascii).2] at hafter
          rw [List.cons_inj_right, ih hafter]
      | keep _ hnot =>
          rw [← (List.cons.inj hascii).1] at hnot
          exact absurd hnot (by decide)
      | glyph hsymbol htext =>
          obtain ⟨c, rest, rfl, -, hnot, -⟩ := Symbol.exists_cons hsymbol htext
          rw [← (List.cons.inj hascii).1] at hnot
          exact absurd hnot (by decide)
      | comment hmark =>
          rw [← (List.cons.inj hascii).1] at hmark
          exact absurd hmark (by decide)
      | string | broken => cases hascii
  | @keep column c glyphs ascii spellings hquote hgap hcanonical hmark hrest ih =>
      rcases hglyphed.cases_of_not_gap hquote hgap with ⟨rest, rfl, hafter⟩ |
        ⟨other, hother, text, -, behind, rest, entries, -, rfl, rfl, -⟩ | ⟨hopens, hstar⟩
      · rw [List.cons_inj_right, ih hafter]
      · -- no spelling was written here
        apply iff_of_false
        · intro hline
          rw [← (List.cons.inj hline).1, (Symbol.convert?_of_mem_table other hother).1] at hcanonical
          cases hcanonical
        · rintro rfl
          exact absurd (hrest.le_column _ (.head _)) (Nat.not_succ_le_self column)
      · obtain ⟨tail, rfl⟩ := List.head?_eq_some_iff.mp hstar
        exact absurd hrest.head?_eq_star (hmark hopens)
  | @glyph column symbol glyphs ascii spellings hsymbol hrest ih =>
      obtain ⟨c, tail, hcons, hascii, hgap, hquote⟩ := Symbol.exists_cons hsymbol (.head _)
      have hwhole : symbol.canonical ++ ascii = c :: (tail ++ ascii) := by
        rw [hcons, List.cons_append]
      rw [hwhole] at hglyphed
      rcases hglyphed.cases_of_not_gap hquote hgap with ⟨rest, rfl, hafter⟩ |
        ⟨other, hother, text, htext, behind, rest, entries, hsame, rfl, rfl, hafter⟩ |
        ⟨hopens, hstar⟩
      · -- the spelling that was written is not read as one
        apply iff_of_false
        · intro hline
          rw [(List.cons.inj hline).1, Symbol.not_ascii_glyph symbol hsymbol] at hascii
          cases hascii
        · rintro rfl
          exact absurd (hafter.le_column _ (.head _)) (Nat.not_succ_le_self column)
      · rw [← hwhole] at hsame
        have hsymbols := Symbol.glyph_eq_iff hsymbol hother htext hsame
        by_cases hcanonical : text = symbol.canonical
        · subst hcanonical
          rw [List.append_cancel_left hsame] at ih hrest
          rw [hsymbols.mpr rfl, List.cons_inj_right, List.cons_inj_right, ih hafter]
        · have hglyph := mt hsymbols.mp hcanonical
          simp [hcanonical, hglyph]
      · have hsecond := Symbol.second_ne_star symbol hsymbol
        rw [hcons] at hsecond
        have hnext := hsecond hopens
        cases tail with
        | nil => cases hnext
        | cons next tail =>
            rw [Option.some.inj hstar] at hnext
            cases hnext
  | @string column text glyphs ascii spellings htext hrest ih =>
      rcases hglyphed.exists_of_quote with ⟨other, behind, after, hother, hsame, rfl, hafter⟩ |
        ⟨other, stop, hother, hstop, hsame, -⟩
      · obtain ⟨rfl, rfl⟩ := htext.quote_inj hother hsame
        rw [List.cons_inj_right, List.append_cancel_left_eq, List.cons_inj_right, ih hafter]
      · exact absurd hsame (htext.quote_ne hother hstop)
  | @broken column text stop htext hstop =>
      rcases hglyphed.exists_of_quote with ⟨other, behind, after, hother, hsame, -⟩ |
        ⟨other, behind, -, -, hsame, rfl, rfl⟩
      · exact absurd hsame.symm (hother.quote_ne htext hstop)
      · simp [hsame]

end Text

end TlaGlyph
