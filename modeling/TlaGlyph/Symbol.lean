import TlaGlyph.Text.Basic

namespace TlaGlyph

inductive Direction where
  | toUnicode
  | toAscii
deriving DecidableEq

-- Short for "ASCII to Unicode" and "Unicode to ASCII".
def Direction.name : Direction → String
  | .toUnicode => "a2u"
  | .toAscii => "u2a"

-- A glyph is always written back as the canonical one of its spellings.
structure Symbol where
  glyph : Char
  canonical : Text
  alternatives : List Text
deriving DecidableEq

namespace Symbol

def spellings (symbol : Symbol) : List Text := symbol.canonical :: symbol.alternatives

def spelled (glyph : Char) (canonical : String) (alternatives : List String) : Symbol :=
  ⟨glyph, canonical.toList, alternatives.map String.toList⟩

def table : List Symbol := [
  spelled '≜' "==" [],
  spelled '←' "<-" [],
  spelled '→' "->" [],
  spelled '↦' "|->" [],
  spelled '⟨' "<<" [],
  spelled '⟩' ">>" [],
  spelled '′' "'" [],
  spelled '⊢' "|-" [],
  spelled '⊨' "|=" [],
  spelled '⊣' "-|" [],
  spelled '⫤' "=|" [],
  spelled '¬' "~" ["\\lnot", "\\neg"],
  spelled '∧' "/\\" ["\\land"],
  spelled '∨' "\\/" ["\\lor"],
  spelled '⇒' "=>" [],
  spelled '⇔' "<=>" ["\\equiv"],
  spelled '≠' "/=" ["#"],
  spelled '∈' "\\in" [],
  spelled '∉' "\\notin" [],
  spelled '⊂' "\\subset" [],
  spelled '⊆' "\\subseteq" [],
  spelled '⊃' "\\supset" [],
  spelled '⊇' "\\supseteq" [],
  spelled '∩' "\\cap" ["\\intersect"],
  spelled '∪' "\\cup" ["\\union"],
  spelled '⊓' "\\sqcap" [],
  spelled '⊔' "\\sqcup" [],
  spelled '⊏' "\\sqsubset" [],
  spelled '⊑' "\\sqsubseteq" [],
  spelled '⊐' "\\sqsupset" [],
  spelled '⊒' "\\sqsupseteq" [],
  spelled '≤' "<=" ["=<", "\\leq"],
  spelled '≥' ">=" ["\\geq"],
  spelled '≪' "\\ll" [],
  spelled '≫' "\\gg" [],
  spelled '≺' "\\prec" [],
  spelled '≻' "\\succ" [],
  spelled '⪯' "\\preceq" [],
  spelled '⪰' "\\succeq" [],
  spelled '∀' "\\A" ["\\forall"],
  spelled '∃' "\\E" ["\\exists"],
  spelled '□' "[]" [],
  spelled '◇' "<>" [],
  spelled '↝' "~>" [],
  spelled '⇸' "-+->" [],
  spelled '⊕' "(+)" ["\\oplus"],
  spelled '⊖' "(-)" ["\\ominus"],
  spelled '⊙' "(.)" ["\\odot"],
  spelled '⊗' "(\\X)" ["\\otimes"],
  spelled '⊘' "(/)" ["\\oslash"],
  spelled '×' "\\X" ["\\times"],
  spelled '÷' "\\div" [],
  spelled '⋅' "\\cdot" [],
  spelled '∘' "\\o" ["\\circ"],
  spelled '●' "\\bullet" [],
  spelled '⋆' "\\star" [],
  spelled '◯' "\\bigcirc" [],
  spelled '∼' "\\sim" [],
  spelled '≃' "\\simeq" [],
  spelled '≍' "\\asymp" [],
  spelled '≈' "\\approx" [],
  spelled '≅' "\\cong" [],
  spelled '≐' "\\doteq" [],
  spelled 'ℕ' "Nat" [],
  spelled 'ℤ' "Int" [],
  spelled 'ℝ' "Real" [],
  spelled '‥' ".." [],
  spelled '…' "..." [],
  spelled '∷' "::" [],
  spelled '≔' ":=" [],
  spelled '⩴' "::=" []
]

def allSpellings : List Text := table.flatMap spellings

def glyph? (text : Text) : Option Text :=
  (table.find? (text ∈ ·.spellings)).map ([·.glyph])

def canonical? (text : Text) : Option Text :=
  (table.find? ([·.glyph] = text)).map (·.canonical)

-- What a symbol of the encoding converted from reads in the other one. Any other text is
-- no symbol of that encoding.
def convert? : Direction → Text → Option Text
  | .toUnicode => glyph?
  | .toAscii => canonical?

def isAscii (text : Text) : Bool := (glyph? text).isSome

def longestSpelling? (text : Text) : Option Nat := Text.longestPrefix? allSpellings text

-- No two symbols share a glyph or a spelling.
theorem convert?_of_mem_table : ∀ symbol ∈ table,
    canonical? [symbol.glyph] = some symbol.canonical ∧
      ∀ text ∈ symbol.spellings, glyph? text = some [symbol.glyph] := by
  decide +kernel

end Symbol

end TlaGlyph
