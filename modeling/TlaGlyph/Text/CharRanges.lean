namespace TlaGlyph

-- Each pair is the first and the last code point of a range.
abbrev CharRanges := List (Nat × Nat)

def CharRanges.has (ranges : CharRanges) (c : Char) : Bool :=
  ranges.any fun (first, last) => first ≤ c.toNat && c.toNat ≤ last

end TlaGlyph
