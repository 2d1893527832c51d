import TlaGlyph.Symbol
import TlaGlyph.Token

namespace TlaGlyph

-- But for a failing sink, each says that the tokens do not fit together, and names the one where
-- that showed.
inductive ConversionError where
  -- a token begins before the one in front of it ends
  | negativeSpacing (position : Position) (context : String)
  -- the comments in front of a token reach past the column of its anchor
  | asciiRealign (position : Position) (context : String)
  -- a token moved right in a conversion to Unicode, or left in one to ASCII
  | columnDrift (position : Position) (context : String) (column outputColumn : Nat)
      (direction : Direction)
  -- an anchor names no token of the rows above
  | invalidAnchor (position : Position) (context : String) (anchor : Position)
  -- the pieces of a comment are out of order
  | malformedComment (position : Position) (reason : String)
  -- a sink failed
  | io (cause : String)
deriving DecidableEq

namespace ConversionError

def position? : ConversionError → Option Position
  | .negativeSpacing position _ | .asciiRealign position _ | .columnDrift position _ _ _ _
  | .invalidAnchor position _ _ | .malformedComment position _ => some position
  | .io _ => none

def message : ConversionError → String
  | .negativeSpacing position context =>
    s!"negative spacing before {context} ({position.display})"
  | .asciiRealign position context =>
    s!"alignment of {context} ({position.display}) can't be kept when converting to ASCII"
  | .columnDrift position context column outputColumn direction =>
    s!"{context} ({position.display}) moved from column {column} to column {outputColumn} " ++
      s!"in a {direction.name} conversion"
  | .invalidAnchor position context anchor =>
    s!"alignment anchor of {context} ({position.display}) points to {anchor.display}, " ++
      "which is not an earlier token"
  | .malformedComment position reason =>
    s!"malformed multi-line comment ({position.display}): {reason}"
  | .io cause => cause

end ConversionError

end TlaGlyph
