import TlaGlyph.Text.Basic

namespace TlaGlyph

-- The names on the way down from the root.
abbrev Location := List Text

namespace Path

-- What stands between the slashes.
def pieces : Text → List Text
  | [] => [[]]
  | c :: rest => if c = '/' then [] :: pieces rest else (pieces rest).modifyHead (c :: ·)

def isAbsolute (path : Text) : Bool := path.head? = some '/'

-- No name and a single dot stay, two dots go up and stop at the root.
def step (location : Location) (piece : Text) : Location :=
  if piece = [] ∨ piece = ['.'] then location
  else if piece = ['.', '.'] then location.dropLast
  else location ++ [piece]

-- Where a path leads from the directory `base` if no link is followed.
def resolve (base : Location) (path : Text) : Location :=
  (pieces path).foldl step (if isAbsolute path then [] else base)

-- The absolute spelling of a location.
def ofLocation (location : Location) : Text :=
  if location.isEmpty then ['/'] else location.flatMap ('/' :: ·)

end Path

end TlaGlyph
