import TlaGlyph.Grid.Module

namespace TlaGlyph

-- Prose, and the pieces of a comment that began on an earlier line, have no place of their own.
def Kind.canAlign : Kind → Bool
  | .prolog | .epilog | .comment .inside | .comment .closing => false
  | _ => true

namespace Row

def previous? (row : Row) (item : Nat) : Option Token := if item = 0 then none else row[item - 1]?

def isAlignable (row : Row) (item : Nat) : Bool :=
  row[item]?.any fun token =>
    token.kind.canAlign && (row.previous? item).all (·.finish < token.column)

-- The token of a row that one at `column` below it is lined up with. Both have to follow a gap or to
-- begin their row.
def anchorItem? (row : Row) (column : Nat) : Option Nat :=
  (row.findIdx? (·.column = column)).filter row.isAlignable

-- Lines the row up with a row above it. Without one its tokens have no anchors. Tokens
-- that cannot be lined up keep the anchors they have.
def align (above : Option (Nat × Row)) (row : Row) : Row :=
  row.mapIdx fun item token =>
    if row.isAlignable item then
      let anchor := above.bind fun (line, other) =>
        (other.anchorItem? token.column).map (Position.mk line)
      { token with anchor }
    else token

end Row

namespace Grid

-- Lines up the rows from `line` on, with `above` the nearest row before them that is not empty.
def alignFrom (line : Nat) (above : Option (Nat × Row)) : Grid → Grid
  | [] => []
  | row :: rest =>
    row.align above :: alignFrom (line + 1) (if row.isEmpty then above else some (line, row)) rest

-- The first row has nothing above it and stays as it is.
def align : Grid → Grid
  | [] => []
  | row :: rest => row :: alignFrom 1 (if row.isEmpty then none else some (0, row)) rest

def parse (source : Text) : Grid := (ofSource source).align

end Grid

end TlaGlyph
