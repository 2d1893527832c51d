import TlaGlyph.Grid.Row
import TlaGlyph.Text.WordChar

namespace TlaGlyph

namespace Module

-- At least four dashes and the word MODULE. White space may stand in front of each.
def isHeader (line : Text) : Bool :=
  let rule := Text.trimStart line
  let word := Text.trimStart (rule.dropWhile (· == '-'))
  4 ≤ Text.run (· == '-') rule && "MODULE".toList.isPrefixOf word &&
    !(word.drop "MODULE".length).head?.any Text.isWordChar

-- A line of prose is one token, and an empty one none.
def prose (kind : Kind) (line : Text) : Row :=
  if line.isEmpty then [] else [Token.ofText kind line 0]

-- The rows of lines that no header frames, the first of which begins inside `depth` comments.
def rows (depth : Nat) : List Text → Grid
  | [] => []
  | line :: rest =>
    let row := Row.ofLine depth line
    row.1 :: rows row.2 rest

def endMarkers (row : Row) : Nat := row.countP (·.kind = .endMarker)

-- The rows from the header on. Modules nest: a header outside of comments begins one more, every
-- end marker ends one, and the epilog begins below the row that ends the outermost.
def framedRows (nesting depth : Nat) : List Text → Grid
  | [] => []
  | line :: rest =>
    let entered := if depth = 0 ∧ isHeader line then nesting + 1 else nesting
    let row := Row.ofLine depth line
    let left := entered - endMarkers row.1
    row.1 ::
      if 0 < endMarkers row.1 ∧ left = 0 then rest.map (prose .epilog)
      else framedRows left row.2 rest

end Module

-- The tokens of a source, not yet lined up. Without a header all of it is the module.
def Grid.ofSource (source : Text) : Grid :=
  let lines := Text.lines source
  if lines.any Module.isHeader then
    (lines.takeWhile (!Module.isHeader ·)).map (Module.prose .prolog) ++
      Module.framedRows 0 0 (lines.dropWhile (!Module.isHeader ·))
  else Module.rows 0 lines

end TlaGlyph
