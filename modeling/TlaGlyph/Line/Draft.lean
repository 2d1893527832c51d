import TlaGlyph.Line.Deferral
import TlaGlyph.Line.Placement

namespace TlaGlyph

-- Converting to Unicode moves no token right, converting to ASCII none left.
def Direction.allows (direction : Direction) (column outputColumn : Nat) : Bool :=
  match direction with
  | .toUnicode => outputColumn ≤ column
  | .toAscii => column ≤ outputColumn

-- A line being written.
structure Draft where
  line : Text := []
  deferral : Deferral := {}
deriving DecidableEq

namespace Draft

-- Writes the token after the given number of spaces.
def put (direction : Direction) (position : Position) (token : Token) (spaces : Nat)
    (draft : Draft) : Draft × Except ConversionError Token :=
  let line := draft.line ++ Text.spaces spaces
  let deferral := draft.deferral.observe position.item token
  let column := line.length
  if direction.allows token.column column then
    (⟨line ++ token.emission direction, deferral⟩, .ok { token with outputColumn := some column })
  else
    (⟨line, deferral⟩,
      .error (.columnDrift position token.display token.column column direction))

-- Takes the comments away and writes the token at `column`. If the first of them closes a
-- comment from above, its mark stays.
def realign (direction : Direction) (position : Position) (token : Token) (column : Nat)
    (draft : Draft) : Draft × Except ConversionError Token :=
  let front := if draft.deferral.closesComment then ['*', ')'] else []
  let cleared : Draft := ⟨front, draft.deferral.arm⟩
  if front.length ≤ column then
    cleared.put direction position token (column - front.length)
  else (cleared, .error (.negativeSpacing position token.display))

def write (direction : Direction) (above : Grid) (position : Position) (previous? : Option Token)
    (token : Token) (draft : Draft) : Draft × Except ConversionError Token :=
  match token.place direction above position previous? draft.line.length
      draft.deferral.onlyComments with
  | .error e => (draft, .error e)
  | .ok (.spaces count) => draft.put direction position token count
  | .ok (.realign column) => draft.realign direction position token column

-- A last token that has to end its line waits until the deferred comments are written.
def postpones (draft : Draft) (token : Token) (rest : Row) : Bool :=
  draft.deferral.deferring && rest.isEmpty && token.endsLine

-- Writes the tokens from `item` on. Gives them back as they were left, also after an error.
def writeAll (direction : Direction) (above : Grid) (item : Nat) (previous? : Option Token)
    (draft : Draft) : Row → Row × Draft × Except ConversionError Unit
  | [] => ([], draft, .ok ())
  | token :: rest =>
    if draft.postpones token rest then (token :: rest, draft, .ok ())
    else
      match draft.write direction above ⟨above.length, item⟩ previous? token with
      | (draft, .error e) => (token :: rest, draft, .error e)
      | (draft, .ok written) =>
        let tail := writeAll direction above (item + 1) (some token) draft rest
        (written :: tail.1, tail.2)

-- The line with the comments that were deferred.
def finish (direction : Direction) (row : Row) (draft : Draft) : Text :=
  if draft.deferral.deferring then
    let last := (row.getLast?.filter Token.endsLine).elim [] (' ' :: Token.emission direction ·)
    draft.line ++ draft.deferral.flush ++ last
  else draft.line

end Draft

namespace Row

-- The row as it is left, and its line, below the rows already converted.
def convert (direction : Direction) (above : Grid) (row : Row) :
    Row × Except ConversionError Text :=
  let (written, draft, result) := Draft.writeAll direction above 0 none {} row
  (if draft.deferral.deferring then draft.deferral.unplace written else written,
    result.map fun _ => draft.finish direction row)

end Row

end TlaGlyph
