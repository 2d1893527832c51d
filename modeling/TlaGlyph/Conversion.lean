import TlaGlyph.Grid.Alignment
import TlaGlyph.Line.Draft
import TlaGlyph.Sink

namespace TlaGlyph

namespace Row

-- Whether a comment is open at the end of the row, if its pieces from `item` on follow from what
-- came before them.
def checkComments (line item : Nat) (isOpen : Bool) : Row → Except ConversionError Bool
  | [] => .ok isOpen
  | token :: rest =>
    let malformed (reason : String) : Except ConversionError Bool :=
      .error (.malformedComment ⟨line, item⟩ reason)
    match token.commentKind?, isOpen with
    | some .opening, true => malformed "comment opened while another one is still open"
    | some .inside, false => malformed "comment line outside of a multi-line comment"
    | some .closing, false => malformed "comment closed without being opened"
    | some .opening, false => checkComments line (item + 1) true rest
    | some .closing, true => checkComments line (item + 1) false rest
    | _, _ => checkComments line (item + 1) isOpen rest

end Row

structure Grid.Outcome (σ : Type) where
  grid : Grid
  sink : σ
  result : Except ConversionError Unit

namespace Grid

-- Converts the rows below `above` and hands their lines to the sink until something fails. A row is
-- looked at when the ones above it have been handed over, so that its anchors have their columns.
def putRows {σ : Type} (sink : Sink σ) (direction : Direction) (above : Grid) (isOpen : Bool)
    (state : σ) : Grid → Outcome σ
  | [] => ⟨[], state, .ok ()⟩
  | row :: rest =>
    match row.checkComments above.length 0 isOpen with
    | .error e => ⟨row :: rest, state, .error e⟩
    | .ok isOpen =>
      match row.convert direction above with
      | (row, .error e) => ⟨row :: rest, state, .error e⟩
      | (row, .ok line) =>
        match sink.put line state with
        | (.error cause, state) => ⟨row :: rest, state, .error (.io cause)⟩
        | (.ok (), state) =>
          let tail := putRows sink direction (above ++ [row]) isOpen state rest
          { tail with grid := row :: tail.grid }

-- The sink is closed whatever happened. An error before that goes before one in closing.
def putAll {σ : Type} (sink : Sink σ) (direction : Direction) (state : σ) (grid : Grid) :
    Outcome σ :=
  let outcome := putRows sink direction [] false state grid
  let (closed, state) := sink.close outcome.sink
  { outcome with
    sink := state
    result := outcome.result.bind fun _ => closed.mapError .io }

-- The lines of a grid.
def convert (direction : Direction) (grid : Grid) : Except ConversionError (List Text) :=
  let outcome := putAll Memory.sink direction {} grid
  outcome.result.map fun _ => outcome.sink.lines

end Grid

namespace Text

def convertLines (direction : Direction) (source : Text) : Except ConversionError (List Text) :=
  (Grid.parse source).convert direction

-- Every line of the result ends with a newline.
def convert (direction : Direction) (source : Text) : Except ConversionError Text :=
  (convertLines direction source).map unlines

end Text

end TlaGlyph
