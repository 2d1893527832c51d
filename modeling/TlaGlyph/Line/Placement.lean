import TlaGlyph.Error
import TlaGlyph.Grid.Basic

namespace TlaGlyph

inductive Placement where
  -- after this many spaces
  | spaces (count : Nat)
  -- at this column of a line from which the comments so far are taken away
  | realign (column : Nat)
deriving DecidableEq

namespace Token

def context (previous? : Option Token) (token : Token) : String :=
  match previous? with
  | some previous => s!"{token.display} :: {previous.display}"
  | none => token.display

-- The gap in the source between the token and the one in front of it.
def sourceGap (position : Position) (previous? : Option Token) (token : Token) :
    Except ConversionError Nat :=
  let start := previous?.elim 0 finish
  if start ≤ token.column then .ok (token.column - start)
  else .error (.negativeSpacing position (token.context previous?))

-- The column where the anchor was written. An anchor that stood at another column in the source,
-- or that was not written in place, is passed over.
def target? (above : Grid) (position : Position) (token : Token) :
    Except ConversionError (Option Nat) :=
  match token.anchor with
  | none => .ok none
  | some anchor =>
    match above.get? anchor with
    | none => .error (.invalidAnchor position token.display anchor)
    | some other => .ok (if other.column = token.column then other.outputColumn else none)

-- Places the token on a line of the given width, below the rows already written. Symbols get no
-- wider on the way to Unicode, so it is there that comments may have to give way.
def place (direction : Direction) (above : Grid) (position : Position) (previous? : Option Token)
    (width : Nat) (onlyComments : Bool) (token : Token) : Except ConversionError Placement :=
  match token.target? above position with
  | .error e => .error e
  | .ok none => (token.sourceGap position previous?).map .spaces
  | .ok (some column) =>
    if width ≤ column then .ok (.spaces (column - width))
    else if onlyComments && !token.isComment then
      match direction with
      | .toAscii => .error (.asciiRealign position token.display)
      | .toUnicode => .ok (.realign column)
    else (token.sourceGap position previous?).map .spaces

end Token

end TlaGlyph
