import TlaGlyph.Grid.Basic
import TlaGlyph.Line.Emission

namespace TlaGlyph

structure Deferral.Entry where
  item : Nat
  kind : CommentKind
  text : Text
deriving DecidableEq

-- The comments in front of the first other token of a line, until it is known whether that token
-- leaves them their place. If it does not, they go to the end of the line.
structure Deferral where
  leading : List Deferral.Entry := []
  -- nothing but comments so far
  onlyComments : Bool := true
  -- the leading comments have been taken away from the front
  deferring : Bool := false
deriving DecidableEq

namespace Deferral

-- The token at `item` is about to be written. When the first token that is no comment has found
-- its place behind the comments, there is nothing left to hold.
def observe (deferral : Deferral) (item : Nat) (token : Token) : Deferral :=
  match token.kind with
  | .comment kind =>
    if deferral.onlyComments then
      { deferral with leading := deferral.leading ++ [⟨item, kind, token.text⟩] }
    else deferral
  | _ =>
    { deferral with
      onlyComments := false
      leading := if deferral.deferring then deferral.leading else [] }

def arm (deferral : Deferral) : Deferral := { deferral with deferring := true }

-- The leading comments of the row are not written in place.
def unplace (deferral : Deferral) (row : Row) : Row :=
  row.mapIdx fun item token =>
    if deferral.leading.any (·.item = item) then { token with outputColumn := none } else token

-- The line begins with the end of a comment from above.
def closesComment (deferral : Deferral) : Bool :=
  deferral.leading.head?.any (·.kind = .closing)

def flush (deferral : Deferral) : Text := deferral.leading.flatMap (Text.deferred ·.text)

end Deferral

end TlaGlyph
