import TlaGlyph.Symbol
import TlaGlyph.Token

namespace TlaGlyph

-- The opening of a comment that has no width is there in name only, and nothing is written of it.
def CommentKind.emission (kind : CommentKind) (text : Text) (width : Nat) : Text :=
  if kind = .opening ∧ width = 0 then [] else kind.openMark ++ text ++ kind.closeMark

namespace Token

-- Symbols are converted; everything else stays as it is.
def emission (direction : Direction) (token : Token) : Text :=
  match token.kind with
  | .builtin => (Symbol.convert? direction token.text).getD token.text
  | .comment kind => kind.emission token.text token.width
  | _ => token.spelling

end Token

-- A comment that is moved to the end of its line. Away from its place it cannot be a piece of
-- a comment on other lines, so it has both marks whatever its kind.
def Text.deferred (text : Text) : Text := [' ', '(', '*'] ++ text ++ ['*', ')']

end TlaGlyph
