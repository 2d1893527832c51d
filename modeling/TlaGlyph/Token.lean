import TlaGlyph.Text.Quoted

namespace TlaGlyph

-- A comment is cut at line ends, and each piece is a token of its own.
inductive CommentKind where
  -- from `(*` to its `*)` on one line
  | whole
  -- from `\*` to the end of the line
  | line
  -- the first line of a comment that goes on below
  | opening
  -- the last line of one, up to its `*)`
  | closing
  -- a line in between
  | inside
deriving DecidableEq

inductive Kind where
  | builtin
  | number
  | ident
  | label
  | dashes
  | endMarker
  | prolog
  | epilog
  | proofStep
  | string
  | comment (kind : CommentKind)
deriving DecidableEq

namespace CommentKind

def name : CommentKind → String
  | .whole => "Normal"
  | .line => "Line"
  | .opening => "BeginOverrun"
  | .closing => "EndOverrun"
  | .inside => "Overrun"

-- The marks that a piece owns on its line.
def openMark : CommentKind → Text
  | .whole | .opening => ['(', '*']
  | .line => ['\\', '*']
  | .closing | .inside => []

def closeMark : CommentKind → Text
  | .whole | .closing => ['*', ')']
  | .line | .opening | .inside => []

-- Nothing may follow these on their line: what did would become part of the comment.
def endsLine : CommentKind → Bool
  | .line | .opening => true
  | .whole | .closing | .inside => false

end CommentKind

namespace Kind

def name : Kind → String
  | .builtin => "Builtin"
  | .number => "Number"
  | .ident => "Ident"
  | .label => "Label"
  | .dashes => "Dashes"
  | .endMarker => "EndMarker"
  | .prolog => "Prolog"
  | .epilog => "Epilog"
  | .proofStep => "ProofStep"
  | .string => "String"
  | .comment _ => "Comment"

def display : Kind → String
  | .comment kind => s!"Comment({kind.name})"
  | kind => kind.name

def openMark : Kind → Text
  | .string => ['"']
  | .comment kind => kind.openMark
  | _ => []

def closeMark : Kind → Text
  | .string => ['"']
  | .comment kind => kind.closeMark
  | _ => []

def commentKind? : Kind → Option CommentKind
  | .comment kind => some kind
  | _ => none

def isComment (kind : Kind) : Bool := kind.commentKind?.isSome

end Kind

-- The place of a token: its line, and its index among the tokens of the line.
structure Position where
  line : Nat
  item : Nat
deriving DecidableEq

-- Readers count from one.
def Position.display (position : Position) : String :=
  s!"line {position.line + 1}, item {position.item + 1}"

-- Columns and widths count characters.
structure Token where
  kind : Kind
  -- without the marks of its kind
  text : Text
  column : Nat
  -- in the source, marks included
  width : Nat
  -- where it was last written
  outputColumn : Option Nat := none
  -- the token above that it is lined up with
  anchor : Option Position := none
deriving DecidableEq

namespace Token

-- The text between the marks of its kind.
def spelling (token : Token) : Text :=
  token.kind.openMark ++ token.text ++ token.kind.closeMark

def markWidth (kind : Kind) : Nat := kind.openMark.length + kind.closeMark.length

-- A token as wide as it is spelled.
def ofText (kind : Kind) (text : Text) (column : Nat) : Token where
  kind := kind
  text := text
  column := column
  width := text.length + markWidth kind

-- The column just past the token.
def finish (token : Token) : Nat := token.column + token.width

def isComment (token : Token) : Bool := token.kind.isComment

def commentKind? (token : Token) : Option CommentKind := token.kind.commentKind?

def endsLine (token : Token) : Bool := token.commentKind?.any CommentKind.endsLine

def display (token : Token) : String :=
  s!"{token.kind.display} {String.ofList token.text.quoted} at column {token.column}"

@[simp] theorem ofText_width (kind : Kind) (text : Text) (column : Nat) :
    (ofText kind text column).width = (ofText kind text column).spelling.length := by
  simp only [ofText, markWidth, spelling, List.length_append]
  omega

end Token

end TlaGlyph
