import TlaGlyph.Comment
import TlaGlyph.Grid.Basic
import TlaGlyph.Lexeme.Scan
import TlaGlyph.Symbol
import TlaGlyph.Text.Blank

namespace TlaGlyph

def reservedWords : List Text :=
  ["ACTION", "ASSUME", "ASSUMPTION", "AXIOM", "BOOLEAN", "BY", "CASE", "CHOOSE", "CONSTANT",
    "CONSTANTS", "COROLLARY", "DEF", "DEFINE", "DEFS", "DOMAIN", "ELSE", "ENABLED", "EXCEPT",
    "EXTENDS", "FALSE", "HAVE", "HIDE", "IF", "IN", "INSTANCE", "LAMBDA", "LEMMA", "LET", "LOCAL",
    "MODULE", "NEW", "OBVIOUS", "OMITTED", "ONLY", "OTHER", "PICK", "PROOF", "PROPOSITION", "QED",
    "RECURSIVE", "STATE", "STRING", "SUBSET", "SUFFICES", "TAKE", "TEMPORAL", "THEN", "THEOREM",
    "TRUE", "UNCHANGED", "UNION", "USE", "VARIABLE", "VARIABLES", "WITH", "WITNESS"].map
    String.toList

def wordKind (word : Text) : Kind :=
  if reservedWords.contains word || Symbol.isAscii word then .builtin else .ident

-- A run of operator characters falls into the longest spellings of symbols from left to right,
-- and into single characters where there is none.
def splitOperators (column : Nat) : Text → Row
  | [] => []
  | c :: rest =>
    let more := (Symbol.longestSpelling? (c :: rest)).getD 1 - 1
    let token := Token.ofText .builtin (c :: rest.take more) column
    token :: splitOperators token.finish (rest.drop more)
termination_by text => text.length
decreasing_by
  simp only [List.length_drop, List.length_cons]
  omega

-- A comment to the end of the line, from the text behind its mark. If a block comment ends the
-- text, the line comment stops in front of it, and the block comment keeps its width but
-- not its text.
def splitLineComment (column : Nat) (text : Text) : Row :=
  let whole := [Token.ofText (.comment .line) text column]
  match Text.splitAt? ['(', '*'] text with
  | none => whole
  | some (before, after) =>
    match Comment.read 1 after with
    | .closed body rest =>
      if rest.all Text.isBlank then
        let token := Token.ofText (.comment .line) before column
        let block := Token.ofText (.comment .whole) body token.finish
        [token, { block with text := [] }]
      else whole
    | .unclosed _ => whole

-- The tokens of a lexeme that begins no comment. What is not known becomes a builtin that no symbol
-- spells, so that it is copied as it is.
def Lexeme.tokens (lexeme : Lexeme) : Row :=
  let single (kind : Kind) : Row := [Token.ofText kind lexeme.text lexeme.start]
  match lexeme.shape with
  | .string => [Token.ofText .string (lexeme.text.drop 1).dropLast lexeme.start]
  | .number => single .number
  | .word => single (wordKind lexeme.text)
  | .dashes => single .dashes
  | .endMarker => single .endMarker
  | .proofStep => single .proofStep
  | .operator => splitOperators lexeme.start lexeme.text
  | .lineComment | .openComment | .backslashWord | .symbol | .delimiter | .glyph | .broken =>
    single .builtin

namespace Row

-- The tokens of a text that begins at `column` and outside every comment, and the number
-- of comments that are open where it ends.
def ofCode (column : Nat) (text : Text) : Row × Nat :=
  match h : Lexeme.next? column text with
  | none => ([], 0)
  | some (lexeme, rest) =>
    have := Lexeme.length_lt_of_next? h
    match lexeme.shape with
    | .lineComment => (splitLineComment lexeme.start (lexeme.text.drop 2), 0)
    | .openComment =>
      match hread : Comment.read 1 rest with
      | .closed body after =>
        have := Comment.length_lt_of_read_eq_closed hread
        let token := Token.ofText (.comment .whole) body lexeme.start
        let tail := ofCode token.finish after
        (token :: tail.1, tail.2)
      | .unclosed depth => ([Token.ofText (.comment .opening) rest lexeme.start], depth)
    | _ =>
      let tail := ofCode lexeme.finish rest
      (lexeme.tokens ++ tail.1, tail.2)
termination_by text.length

-- The tokens of a line that begins inside `depth` comments, and the number of comments that
-- are open where it ends.
def ofLine (depth : Nat) (line : Text) : Row × Nat :=
  if depth = 0 then ofCode 0 line
  else
    match Comment.read depth line with
    | .closed body rest =>
      let token := Token.ofText (.comment .closing) body 0
      let tail := ofCode token.finish rest
      (token :: tail.1, tail.2)
    | .unclosed depth =>
      (if line.isEmpty then [] else [Token.ofText (.comment .inside) line 0], depth)

end Row

end TlaGlyph
