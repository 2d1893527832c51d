import TlaGlyph.Grid.Basic

namespace TlaGlyph

namespace Dump

def escape (c : Char) : String :=
  match c with
  | '"' => "\\\""
  | '\\' => "\\\\"
  | '\x08' => "\\b"
  | '\t' => "\\t"
  | '\n' => "\\n"
  | '\x0c' => "\\f"
  | '\r' => "\\r"
  | c =>
    if c.toNat < 0x20 then "\\u00" ++ String.ofList (Nat.toDigits 16 (c.toNat + 0x100) |>.drop 1)
    else c.toString

def quote (text : Text) : String := "\"" ++ String.join (text.map escape) ++ "\""

def lineBreak (level : Nat) : String := "\n" ++ String.ofList (Text.spaces (2 * level))

-- Items between brackets, each on a line of its own.
def block (opening closing : String) (level : Nat) (items : List String) : String :=
  if items.isEmpty then opening ++ closing
  else
    let lines := items.map (lineBreak (level + 1) ++ ·)
    opening ++ ",".intercalate lines ++ lineBreak level ++ closing

def array : Nat → List String → String := block "[" "]"

def object (level : Nat) (fields : List (String × String)) : String :=
  block "\x7b" "\x7d" level (fields.map fun (name, value) => s!"\"{name}\": {value}")

def number (n : Nat) : String := toString n

end Dump

open Dump

def Kind.dump (level : Nat) : Kind → String
  | .comment kind => object level [("Comment", quote kind.name.toList)]
  | kind => quote kind.name.toList

def Position.dump (level : Nat) (position : Position) : String :=
  object level [("line", number position.line), ("item", number position.item)]

-- What is not set is left out.
def Token.dump (level : Nat) (token : Token) : String :=
  object level <|
    [("kind", token.kind.dump (level + 1)), ("text", quote token.text),
      ("column", number token.column), ("width", number token.width)] ++
    token.outputColumn.toList.map (fun column => ("output_column", number column)) ++
    token.anchor.toList.map (fun anchor => ("anchor", anchor.dump (level + 1)))

-- A line for every value, and two spaces for every level.
def Grid.dump (grid : Grid) : String :=
  array 0 (grid.map fun row => array 1 (row.map (Token.dump 2)))

end TlaGlyph
