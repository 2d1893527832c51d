import TlaGlyph.Text.Basic

namespace TlaGlyph

open Text (run)

namespace Lexeme

-- In order of precedence: of two shapes that match equally far the earlier one is taken.
inductive Shape where
  | lineComment
  | openComment
  | string
  | number
  | word
  | dashes
  | endMarker
  | proofStep
  | backslashWord
  | symbol
  | operator
  | delimiter
  | glyph
  -- a lexeme that breaks off, or a character that starts none
  | broken
deriving DecidableEq

def isGap (c : Char) : Bool := c == ' ' || c == '\t' || c == '\x0c' || c == '\r'

def isWordLetter (c : Char) : Bool := c.isAlphanum || c == '_'

def isOperatorChar (c : Char) : Bool := "-+*/<>=|~&!@#$%^:.'?".toList.contains c

def isDelimiter (c : Char) : Bool := "()\x7b\x7d[],;".toList.contains c

-- The digits that a number may have after a backslash and the letter of its base.
def isRadixDigit (base c : Char) : Bool :=
  match base with
  | 'b' | 'B' => c == '0' || c == '1'
  | 'o' | 'O' => '0' ≤ c && c ≤ '7'
  | 'h' | 'H' => c.isDigit || 'a' ≤ c && c ≤ 'f' || 'A' ≤ c && c ≤ 'F'
  | _ => false

def fixedSymbols : List Text :=
  ["/\\", "\\/", "[]", "(+)", "(-)", "(.)", "(/)", "(\\X)", "\\"].map String.toList

-- How far the inside of a string literal goes. A backslash takes the next character with it,
-- and neither a newline nor the end of the text can be taken.
def stringRun : Text → Nat
  | '\\' :: c :: rest => if c = '\n' then 0 else 2 + stringRun rest
  | c :: rest => if c = '"' ∨ c = '\\' ∨ c = '\n' then 0 else 1 + stringRun rest
  | [] => 0

-- A number or the whole part of one, and the decimals if there are any.
def decimalRun (text : Text) : Nat :=
  let digits := run Char.isDigit text
  match text.drop digits with
  | '.' :: rest =>
    let decimals := run Char.isDigit rest
    if 0 < digits ∧ 0 < decimals then digits + 1 + decimals else digits
  | _ => digits

def radixRun : Text → Nat
  | '\\' :: base :: rest =>
    let digits := run (isRadixDigit base) rest
    if 0 < digits then 2 + digits else 0
  | _ => 0

-- At least one of the letters of a word is no digit.
def wordRun (text : Text) : Nat :=
  let letters := text.takeWhile isWordLetter
  if letters.all Char.isDigit then 0 else letters.length

-- At least four of `c`.
def ruleRun (c : Char) (text : Text) : Nat :=
  let length := run (· == c) text
  if 4 ≤ length then length else 0

-- A step's level is a number, a star or a plus. A name may follow a number only.
def proofStepRun : Text → Nat
  | '<' :: '*' :: '>' :: rest => 3 + run (· == '.') rest
  | '<' :: '+' :: '>' :: rest => 3 + run (· == '.') rest
  | '<' :: rest =>
    let digits := run Char.isDigit rest
    match rest.drop digits with
    | '>' :: rest =>
      let name := run isWordLetter rest
      if 0 < digits then 2 + digits + name + run (· == '.') (rest.drop name) else 0
    | _ => 0
  | _ => 0

-- A string without its end, a step's level without its end, or else one character.
def brokenRun : Text → Nat
  | '"' :: rest => 1 + stringRun rest
  | '<' :: rest => 1 + run Char.isDigit rest
  | _ :: _ => 1
  | [] => 0

def lineCommentRun : Text → Nat
  | '\\' :: '*' :: rest => 2 + run (· != '\n') rest
  | _ => 0

def openCommentRun : Text → Nat
  | '(' :: '*' :: _ => 2
  | _ => 0

def stringLiteralRun : Text → Nat
  | '"' :: rest =>
    let inside := stringRun rest
    if (rest.drop inside).head? = some '"' then inside + 2 else 0
  | _ => 0

def backslashWordRun : Text → Nat
  | '\\' :: rest =>
    let letters := run Char.isAlpha rest
    if 0 < letters then 1 + letters else 0
  | _ => 0

def charRun (p : Char → Bool) (text : Text) : Nat := if text.head?.any p then 1 else 0

-- The length of the longest start of the text that has the shape, zero if there is none.
def Shape.reach (text : Text) : Shape → Nat
  | .lineComment => lineCommentRun text
  | .openComment => openCommentRun text
  | .string => stringLiteralRun text
  | .number => max (decimalRun text) (radixRun text)
  | .word => wordRun text
  | .dashes => ruleRun '-' text
  | .endMarker => ruleRun '=' text
  | .proofStep => proofStepRun text
  | .backslashWord => backslashWordRun text
  | .symbol => (Text.longestPrefix? fixedSymbols text).getD 0
  | .operator => run isOperatorChar text
  | .delimiter => charRun isDelimiter text
  | .glyph => charRun (0x7F < ·.toNat) text
  | .broken => brokenRun text

def shapes : List Shape :=
  [.lineComment, .openComment, .string, .number, .word, .dashes, .endMarker, .proofStep,
    .backslashWord, .symbol, .operator, .delimiter, .glyph, .broken]

-- The first of the shapes that match the farthest, and how far that is.
def longest (text : Text) : List Shape → Shape × Nat
  | [] => (.broken, 0)
  | shape :: rest =>
    let best := longest text rest
    if best.2 ≤ shape.reach text then (shape, shape.reach text) else best

theorem reach_le_longest (text : Text) (shape : Shape) (list : List Shape) (h : shape ∈ list) :
    shape.reach text ≤ (longest text list).2 := by
  induction list with
  | nil => cases h
  | cons other list ih =>
    simp only [longest]
    rcases List.mem_cons.mp h with rfl | h
    · split
      · exact Nat.le_refl _
      · next hlt => exact Nat.le_of_not_le hlt
    · split
      · next hle => exact Nat.le_trans (ih h) hle
      · exact ih h

theorem longest_pos (c : Char) (text : Text) : 0 < (longest (c :: text) shapes).2 := by
  have hle := reach_le_longest (c :: text) .broken shapes (by decide)
  have hpos : 0 < Shape.broken.reach (c :: text) := by
    rw [Shape.reach, brokenRun.eq_def]
    split
    · omega
    · omega
    · omega
    · next h => cases h
  omega

end Lexeme

end TlaGlyph
