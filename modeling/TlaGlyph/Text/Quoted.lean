import TlaGlyph.Text.Basic
import TlaGlyph.Text.Printable

namespace TlaGlyph.Text

def hexDigits (n : Nat) : Text := Nat.toDigits 16 n

def escape (c : Char) : Text :=
  match c with
  | '\x00' => ['\\', '0']
  | '\t' => ['\\', 't']
  | '\n' => ['\\', 'n']
  | '\r' => ['\\', 'r']
  | '"' => ['\\', '"']
  | '\\' => ['\\', '\\']
  | c => if isPrintable c then [c] else "\\u\x7b".toList ++ hexDigits c.toNat ++ "\x7d".toList

-- An apostrophe needs no escape between double quotes.
def quoted (text : Text) : Text := '"' :: text.flatMap escape ++ ['"']

end TlaGlyph.Text
