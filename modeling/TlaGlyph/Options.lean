import TlaGlyph.FileSystem.Path
import TlaGlyph.Symbol

namespace TlaGlyph

structure Options where
  direction : Direction
  input : Text
  -- standard output if there is none
  output : Option Text := none
  -- show the tokens and convert nothing
  dumpTokens : Bool := false
deriving DecidableEq

inductive OptionsError where
  | sameFile (output : Text)
deriving DecidableEq

def OptionsError.message : OptionsError → String
  | .sameFile output => s!"writing to {String.ofList output} would overwrite your input file"

namespace Options

def outputName (options : Options) : String := options.output.elim "STDOUT" String.ofList

-- Whether the paths lead to one location from the directory.
def samePath (directory first last : Text) : Bool :=
  let base := Path.resolve [] directory
  Path.resolve base first = Path.resolve base last

-- The output may not be the input under another spelling.
def check (directory : Text) (options : Options) : Except OptionsError Options :=
  match options.output with
  | none => .ok options
  | some output =>
    if samePath directory options.input output then .error (.sameFile output) else .ok options

end Options

end TlaGlyph
