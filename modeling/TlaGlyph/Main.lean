import TlaGlyph.CommandLine

namespace TlaGlyph

def FileError.ofFailure : IO.Error → FileError
  | .noFileOrDirectory _ code text | .interrupted _ code text
  | .alreadyExists _ code text | .invalidArgument _ code text
  | .permissionDenied _ code text | .resourceExhausted _ code text
  | .inappropriateType _ code text | .noSuchThing _ code text
  | .otherError code text | .resourceBusy code text | .resourceVanished code text
  | .unsupportedOperation code text | .hardwareFault code text
  | .unsatisfiedConstraints code text | .illegalOperation code text
  | .protocolError code text | .timeExpired code text => .system code.toNat text
  | .unexpectedEof => .system 0 "unexpected end of file"
  | .userError text => .system 0 text

-- The failure of an action as a value.
def attempt {α : Type} (action : IO α) : IO (Except FileError α) :=
  try return .ok (← action)
  catch failure => return .error (.ofFailure failure)

instance : Host IO where
  currentDirectory := do return (← IO.currentDir).toString.toList
  read path := attempt (IO.FS.withFile (String.ofList path) .read (·.readBinToEnd))
  save path content := attempt (IO.FS.writeBinFile (String.ofList path) content)
  print bytes := do
    let stdout ← IO.getStdout
    stdout.write bytes
    stdout.flush

end TlaGlyph

def main (arguments : List String) : IO UInt32 := do
  let report ← TlaGlyph.CommandLine.execute (arguments.map String.toList)
  IO.eprint report.stderr
  return report.exitCode.toUInt32
