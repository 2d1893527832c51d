import TlaGlyph.Conversion
import TlaGlyph.FileSystem.Basic
import TlaGlyph.Grid.Dump
import TlaGlyph.Options
import TlaGlyph.Text.Utf8

namespace TlaGlyph

inductive RunError where
  | read (path : Text) (cause : FileError)
  | create (path : Text) (cause : FileError)
  | conversion (error : ConversionError)
deriving DecidableEq

def RunError.message : RunError → String
  | .read path cause => s!"can't read {String.ofList path}: {cause.message}"
  | .create path cause => s!"can't create {String.ofList path}: {cause.message}"
  | .conversion error => error.message

-- What a run does to the outside. On a file system that is a value and on the machine it is one run.
class Host (m : Type → Type) where
  currentDirectory : m Text
  read : Text → m (Except FileError ByteArray)
  -- creates the file or replaces what it held
  save : Text → ByteArray → m (Except FileError Unit)
  print : ByteArray → m Unit

-- What is written to the output of this name, and what came of the conversion. The lines above
-- an error are written.
def Grid.write (direction : Direction) (name : String) (grid : Grid) :
    Text × Except ConversionError Unit :=
  let outcome := grid.putAll Writer.sink direction { name }
  (outcome.sink.flushed, outcome.result)

-- The output is created before the first line is converted, so that its failure goes first.
def Options.run {m : Type → Type} [Monad m] [Host m] (options : Options) :
    m (Except RunError Unit) := do
  match ← Host.read options.input with
  | .error cause => return .error (.read options.input cause)
  | .ok bytes =>
    match Text.decode? bytes with
    | none => return .error (.read options.input .notUtf8)
    | some source =>
      let grid := Grid.parse source
      if options.dumpTokens then
        Host.print (Text.encode (grid.dump.toList ++ ['\n']))
        return .ok ()
      else
        let (text, result) := grid.write options.direction options.outputName
        let result := result.mapError RunError.conversion
        match options.output with
        | none =>
          Host.print (Text.encode text)
          return result
        | some path =>
          match ← Host.save path (Text.encode text) with
          | .error cause => return .error (.create path cause)
          | .ok () => return result

-- All that a run can see and change.
structure World where
  files : FileSystem
  stdout : ByteArray := .empty

instance : Host (StateM World) where
  currentDirectory := fun world => (Path.ofLocation world.files.current, world)
  read path := fun world => (world.files.read path, world)
  save path content := fun world =>
    match world.files.save path content with
    | .error cause => (.error cause, world)
    | .ok files => (.ok (), { world with files })
  print bytes := fun world => ((), { world with stdout := world.stdout ++ bytes })

end TlaGlyph
