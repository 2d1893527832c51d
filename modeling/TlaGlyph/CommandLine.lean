import TlaGlyph.Run

namespace TlaGlyph.CommandLine

inductive Flag where
  | toUnicode
  | toAscii
  | debug
  | dumpTokens
deriving DecidableEq

def Flag.ofName? (name : Text) : Option Flag :=
  [("a2u", .toUnicode), ("u2a", .toAscii), ("debug", .debug), ("dump-tokens", .dumpTokens)].lookup
    (String.ofList name)

structure Arguments where
  flags : List Flag := []
  paths : List Text := []
deriving DecidableEq

-- Why the arguments are not carried out.
inductive Stop where
  | help
  | version
  | misuse (reason : String)
deriving DecidableEq

-- Letters behind a single dash stand for options of their own. The first one decides.
def readLetter (letter : Char) : Stop :=
  match letter with
  | 'h' => .help
  | 'V' => .version
  | _ => .misuse s!"unexpected argument '-{letter}' found"

def readOption (name : Text) (arguments : Arguments) : Except Stop Arguments :=
  if name = "help".toList then .error .help
  else if name = "version".toList then .error .version
  else
    match Flag.ofName? name with
    | none => .error (.misuse s!"unexpected argument '--{String.ofList name}' found")
    | some flag =>
      if flag ∈ arguments.flags then
        .error (.misuse
          s!"the argument '--{String.ofList name}' cannot be used multiple times")
      else .ok { arguments with flags := arguments.flags ++ [flag] }

def readPath (path : Text) (arguments : Arguments) : Except Stop Arguments :=
  if path = [] then .error (.misuse "a value is required but none was supplied")
  else if arguments.paths.length = 2 then
    .error (.misuse s!"unexpected argument '{String.ofList path}' found")
  else .ok { arguments with paths := arguments.paths ++ [path] }

-- From left to right: the first argument that is wrong, or that asks for help or for the version, ends
-- the reading. Behind two dashes all arguments are paths. A single dash is a path too.
def readAll (arguments : Arguments) : List Text → Except Stop Arguments
  | [] => .ok arguments
  | ['-', '-'] :: rest => rest.foldlM (fun arguments path => readPath path arguments) arguments
  | ('-' :: '-' :: name) :: rest =>
    match readOption name arguments with
    | .error stop => .error stop
    | .ok arguments => readAll arguments rest
  | ('-' :: letter :: _) :: _ => .error (readLetter letter)
  | path :: rest =>
    match readPath path arguments with
    | .error stop => .error stop
    | .ok arguments => readAll arguments rest

-- There has to be an input and one direction.
def Arguments.options (arguments : Arguments) : Except Stop Options :=
  let dumpTokens := decide (.dumpTokens ∈ arguments.flags)
  match arguments.paths, decide (.toUnicode ∈ arguments.flags),
      decide (.toAscii ∈ arguments.flags) with
  | input :: output, true, false => .ok ⟨.toUnicode, input, output.head?, dumpTokens⟩
  | input :: output, false, true => .ok ⟨.toAscii, input, output.head?, dumpTokens⟩
  | _, true, true => .error (.misuse "the argument '--a2u' cannot be used with '--u2a'")
  | _, _, _ => .error (.misuse "the required arguments were not provided")

def read (arguments : List Text) : Except Stop Options :=
  (readAll {} arguments).bind Arguments.options

def version : String := "unicasc 0.1.0\n"

def usage : String := "Usage: unicasc [OPTIONS] <--a2u|--u2a> <input> [output]\n"

def help : String :=
  "Converts TLA+ specifications between ASCII and Unicode notation\n\n" ++ usage ++
  "\nArguments:\n" ++
  "  <input>   Specification to convert\n" ++
  "  [output]  Where to write the result (standard output if omitted)\n" ++
  "\nOptions:\n" ++
  "      --a2u          Convert ASCII symbols to Unicode\n" ++
  "      --u2a          Convert Unicode symbols to ASCII\n" ++
  "      --debug        Log realigned and deferred comments\n" ++
  "      --dump-tokens  Print the aligned token grid as JSON instead of converting\n" ++
  "  -h, --help         Print help\n" ++
  "  -V, --version      Print version\n"

-- How the program ends.
structure Report where
  exitCode : Nat
  stderr : String := ""
deriving DecidableEq

def failure (message : String) : Report := ⟨1, s!"unicasc: {message}\n"⟩

def execute {m : Type → Type} [Monad m] [Host m] (arguments : List Text) : m Report := do
  match read arguments with
  | .error .help => Host.print help.toUTF8; return ⟨0, ""⟩
  | .error .version => Host.print version.toUTF8; return ⟨0, ""⟩
  | .error (.misuse reason) => return ⟨2, s!"error: {reason}\n\n{usage}"⟩
  | .ok options =>
    match options.check (← Host.currentDirectory) with
    | .error error => return failure error.message
    | .ok options =>
      match ← options.run with
      | .error error => return failure error.message
      | .ok () => return ⟨0, ""⟩

end TlaGlyph.CommandLine
