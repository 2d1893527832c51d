import TlaGlyph.Text.Basic

namespace TlaGlyph

-- A sink with a state of type `σ` takes lines one by one and is closed at the end. A failure is told in
-- the words of whatever failed.
structure Sink (σ : Type) where
  put : Text → σ → Except String Unit × σ
  close : σ → Except String Unit × σ

structure Memory where
  lines : List Text := []
  closed : Bool := false
deriving DecidableEq

namespace Memory

-- Keeps the lines.
def sink : Sink Memory where
  put line memory :=
    if memory.closed then (.error "sink is already closed", memory)
    else (.ok (), { memory with lines := memory.lines ++ [line] })
  close memory := (.ok (), { memory with closed := true })

end Memory

structure Writer where
  name : String
  lines : List Text := []
  closed : Bool := false
deriving DecidableEq

namespace Writer

-- Writes every line with a newline behind it.
def sink : Sink Writer where
  put line writer :=
    if writer.closed then (.error s!"{writer.name} is already closed", writer)
    else (.ok (), { writer with lines := writer.lines ++ [line] })
  close writer := (.ok (), { writer with closed := true })

def written (writer : Writer) : Text := Text.unlines writer.lines

-- What is sure to have left the writer. It may hold lines back until it is closed.
def flushed (writer : Writer) : Text := if writer.closed then writer.written else []

end Writer

end TlaGlyph
