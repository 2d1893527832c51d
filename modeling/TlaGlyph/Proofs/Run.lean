import TlaGlyph.Run
import TlaGlyph.Proofs.Conversion.Streaming
import TlaGlyph.Proofs.FileSystem

namespace TlaGlyph

namespace Grid

-- What is written of a grid and what came of it: all of its lines, or those above the row that the
-- error is about.
inductive Written (direction : Direction) (grid : Grid) : Text × Except ConversionError Unit → Prop
  | complete {lines : List Text} (h : grid.convert direction = .ok lines) :
      Written direction grid (Text.unlines lines, .ok ())
  | failed {e : ConversionError} {position : Position} {lines : List Text}
      (h : grid.convert direction = .error e) (hposition : e.position? = some position)
      (hlength : lines.length = position.line)
      (habove : Grid.convert direction (grid.take position.line) = .ok lines) :
      Written direction grid (Text.unlines lines, .error e)

-- The writer refuses no line before it is closed, and closing it does not fail.
theorem written_write (direction : Direction) (name : String) (grid : Grid) :
    Written direction grid (grid.write direction name) := by
  obtain ⟨done, isOpen, taken, reached, hstreamed⟩ := exists_streamed Writer.sink direction { name } grid
  obtain rfl := (Sink.takes_writer name taken).eq hstreamed.takes
  have hlines := hstreamed.lines taken.length le_rfl
  rw [List.take_length] at hlines
  have hended := hstreamed.ended
  simp only [write, putAll]
  generalize putRows Writer.sink direction [] false { name } grid = outcome at hended ⊢
  obtain ⟨left, state, result⟩ := outcome
  cases hended with
  | complete _ hgrid => exact .complete hgrid
  | failed _ _ hgrid _ hposition hline _ =>
      rw [← hline] at hlines
      exact .failed hgrid hposition hline.symm hlines
  | refused _ _ _ hput => cases hput

end Grid

namespace Options

-- A run on a world that is a value.
def runOn (options : Options) (world : World) : Except RunError Unit × World :=
  (options.run : StateM World (Except RunError Unit)) world

-- The text of the input, if there is such a file and it holds a text.
def source? (options : Options) (world : World) : Option Text :=
  match world.files.read options.input with
  | .error _ => none
  | .ok bytes => Text.decode? bytes

-- The text is on the output, behind what was there before if that is standard output, and nothing
-- else is different.
def Wrote (options : Options) (world after : World) (text : Text) : Prop :=
  match options.output with
  | none => after = { world with stdout := world.stdout ++ Text.encode text }
  | some path =>
    after.stdout = world.stdout ∧ world.files.Holds after.files path (Text.encode text)

-- The output is no file, or one that can be created.
def Creatable (options : Options) (world : World) : Prop :=
  ∀ path, options.output = some path → ∃ location, world.files.place path = .ok location

section Run

variable {options : Options} {world : World} {source : Text}

theorem exists_of_source? (h : options.source? world = some source) :
    ∃ bytes, world.files.read options.input = .ok bytes ∧ Text.decode? bytes = some source := by
  rw [source?] at h
  split at h
  · cases h
  · next bytes hread => exact ⟨bytes, hread, h⟩

-- A run without a text to convert ends before it touches anything.
theorem exists_runOn_of_source?_none (h : options.source? world = none) :
    ∃ cause, options.runOn world = (.error (.read options.input cause), world) := by
  rw [source?] at h
  split at h
  · next cause hread =>
    refine ⟨cause, ?_⟩
    simp only [runOn, run, Host.read, bind, StateT.bind, hread]
    rfl
  · next bytes hread =>
    refine ⟨.notUtf8, ?_⟩
    simp only [runOn, run, Host.read, bind, StateT.bind, hread, h]
    rfl

theorem runOn_of_dumpTokens (h : options.source? world = some source)
    (hdump : options.dumpTokens = true) :
    options.runOn world = (.ok (), { world with
      stdout := world.stdout ++ Text.encode ((Grid.parse source).dump.toList ++ ['\n']) }) := by
  obtain ⟨bytes, hread, hdecode⟩ := exists_of_source? h
  simp only [runOn, run, Host.read, bind, StateT.bind, hread, hdecode, hdump]
  rfl

theorem exists_runOn (h : options.source? world = some source) (hdump : options.dumpTokens = false)
    (hcreatable : options.Creatable world) {text : Text} {result : Except ConversionError Unit}
    (hwrite : (Grid.parse source).write options.direction options.outputName = (text, result)) :
    ∃ after, options.runOn world = (result.mapError .conversion, after) ∧
      options.Wrote world after text := by
  obtain ⟨bytes, hread, hdecode⟩ := exists_of_source? h
  simp only [runOn, run, Host.read, bind, StateT.bind, hread, hdecode, hdump, hwrite]
  cases houtput : options.output with
  | none => exact ⟨_, rfl, by rw [Wrote, houtput]⟩
  | some path =>
      obtain ⟨location, hplace⟩ := hcreatable path houtput
      obtain ⟨files, hsave, hholds⟩ := FileSystem.exists_of_save (Text.encode text) hplace
      refine ⟨{ world with files }, ?_, ?_⟩
      · simp only [Host.save, StateT.bind, hsave, Bool.false_eq_true, if_false]
        rfl
      · rw [Wrote, houtput]
        exact ⟨rfl, hholds⟩

end Run

-- A run that converts writes what converting the text gives. If that fails the run fails with the same
-- error, and the lines above the row that the error is about are written. Any other run leaves the
-- files as they are.
theorem run_agrees (options : Options) (world : World) :
    (∀ source, options.source? world = some source → options.dumpTokens = false →
      options.Creatable world →
      match Text.convert options.direction source with
      | .ok text => ∃ after, options.runOn world = (.ok (), after) ∧ options.Wrote world after text
      | .error e => ∃ after position lines,
          options.runOn world = (.error (.conversion e), after) ∧ e.position? = some position ∧
          lines.length = position.line ∧
          Grid.convert options.direction ((Grid.parse source).take position.line) = .ok lines ∧
          options.Wrote world after (Text.unlines lines)) ∧
    (options.source? world = none ∨ options.dumpTokens = true →
      (options.runOn world).2.files = world.files) := by
  constructor
  · intro source h hdump hcreatable
    have hwritten := Grid.written_write options.direction options.outputName (Grid.parse source)
    generalize hwrite : (Grid.parse source).write options.direction options.outputName = written
      at hwritten
    cases hwritten with
    | complete hgrid =>
        obtain ⟨after, hrun, hwrote⟩ := exists_runOn h hdump hcreatable hwrite
        simp only [Text.convert, Text.convertLines, hgrid]
        exact ⟨after, hrun, hwrote⟩
    | @failed e position lines hgrid hposition hlength habove =>
        obtain ⟨after, hrun, hwrote⟩ := exists_runOn h hdump hcreatable hwrite
        simp only [Text.convert, Text.convertLines, hgrid]
        exact ⟨after, position, lines, hrun, hposition, hlength, habove, hwrote⟩
  · intro h
    cases hsource : options.source? world with
    | none =>
        obtain ⟨cause, hrun⟩ := exists_runOn_of_source?_none hsource
        rw [hrun]
    | some source =>
        have hdump : options.dumpTokens = true := h.resolve_left (by simp [hsource])
        rw [runOn_of_dumpTokens hsource hdump]

-- The third line of the file cannot be converted.
def halfway : Options where
  direction := .toAscii
  input := "in".toList
  output := some "out".toList

def halfwayWorld : World where
  files := (FileSystem.empty []).addFile ["in".toList]
    (Text.encode "       y\n∈ a    y\n  (**) y".toList)

theorem run_agrees_of_halfway :
    ∃ after e, halfway.runOn halfwayWorld = (.error (.conversion e), after) ∧
      after.files.read "out".toList = .ok (Text.encode "       y\n\\in a  y\n".toList) := by
  have hsource : halfway.source? halfwayWorld =
      some "       y\n∈ a    y\n  (**) y".toList := by
    have hread : halfwayWorld.files.read halfway.input =
        .ok (Text.encode "       y\n∈ a    y\n  (**) y".toList) := rfl
    rw [source?, hread]
    exact Text.decode?_encode _
  have hcreatable : halfway.Creatable halfwayWorld := by
    intro path hpath
    obtain rfl := Option.some.inj hpath
    exact ⟨["out".toList], rfl⟩
  have hagrees := (run_agrees halfway halfwayWorld).1 _ hsource rfl hcreatable
  have hconvert : Text.convert halfway.direction "       y\n∈ a    y\n  (**) y".toList =
      .error (.asciiRealign ⟨2, 1⟩ "Ident \"y\" at column 7") := by decide +kernel
  rw [hconvert] at hagrees
  obtain ⟨after, position, lines, hrun, hposition, -, habove, -, hholds⟩ := hagrees
  obtain rfl := Option.some.inj hposition
  have hlines : Grid.convert halfway.direction
      (((Grid.parse "       y\n∈ a    y\n  (**) y".toList)).take 2) =
        .ok ["       y".toList, "\\in a  y".toList] := by decide +kernel
  obtain rfl := Except.ok.inj (hlines.symm.trans habove)
  exact ⟨after, _, hrun, hholds.read⟩

end Options

end TlaGlyph
