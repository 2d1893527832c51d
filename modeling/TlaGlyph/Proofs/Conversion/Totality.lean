import TlaGlyph.Proofs.Conversion.Run
import TlaGlyph.Proofs.Grid.Alternation
import TlaGlyph.Proofs.Line.Sound

namespace TlaGlyph

namespace Grid

variable {direction : Direction}

-- The rows below `above` come from lines that are read one after the other, and what is above them has
-- been written the way the direction allows.
structure Ready (direction : Direction) (depth : Nat) (frames : List Frame) (above rows : Grid) :
    Prop where
  linked : Frame.Linked depth frames
  bare : rows.map Row.bare = frames.map Frame.row
  fresh : ∀ row ∈ rows, row.Fresh
  anchored : Anchored above rows
  sound : ∀ row ∈ above, row.Sound direction

theorem ready_parse (direction : Direction) (source : Text) :
    Ready direction 0 (frames source) [] (parse source) where
  linked := linked_frames source
  bare := bare_parse source
  fresh := fresh_parse source
  anchored := anchored_parse source
  sound := by simp

theorem Ready.step {depth : Nat} {frame : Frame} {frames : List Frame} {above rest : Grid}
    {row written : Row} {line : Text}
    (h : Ready direction depth (frame :: frames) above (row :: rest))
    (hconverted : row.Converted above direction written line) :
    Ready direction (frame.left depth) frames (above ++ [written]) rest := by
  obtain ⟨hrow, hrest⟩ := List.cons.inj h.bare
  have hmeasured : row.Measured 0 := by
    rw [← Row.measured_bare, hrow]
    exact frame.measured_row
  have hguided := Row.guided_of_sound h.anchored.1 h.sound
  have hsound := hconverted.sound hmeasured hguided (h.fresh row (by simp))
  refine ⟨(Frame.checkComments_row h.linked 0).2, hrest, ?_, ?_, ?_⟩
  · exact fun other hother => h.fresh other (List.mem_cons_of_mem _ hother)
  · apply h.anchored.2.congr
    rw [List.map_append, List.map_append, List.map_singleton, List.map_singleton,
      Row.bare_of_unwritten hconverted.unwritten_eq]
  · intro other hother
    rcases List.mem_append.mp hother with hother | hother
    · exact h.sound other hother
    · rwa [List.mem_singleton.mp hother]

theorem Ready.putRows_error {depth : Nat} {frames : List Frame} {above rows : Grid}
    (h : Ready direction depth frames above rows) {memory : Memory} (hopen : memory.closed = false)
    {e : ConversionError}
    (herror : (putRows Memory.sink direction above (decide (0 < depth)) memory rows).result =
      .error e) :
    direction = .toAscii ∧ ∃ position context, e = .asciiRealign position context := by
  induction rows generalizing depth frames above memory with
  | nil => cases herror
  | cons row rest ih =>
      cases frames with
      | nil => cases h.bare
      | cons frame frames =>
      obtain ⟨hrow, -⟩ := List.cons.inj h.bare
      have hcheck : row.checkComments above.length 0 (decide (0 < depth)) =
          .ok (decide (0 < frame.left depth)) := by
        rw [← Row.checkComments_bare, hrow]
        exact (Frame.checkComments_row h.linked above.length).1
      cases hconvert : row.convert direction above with
      | mk written result =>
      cases result with
      | error failure =>
          have hmeasured : row.Measured 0 := by
            rw [← Row.measured_bare, hrow]
            exact frame.measured_row
          simp only [putRows, hcheck, hconvert, Except.error.injEq] at herror
          rw [← herror]
          exact Row.convert_error hmeasured (Row.guided_of_sound h.anchored.1 h.sound) hconvert
      | ok line =>
          have hput : Memory.sink.put line memory =
              (.ok (), { memory with lines := memory.lines ++ [line] }) := by
            simp [Memory.sink, hopen]
          simp only [putRows, hcheck, hconvert, hput] at herror
          have hstill : { memory with lines := memory.lines ++ [line] }.closed = false := hopen
          exact ih (h.step (Row.converted_of_convert hconvert)) hstill herror

-- A sink in memory takes every line, so that a conversion fails only at a row.
theorem result_putRows_of_convert {grid : Grid} {e : ConversionError}
    (h : grid.convert direction = .error e) :
    (putRows Memory.sink direction [] false {} grid).result = .error e := by
  cases hresult : (putRows Memory.sink direction [] false {} grid).result with
  | ok _ =>
      have hclose (memory : Memory) :
          Memory.sink.close memory = (.ok (), { memory with closed := true }) := rfl
      simp only [convert, putAll, hresult, hclose, Except.bind, Except.map, Except.mapError] at h
      cases h
  | error failure =>
      simp only [convert, putAll, hresult, Except.bind, Except.map, Except.error.injEq] at h
      rw [h]

theorem convert_parse (direction : Direction) (source : Text) :
    (∃ lines, (parse source).convert direction = .ok lines ∧
      lines.length = (Text.lines source).length) ∨
    (direction = .toAscii ∧ ∃ position context,
      (parse source).convert direction = .error (.asciiRealign position context)) := by
  cases hconvert : (parse source).convert direction with
  | ok lines =>
      obtain ⟨-, hruns⟩ := runs_of_convert hconvert
      refine .inl ⟨lines, rfl, ?_⟩
      rw [hruns.length_lines, ← line_frames, List.length_map]
      simpa using congrArg List.length (bare_parse source)
  | error e =>
      have herror : (putRows Memory.sink direction [] (decide (0 < 0)) {} (parse source)).result =
          .error e := result_putRows_of_convert hconvert
      obtain ⟨hdirection, position, context, rfl⟩ :=
        (ready_parse direction source).putRows_error rfl herror
      exact .inr ⟨hdirection, position, context, rfl⟩

end Grid

namespace Text

-- No source makes the writer report tokens that do not fit together.
theorem convertLines_total (source : Text) :
    (∃ lines, convertLines .toUnicode source = .ok lines ∧
      lines.length = (Text.lines source).length) ∧
    ((∃ lines, convertLines .toAscii source = .ok lines ∧
        lines.length = (Text.lines source).length) ∨
      ∃ position context,
        convertLines .toAscii source = .error (.asciiRealign position context)) := by
  constructor
  · rcases Grid.convert_parse .toUnicode source with hlines | ⟨hdirection, -⟩
    · exact hlines
    · cases hdirection
  · exact (Grid.convert_parse .toAscii source).imp_right And.right

end Text

end TlaGlyph
