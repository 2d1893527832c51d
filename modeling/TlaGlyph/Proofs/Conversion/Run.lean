import TlaGlyph.Conversion
import TlaGlyph.Proofs.Line.Writing

namespace TlaGlyph

namespace Sink

variable {σ : Type}

-- The state of a sink that has been handed the lines.
def feed (sink : Sink σ) (lines : List Text) (state : σ) : σ :=
  lines.foldl (fun state line => (sink.put line state).2) state

theorem feed_memory (lines : List Text) (memory : Memory) (hopen : memory.closed = false) :
    Memory.sink.feed lines memory = { memory with lines := memory.lines ++ lines } := by
  induction lines generalizing memory with
  | nil => simp [feed]
  | cons line lines ih =>
    have hput : (Memory.sink.put line memory).2 =
        { memory with lines := memory.lines ++ [line] } := by
      simp [Memory.sink, hopen]
    change Memory.sink.feed lines (Memory.sink.put line memory).2 = _
    rw [hput]
    exact (ih { memory with lines := memory.lines ++ [line] } hopen).trans (by simp)

end Sink

namespace Grid

-- The rows below `above` were converted one after the other to the rows and the lines given.
inductive Runs (direction : Direction) : Grid → Grid → Grid → List Text → Prop
  | nil (above : Grid) : Runs direction above [] [] []
  | cons {above rest after : Grid} {row written : Row} {line : Text} {lines : List Text}
      (hrow : row.Converted above direction written line)
      (hrest : Runs direction (above ++ [written]) rest after lines) :
      Runs direction above (row :: rest) (written :: after) (line :: lines)

variable {σ : Type} {sink : Sink σ} {direction : Direction}

-- What becomes of a run at its first row. It ends there if the comments on the row do not fit, if the
-- row cannot be converted or if the sink does not take its line, and goes on below it otherwise.
inductive Advanced (sink : Sink σ) (direction : Direction) (above : Grid) (isOpen : Bool) (state : σ)
    (row : Row) (rest : Grid) : Outcome σ → Prop
  | malformed {e : ConversionError} (hcheck : row.checkComments above.length 0 isOpen = .error e) :
      Advanced sink direction above isOpen state row rest ⟨row :: rest, state, .error e⟩
  | failed {isNext : Bool} {left : Row} {e : ConversionError}
      (hcheck : row.checkComments above.length 0 isOpen = .ok isNext)
      (hconvert : row.convert direction above = (left, .error e)) :
      Advanced sink direction above isOpen state row rest ⟨left :: rest, state, .error e⟩
  | refused {isNext : Bool} {written : Row} {line : Text} {cause : String} {next : σ}
      (hcheck : row.checkComments above.length 0 isOpen = .ok isNext)
      (hconvert : row.convert direction above = (written, .ok line))
      (hput : sink.put line state = (.error cause, next)) :
      Advanced sink direction above isOpen state row rest ⟨written :: rest, next, .error (.io cause)⟩
  | passed {isNext : Bool} {written : Row} {line : Text} {next : σ} {tail : Outcome σ}
      (hcheck : row.checkComments above.length 0 isOpen = .ok isNext)
      (hconvert : row.convert direction above = (written, .ok line))
      (hput : sink.put line state = (.ok (), next))
      (htail : tail = putRows sink direction (above ++ [written]) isNext next rest) :
      Advanced sink direction above isOpen state row rest
        { tail with grid := written :: tail.grid }

theorem advanced_putRows (sink : Sink σ) (direction : Direction) (above : Grid) (isOpen : Bool)
    (state : σ) (row : Row) (rest : Grid) :
    Advanced sink direction above isOpen state row rest
      (putRows sink direction above isOpen state (row :: rest)) := by
  cases hcheck : row.checkComments above.length 0 isOpen with
  | error e =>
      simp only [putRows, hcheck]
      exact .malformed hcheck
  | ok isNext =>
      cases hconvert : row.convert direction above with
      | mk written result =>
      cases result with
      | error e =>
          simp only [putRows, hcheck, hconvert]
          exact .failed hcheck hconvert
      | ok line =>
          cases hput : sink.put line state with
          | mk handed next =>
          cases handed with
          | error cause =>
              simp only [putRows, hcheck, hconvert, hput]
              exact .refused hcheck hconvert hput
          | ok =>
              simp only [putRows, hcheck, hconvert, hput]
              exact .passed hcheck hconvert hput rfl

theorem runs_of_putRows {above rows : Grid} {isOpen : Bool} {state : σ}
    (h : (putRows sink direction above isOpen state rows).result = .ok ()) :
    ∃ lines, Runs direction above rows (putRows sink direction above isOpen state rows).grid lines ∧
      (putRows sink direction above isOpen state rows).sink = sink.feed lines state := by
  induction rows generalizing above isOpen state with
  | nil => exact ⟨[], .nil above, rfl⟩
  | cons row rest ih =>
      have hadvanced := advanced_putRows sink direction above isOpen state row rest
      generalize putRows sink direction above isOpen state (row :: rest) = outcome at *
      cases hadvanced with
      | malformed | failed | refused => cases h
      | @passed isNext written line next tail hcheck hconvert hput htail =>
          subst htail
          obtain ⟨lines, hruns, hfed⟩ := ih h
          refine ⟨line :: lines, .cons (Row.converted_of_convert hconvert) hruns, ?_⟩
          simp only [hfed, Sink.feed, List.foldl_cons, hput]

-- In a run that comes to its end every row is converted, below all rows as they were left.
theorem convert_of_putRows {above rows : Grid} {isOpen : Bool} {state : σ} {item : Nat}
    {row written : Row} (h : (putRows sink direction above isOpen state rows).result = .ok ())
    (hrow : rows[item]? = some row)
    (hwritten : (putRows sink direction above isOpen state rows).grid[item]? = some written) :
    ∃ line, row.convert direction
      (above ++ (putRows sink direction above isOpen state rows).grid.take item) =
        (written, .ok line) := by
  induction rows generalizing above isOpen state item with
  | nil => simp at hrow
  | cons first rest ih =>
      have hadvanced := advanced_putRows sink direction above isOpen state first rest
      generalize putRows sink direction above isOpen state (first :: rest) = outcome at *
      cases hadvanced with
      | malformed | failed | refused => cases h
      | @passed isNext done line next tail hcheck hconvert hput htail =>
          cases item with
          | zero =>
              obtain rfl : first = row := by simpa using hrow
              obtain rfl : done = written := by simpa using hwritten
              exact ⟨line, by simpa using hconvert⟩
          | succ item =>
              subst htail
              obtain ⟨line, hline⟩ := ih h (by simpa using hrow) (by simpa using hwritten)
              exact ⟨line, by simpa using hline⟩

-- The rows in front of the one that a run ended at were converted.
theorem exists_of_putRows_error {above rows : Grid} {isOpen : Bool} {state : σ}
    {e : ConversionError}
    (h : (putRows sink direction above isOpen state rows).result = .error e) :
    ∃ front row rest done left lines, rows = front ++ row :: rest ∧
      Runs direction above front done lines ∧
      (putRows sink direction above isOpen state rows).grid = done ++ left :: rest ∧
      ((∃ line isOpen, row.checkComments line 0 isOpen = .error e) ∨
        row.convert direction (above ++ done) = (left, .error e) ∨ ∃ cause, e = .io cause) := by
  induction rows generalizing above isOpen state with
  | nil => cases h
  | cons first rest ih =>
      have hadvanced := advanced_putRows sink direction above isOpen state first rest
      generalize putRows sink direction above isOpen state (first :: rest) = outcome at *
      cases hadvanced with
      | malformed hcheck =>
          obtain rfl := Except.error.inj h
          exact ⟨[], first, rest, [], first, [], rfl, .nil _, rfl, .inl ⟨_, _, hcheck⟩⟩
      | @failed isNext left _ hcheck hconvert =>
          obtain rfl := Except.error.inj h
          exact ⟨[], first, rest, [], left, [], rfl, .nil _, rfl,
            .inr (.inl (by rwa [List.append_nil]))⟩
      | @refused isNext written line cause next hcheck hconvert hput =>
          exact ⟨[], first, rest, [], written, [], rfl, .nil _, rfl,
            .inr (.inr ⟨cause, (Except.error.inj h).symm⟩)⟩
      | @passed isNext written line next tail hcheck hconvert hput htail =>
          subst htail
          obtain ⟨front, row, after, done, left, lines, rfl, hruns, hgrid, hcause⟩ := ih h
          refine ⟨first :: front, row, after, written :: done, left, line :: lines, rfl,
            .cons (Row.converted_of_convert hconvert) hruns, congrArg (written :: ·) hgrid, ?_⟩
          simpa using hcause

-- Closing the sink mends nothing.
theorem result_putRows {state : σ} {grid : Grid}
    (h : (putAll sink direction state grid).result = .ok ()) :
    (putRows sink direction [] false state grid).result = .ok () := by
  cases hresult : (putRows sink direction [] false state grid).result with
  | error e => simp [putAll, hresult, Except.bind] at h
  | ok => rfl

-- One line for each row, and every row converted below the ones that were converted before it.
theorem runs_of_putAll {state : σ} {grid : Grid}
    (h : (putAll sink direction state grid).result = .ok ()) :
    ∃ lines, Runs direction [] grid (putAll sink direction state grid).grid lines ∧
      (putAll sink direction state grid).sink = (sink.close (sink.feed lines state)).2 := by
  obtain ⟨lines, hruns, hfed⟩ := runs_of_putRows (result_putRows h)
  exact ⟨lines, hruns, by simp [putAll, hfed]⟩

namespace Runs

variable {above rows after : Grid} {lines : List Text}

theorem length_after (h : Runs direction above rows after lines) : after.length = rows.length := by
  induction h with
  | nil => rfl
  | cons _ _ ih => simp [ih]

theorem length_lines (h : Runs direction above rows after lines) : lines.length = rows.length := by
  induction h with
  | nil => rfl
  | cons _ _ ih => simp [ih]

-- Every row was converted below all that were there before it.
theorem converted (h : Runs direction above rows after lines) {item : Nat} {row written : Row}
    {line : Text} (hrow : rows[item]? = some row) (hwritten : after[item]? = some written)
    (hline : lines[item]? = some line) :
    row.Converted (above ++ after.take item) direction written line := by
  induction h generalizing item with
  | nil => simp at hrow
  | @cons above rest after head written' line' lines' hhead hrest ih =>
      cases item with
      | zero =>
          simp only [List.getElem?_cons_zero, Option.some.injEq] at hrow hwritten hline
          subst hrow hwritten hline
          simpa using hhead
      | succ item =>
          simp only [List.getElem?_cons_succ] at hrow hwritten hline
          simpa using ih hrow hwritten hline

end Runs

-- The lines that a grid converts to.
theorem runs_of_convert {grid : Grid} {lines : List Text}
    (h : grid.convert direction = .ok lines) :
    (putAll Memory.sink direction {} grid).result = .ok () ∧
      Runs direction [] grid (putAll Memory.sink direction {} grid).grid lines := by
  have hresult : (putAll Memory.sink direction {} grid).result = .ok () := by
    cases hresult : (putAll Memory.sink direction {} grid).result with
    | error e => simp [convert, hresult, Except.map] at h
    | ok => rfl
  obtain ⟨fed, hruns, hsink⟩ := runs_of_putAll hresult
  have hlines : lines = fed := by
    simp only [convert, hresult, Except.map, Except.ok.injEq, hsink] at h
    rw [Sink.feed_memory _ _ rfl] at h
    simpa [Memory.sink] using h.symm
  exact ⟨hresult, hlines ▸ hruns⟩

end Grid

namespace Text

-- The tokens of a source as its conversion leaves them.
def written (direction : Direction) (source : Text) : Grid :=
  ((Grid.parse source).putAll Memory.sink direction {}).grid

theorem runs_of_convertLines {direction : Direction} {source : Text} {lines : List Text}
    (h : convertLines direction source = .ok lines) :
    Grid.Runs direction [] (Grid.parse source) (written direction source) lines :=
  (Grid.runs_of_convert h).2

end Text

end TlaGlyph
