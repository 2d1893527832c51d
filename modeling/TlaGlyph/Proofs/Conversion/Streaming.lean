import Mathlib.Data.List.Basic
import TlaGlyph.Proofs.Conversion.Run
import TlaGlyph.Proofs.Grid.Alternation
import TlaGlyph.Proofs.Line.Landing

namespace TlaGlyph

variable {σ : Type}

namespace Sink

-- The sink takes all of the lines, one after the other.
inductive Takes (sink : Sink σ) : List Text → σ → σ → Prop
  | nil (state : σ) : Takes sink [] state state
  | cons {line : Text} {lines : List Text} {state next last : σ}
      (hput : sink.put line state = (.ok (), next)) (hrest : Takes sink lines next last) :
      Takes sink (line :: lines) state last

-- A sink that takes any line takes any number of them.
theorem takes_of_put {sink : Sink σ} (held : List Text → σ)
    (hput : ∀ front line, sink.put line (held front) = (.ok (), held (front ++ [line])))
    (front lines : List Text) : sink.Takes lines (held front) (held (front ++ lines)) := by
  induction lines generalizing front with
  | nil => simpa using Takes.nil (held front)
  | cons line lines ih =>
      have hrest := ih (front ++ [line])
      rw [← List.append_cons] at hrest
      exact .cons (hput front line) hrest

theorem takes_memory (lines : List Text) : Memory.sink.Takes lines {} { lines } :=
  takes_of_put (fun lines => ({ lines } : Memory)) (fun _ _ => rfl) [] lines

theorem takes_writer (name : String) (lines : List Text) :
    Writer.sink.Takes lines { name } { name, lines } :=
  takes_of_put (fun lines => ({ name, lines } : Writer)) (fun _ _ => rfl) [] lines

-- What a sink comes to depends on the lines alone.
theorem Takes.eq {sink : Sink σ} {lines : List Text} {state first last : σ}
    (h : sink.Takes lines state first) (hlast : sink.Takes lines state last) : first = last := by
  induction h with
  | nil => cases hlast; rfl
  | cons hput _ ih =>
      cases hlast with
      | cons hnext hrest =>
          rw [hput] at hnext
          obtain rfl := (Prod.mk.inj hnext).2
          exact ih hrest

end Sink

namespace Row

-- The pieces of comments on the row follow from what is open above it, and the row is converted.
structure Passes (direction : Direction) (above : Grid) (isOpen : Bool) (row written : Row)
    (line : Text) (isNext : Bool) : Prop where
  check : row.checkComments above.length 0 isOpen = .ok isNext
  convert : row.convert direction above = (written, .ok line)

-- The row ends the run, and is left as `left`.
inductive Fails (direction : Direction) (above : Grid) (isOpen : Bool) (row : Row) :
    Row → ConversionError → Prop
  | malformed {e : ConversionError} (hcheck : row.checkComments above.length 0 isOpen = .error e) :
      Fails direction above isOpen row row e
  | failed {isNext : Bool} {left : Row} {e : ConversionError}
      (hcheck : row.checkComments above.length 0 isOpen = .ok isNext)
      (hconvert : row.convert direction above = (left, .error e)) :
      Fails direction above isOpen row left e

theorem unwritten_unplace (deferral : Deferral) (row : Row) :
    (deferral.unplace row).map Token.unwritten = row.map Token.unwritten := by
  apply List.ext_getElem?
  intro item
  rw [List.getElem?_map, List.getElem?_map, Deferral.unplace, List.getElem?_mapIdx, Option.map_map]
  apply Option.map_congr
  intro token _
  simp only [Function.comp_apply]
  split <;> rfl

variable {direction : Direction} {above : Grid} {isOpen : Bool} {row left : Row} {e : ConversionError}

-- A row that cannot be converted is written up to the token that the error is about.
theorem exists_of_convert_error (h : row.convert direction above = (left, .error e)) :
    (∃ item, item < row.length ∧ e.position? = some ⟨above.length, item⟩) ∧
      (∀ position reason, e ≠ .malformedComment position reason) ∧
      left.map Token.unwritten = row.map Token.unwritten := by
  obtain ⟨all, final, hall, hleft⟩ := exists_writeAll_of_convert_error h
  obtain ⟨front, token, rest, head, rfl, rfl, hreached, hwrite⟩ :=
    Draft.exists_of_writeAll_error hall
  have hsame : (head ++ token :: rest).map Token.unwritten =
      (front ++ token :: rest).map Token.unwritten := by
    rw [List.map_append, List.map_append, hreached.unwritten_eq]
  refine ⟨⟨front.length, ?_, ?_⟩, fun position reason => Draft.ne_malformed_of_write hwrite, ?_⟩
  · rw [List.length_append, List.length_cons]
    omega
  · rw [Draft.position?_of_write hwrite, Nat.zero_add]
  · rw [← hleft, ← hsame]
    split
    · exact unwritten_unplace _ _
    · rfl

theorem Fails.exists_position (h : row.Fails direction above isOpen left e) :
    ∃ item, item < row.length ∧ e.position? = some ⟨above.length, item⟩ := by
  cases h with
  | malformed hcheck =>
      obtain ⟨item, reason, hlt, rfl⟩ := checkComments_error hcheck
      exact ⟨item, hlt, by rw [Nat.zero_add]; rfl⟩
  | failed _ hconvert => exact (exists_of_convert_error hconvert).1

theorem Fails.unwritten_eq (h : row.Fails direction above isOpen left e) :
    left.map Token.unwritten = row.map Token.unwritten := by
  cases h with
  | malformed _ => rfl
  | failed _ hconvert => exact (exists_of_convert_error hconvert).2.2

-- The check changes nothing.
theorem Fails.eq_of_malformed {position : Position} {reason : String}
    (h : row.Fails direction above isOpen left (.malformedComment position reason)) : left = row := by
  cases h with
  | malformed _ => rfl
  | failed _ hconvert => exact absurd rfl ((exists_of_convert_error hconvert).2.1 position reason)

end Row

namespace Grid

-- The rows below `above` pass one after the other, are left as `done` and give the lines.
inductive Passes (direction : Direction) : Grid → Bool → Grid → Grid → List Text → Bool → Prop
  | nil (above : Grid) (isOpen : Bool) : Passes direction above isOpen [] [] [] isOpen
  | cons {above rest done : Grid} {isOpen isNext isLast : Bool} {row written : Row} {line : Text}
      {lines : List Text} (hrow : row.Passes direction above isOpen written line isNext)
      (hrest : Passes direction (above ++ [written]) isNext rest done lines isLast) :
      Passes direction above isOpen (row :: rest) (written :: done) (line :: lines) isLast

variable {sink : Sink σ} {direction : Direction}

namespace Passes

variable {above rows done : Grid} {isOpen isNext : Bool} {lines : List Text}

theorem length_done (h : Passes direction above isOpen rows done lines isNext) :
    done.length = rows.length := by
  induction h with
  | nil => rfl
  | cons _ _ ih => rw [List.length_cons, List.length_cons, ih]

theorem length_lines (h : Passes direction above isOpen rows done lines isNext) :
    lines.length = rows.length := by
  induction h with
  | nil => rfl
  | cons _ _ ih => rw [List.length_cons, List.length_cons, ih]

theorem unwritten_eq (h : Passes direction above isOpen rows done lines isNext) :
    done.map (·.map Token.unwritten) = rows.map (·.map Token.unwritten) := by
  induction h with
  | nil => rfl
  | cons hrow _ ih =>
      rw [List.map_cons, List.map_cons, ih, (Row.converted_of_convert hrow.convert).unwritten_eq]

theorem concat {row written : Row} {line : Text} {isLast : Bool}
    (h : Passes direction above isOpen rows done lines isNext)
    (hrow : row.Passes direction (above ++ done) isNext written line isLast) :
    Passes direction above isOpen (rows ++ [row]) (done ++ [written]) (lines ++ [line]) isLast := by
  induction h with
  | nil => exact .cons (by rwa [List.append_nil] at hrow) (.nil _ _)
  | cons hfirst _ ih =>
      rw [List.append_cons] at hrow
      exact .cons hfirst (ih hrow)

theorem take (h : Passes direction above isOpen rows done lines isNext) (count : Nat) :
    ∃ isLast, Passes direction above isOpen (rows.take count) (done.take count) (lines.take count)
      isLast := by
  induction h generalizing count with
  | nil above isOpen => exact ⟨isOpen, by simpa using .nil above isOpen⟩
  | @cons above _ _ isOpen _ _ _ _ _ _ hrow _ ih =>
      cases count with
      | zero => exact ⟨isOpen, .nil above isOpen⟩
      | succ count =>
          obtain ⟨isLast, hrest⟩ := ih count
          exact ⟨isLast, .cons hrow hrest⟩

theorem exists_convert (h : Passes direction above isOpen rows done lines isNext) {index : Nat}
    {row : Row} (hrow : rows[index]? = some row) :
    ∃ other written line, row.convert direction other = (written, .ok line) ∧
      lines[index]? = some line := by
  induction h generalizing index with
  | nil => cases hrow
  | cons hfirst _ ih =>
      cases index with
      | zero =>
          obtain rfl := Option.some.inj hrow
          exact ⟨_, _, _, hfirst.convert, rfl⟩
      | succ index => exact ih hrow

-- A run goes through the rows that pass, if the sink takes their lines, and goes on below them.
theorem putRows_append {state reached : σ} (h : Passes direction above isOpen rows done lines isNext)
    (htakes : sink.Takes lines state reached) (rest : Grid) :
    putRows sink direction above isOpen state (rows ++ rest) =
      { putRows sink direction (above ++ done) isNext reached rest with
        grid := done ++ (putRows sink direction (above ++ done) isNext reached rest).grid } := by
  induction h generalizing state with
  | nil =>
      cases htakes
      simp
  | cons hrow _ ih =>
      cases htakes with
      | cons hput htakes =>
          simp only [List.cons_append, putRows, hrow.check, hrow.convert, hput, ih htakes,
            List.append_assoc, List.nil_append]

-- Rows that pass from the first one on are a grid of their own.
theorem convert_eq (h : Passes direction [] false rows done lines isNext) :
    rows.convert direction = .ok lines := by
  have hrun := h.putRows_append (Sink.takes_memory lines) []
  rw [List.append_nil] at hrun
  simp only [convert, putAll, hrun, putRows]
  rfl

-- No line depends on the rows below it.
theorem convert_take (h : Passes direction [] false rows done lines isNext) (rest : Grid)
    {count : Nat} (hcount : count ≤ lines.length) :
    Grid.convert direction ((rows ++ rest).take count) = .ok (lines.take count) := by
  obtain ⟨isLast, htaken⟩ := h.take count
  rw [List.take_append_of_le_length (by rwa [← h.length_lines])]
  exact htaken.convert_eq

end Passes

end Grid

theorem Row.Fails.putRows_eq {direction : Direction} {above : Grid} {isOpen : Bool} {row left : Row}
    {e : ConversionError} (h : row.Fails direction above isOpen left e) (sink : Sink σ) (state : σ)
    (rest : Grid) :
    Grid.putRows sink direction above isOpen state (row :: rest) =
      ⟨left :: rest, state, .error e⟩ := by
  cases h with
  | malformed hcheck => simp only [Grid.putRows, hcheck]
  | failed hcheck hconvert => simp only [Grid.putRows, hcheck, hconvert]

namespace Grid

variable {sink : Sink σ} {direction : Direction}

-- The error of a grid is that of its first row that fails, whatever is below.
theorem Passes.convert_error {rows done : Grid} {isNext : Bool} {lines : List Text} {row left : Row}
    {e : ConversionError} (h : Passes direction [] false rows done lines isNext)
    (hrow : row.Fails direction done isNext left e) (rest : Grid) :
    Grid.convert direction (rows ++ row :: rest) = .error e := by
  have hrun := h.putRows_append (Sink.takes_memory lines) (row :: rest)
  rw [List.nil_append, hrow.putRows_eq] at hrun
  simp only [convert, putAll, hrun]
  rfl

-- How a run ends below rows that have passed.
inductive Stopped (sink : Sink σ) (direction : Direction) (above : Grid) (isOpen : Bool) (state : σ) :
    Grid → Outcome σ → Prop
  | complete : Stopped sink direction above isOpen state [] ⟨[], state, .ok ()⟩
  | failed {row left : Row} {rest : Grid} {e : ConversionError}
      (hrow : row.Fails direction above isOpen left e) :
      Stopped sink direction above isOpen state (row :: rest) ⟨left :: rest, state, .error e⟩
  | refused {row written : Row} {rest : Grid} {line : Text} {isNext : Bool} {cause : String} {next : σ}
      (hrow : row.Passes direction above isOpen written line isNext)
      (hput : sink.put line state = (.error cause, next)) :
      Stopped sink direction above isOpen state (row :: rest)
        ⟨written :: rest, next, .error (.io cause)⟩

theorem Advanced.stopped_or {above rest : Grid} {isOpen : Bool} {state : σ} {row : Row}
    {outcome : Outcome σ} (h : Advanced sink direction above isOpen state row rest outcome) :
    Stopped sink direction above isOpen state (row :: rest) outcome ∨
      ∃ written line isNext next, row.Passes direction above isOpen written line isNext ∧
        sink.put line state = (.ok (), next) ∧
        outcome = { putRows sink direction (above ++ [written]) isNext next rest with
          grid := written :: (putRows sink direction (above ++ [written]) isNext next rest).grid } := by
  cases h with
  | malformed hcheck => exact .inl (.failed (.malformed hcheck))
  | failed hcheck hconvert => exact .inl (.failed (.failed hcheck hconvert))
  | refused hcheck hconvert hput => exact .inl (.refused ⟨hcheck, hconvert⟩ hput)
  | passed hcheck hconvert hput htail =>
      exact .inr ⟨_, _, _, _, ⟨hcheck, hconvert⟩, hput, by rw [htail]⟩

theorem exists_stopped (sink : Sink σ) (direction : Direction) (above : Grid) (isOpen : Bool)
    (state : σ) (rows : Grid) :
    ∃ front rest done lines isNext reached tail, rows = front ++ rest ∧
      Passes direction above isOpen front done lines isNext ∧ sink.Takes lines state reached ∧
      Stopped sink direction (above ++ done) isNext reached rest tail ∧
      putRows sink direction above isOpen state rows = { tail with grid := done ++ tail.grid } := by
  induction rows generalizing above isOpen state with
  | nil =>
      exact ⟨[], [], [], [], isOpen, state, _, rfl, .nil above isOpen, .nil state, .complete, rfl⟩
  | cons row rest ih =>
      have hadvanced := advanced_putRows sink direction above isOpen state row rest
      rcases hadvanced.stopped_or with hstopped | ⟨written, line, isNext, next, hrow, hput, hrun⟩
      · rw [← List.append_nil above] at hstopped
        exact ⟨[], row :: rest, [], [], isOpen, state, _, rfl, .nil above isOpen, .nil state,
          hstopped, by rw [List.append_nil]; rfl⟩
      · obtain ⟨front, behind, done, lines, isLast, reached, tail, rfl, hpasses, htakes, hstopped,
          htail⟩ := ih (above ++ [written]) isNext next
        rw [← List.append_cons] at hstopped
        refine ⟨row :: front, behind, written :: done, line :: lines, isLast, reached, tail, rfl,
          .cons hrow hpasses, .cons hput htakes, hstopped, ?_⟩
        rw [hrun, htail]
        rfl

-- In a conversion that comes to its end every row passes.
theorem exists_passes {grid : Grid} {lines : List Text} (h : grid.convert direction = .ok lines) :
    ∃ done isNext, Passes direction [] false grid done lines isNext := by
  obtain ⟨front, rest, done, taken, isNext, reached, tail, rfl, hpasses, htakes, hstopped, -⟩ :=
    exists_stopped Memory.sink direction [] false {} grid
  obtain rfl := (Sink.takes_memory taken).eq htakes
  cases hstopped with
  | complete =>
      rw [List.append_nil] at h ⊢
      obtain rfl := Except.ok.inj (hpasses.convert_eq.symm.trans h)
      exact ⟨done, isNext, hpasses⟩
  | failed hrow => cases (hpasses.convert_error hrow _).symm.trans h
  | refused _ hput => cases hput

-- Why a sink gets no more lines. It has taken the lines `taken` and has come to the state `reached`,
-- and their rows are left as `done`, with a comment open behind them or not.
inductive Ended (sink : Sink σ) (direction : Direction) (grid done : Grid) (isOpen : Bool)
    (taken : List Text) (reached : σ) : σ → Except ConversionError Unit → Prop
  -- it has the lines of all rows
  | complete (hlength : taken.length = grid.length) (hgrid : grid.convert direction = .ok taken) :
      Ended sink direction grid done isOpen taken reached reached (.ok ())
  -- the next row fails, and the error is about one of its tokens
  | failed {row left : Row} {e : ConversionError} {position : Position}
      (hnext : grid[taken.length]? = some row) (hfails : row.Fails direction done isOpen left e)
      (hgrid : grid.convert direction = .error e)
      (hrow : Grid.convert direction (grid.take (taken.length + 1)) = .error e)
      (hposition : e.position? = some position) (hline : position.line = taken.length)
      (htoken : position ∈ grid.positions) :
      Ended sink direction grid done isOpen taken reached reached (.error e)
  -- the sink does not take the line of the next row
  | refused {row written : Row} {line : Text} {isNext : Bool} {cause : String} {next : σ}
      (hnext : grid[taken.length]? = some row)
      (hpasses : row.Passes direction done isOpen written line isNext)
      (hrow : Grid.convert direction (grid.take (taken.length + 1)) = .ok (taken ++ [line]))
      (hput : sink.put line reached = (.error cause, next)) :
      Ended sink direction grid done isOpen taken reached next (.error (.io cause))

-- What a run has come to when the sink is about to be closed.
structure Streamed (sink : Sink σ) (direction : Direction) (state : σ) (grid done : Grid)
    (isOpen : Bool) (taken : List Text) (reached : σ) (outcome : Outcome σ) : Prop where
  takes : sink.Takes taken state reached
  -- the first line is that of the first row, and so on
  passes : Passes direction [] false (grid.take taken.length) done taken isOpen
  -- no line depends on the rows below it
  lines : ∀ count ≤ taken.length, Grid.convert direction (grid.take count) = .ok (taken.take count)
  ended : Ended sink direction grid done isOpen taken reached outcome.sink outcome.result
  -- nothing but output columns changes, and not below the row that the run ends at
  written : outcome.grid.take taken.length = done
  unwritten : outcome.grid.map (·.map Token.unwritten) = grid.map (·.map Token.unwritten)
  untouched : outcome.grid.drop (taken.length + 1) = grid.drop (taken.length + 1)
  unchecked : ∀ position reason, outcome.result = .error (.malformedComment position reason) →
    outcome.grid.drop taken.length = grid.drop taken.length

namespace Stopped

variable {done rest : Grid} {isOpen : Bool} {state : σ} {tail : Outcome σ}

theorem unwritten_eq (h : Stopped sink direction done isOpen state rest tail) :
    tail.grid.map (·.map Token.unwritten) = rest.map (·.map Token.unwritten) := by
  cases h with
  | complete => rfl
  | failed hrow => rw [List.map_cons, List.map_cons, hrow.unwritten_eq]
  | refused hrow _ =>
      rw [List.map_cons, List.map_cons, (Row.converted_of_convert hrow.convert).unwritten_eq]

theorem drop_one (h : Stopped sink direction done isOpen state rest tail) :
    tail.grid.drop 1 = rest.drop 1 := by
  cases h <;> rfl

theorem eq_of_malformed {position : Position} {reason : String}
    (h : Stopped sink direction done isOpen state rest tail)
    (hresult : tail.result = .error (.malformedComment position reason)) : tail.grid = rest := by
  cases h with
  | complete => cases hresult
  | failed hrow =>
      obtain rfl := Except.error.inj hresult
      rw [hrow.eq_of_malformed]
  | refused _ _ => cases hresult

theorem ended {front : Grid} {taken : List Text}
    (hpasses : Passes direction [] false front done taken isOpen)
    (h : Stopped sink direction done isOpen state rest tail) :
    Ended sink direction (front ++ rest) done isOpen taken state tail.sink tail.result := by
  have hlength := hpasses.length_lines
  have hnext (row : Row) (behind : Grid) : (front ++ row :: behind)[taken.length]? = some row := by
    rw [hlength, List.getElem?_append_right (Nat.le_refl _), Nat.sub_self]
    rfl
  have htake (row : Row) (behind : Grid) :
      (front ++ row :: behind).take (taken.length + 1) = front ++ [row] := by
    rw [hlength, List.take_length_add_append]
    rfl
  cases h with
  | complete =>
      rw [List.append_nil]
      exact .complete hlength hpasses.convert_eq
  | @failed row left behind e hrow =>
      obtain ⟨item, hitem, hposition⟩ := hrow.exists_position
      have hdone : done.length = taken.length := hpasses.length_done.trans hlength.symm
      have htoken : (⟨done.length, item⟩ : Position) ∈ positions (front ++ row :: behind) := by
        rw [mem_positions_iff, get?, hdone, hnext]
        exact ⟨row[item], by simp [hitem]⟩
      refine .failed (hnext row behind) hrow (hpasses.convert_error hrow behind) ?_ hposition hdone
        htoken
      rw [htake]
      exact hpasses.convert_error hrow []
  | @refused row written behind line isLast cause next hrow hput =>
      refine .refused (hnext row behind) hrow ?_ hput
      rw [htake]
      have hconcat := hpasses.concat (by simpa using hrow)
      exact hconcat.convert_eq

end Stopped

-- How far the sink has come when it gets no more lines, whatever it does with them.
theorem exists_streamed (sink : Sink σ) (direction : Direction) (state : σ) (grid : Grid) :
    ∃ done isOpen taken reached, Streamed sink direction state grid done isOpen taken reached
      (putRows sink direction [] false state grid) := by
  obtain ⟨front, rest, done, taken, isOpen, reached, tail, rfl, hpasses, htakes, hstopped, hrun⟩ :=
    exists_stopped sink direction [] false state grid
  rw [List.nil_append] at hstopped
  have hfront : taken.length = front.length := hpasses.length_lines
  have hdone : taken.length = done.length := hfront.trans hpasses.length_done.symm
  have hended := hstopped.ended hpasses
  refine ⟨done, isOpen, taken, reached, ?_⟩
  rw [hrun]
  refine ⟨htakes, ?_, fun count => hpasses.convert_take rest, hended, ?_, ?_, ?_, ?_⟩
  · rwa [hfront, List.take_left]
  · rw [hdone, List.take_left]
  · rw [List.map_append, List.map_append, hpasses.unwritten_eq, hstopped.unwritten_eq]
  · rw [hdone, List.drop_length_add_append, hstopped.drop_one, ← hdone, hfront,
      List.drop_length_add_append]
  · intro position reason hresult
    rw [hdone, List.drop_left, hstopped.eq_of_malformed hresult, ← hdone, hfront, List.drop_left]

-- The lines leave in the order of their rows, one for each, up to the first row that fails or the
-- first line that the sink refuses. Then the sink is closed, once, and an error of the run goes before
-- one in closing.
theorem putAll_streams (sink : Sink σ) (direction : Direction) (state : σ) (grid : Grid) :
    ∃ done isOpen taken reached outcome,
      Streamed sink direction state grid done isOpen taken reached outcome ∧
      (putAll sink direction state grid).grid = outcome.grid ∧
      (putAll sink direction state grid).sink = (sink.close outcome.sink).2 ∧
      (putAll sink direction state grid).result =
        match outcome.result, (sink.close outcome.sink).1 with
        | .error e, _ => .error e
        | .ok (), .error cause => .error (.io cause)
        | .ok (), .ok () => .ok () := by
  obtain ⟨done, isOpen, taken, reached, hstreamed⟩ := exists_streamed sink direction state grid
  refine ⟨done, isOpen, taken, reached, _, hstreamed, rfl, rfl, ?_⟩
  simp only [putAll]
  split <;> simp_all [Except.bind, Except.mapError]

-- A memory that is full after one line and cannot be closed.
def oneLine : Sink Memory where
  put line memory :=
    if memory.lines.isEmpty then Memory.sink.put line memory else (.error "full", memory)
  close memory := (.error "not flushed", (Memory.sink.close memory).2)

def threeRows : Grid := parse "a == \\A x\nb => c\n(* d *)".toList

-- The first line is taken and the second is not, which goes before that the sink cannot be closed.
theorem putAll_streams_of_refusal :
    ∃ done isOpen reached outcome,
      Streamed oneLine .toUnicode {} threeRows done isOpen ["a ≜ ∀ x".toList] reached outcome ∧
      outcome.result = .error (.io "full") ∧
      (putAll oneLine .toUnicode {} threeRows).sink = (oneLine.close outcome.sink).2 ∧
      (putAll oneLine .toUnicode {} threeRows).result = .error (.io "full") := by
  obtain ⟨done, isOpen, taken, reached, outcome, hstreamed, -, hsink, hresult⟩ :=
    putAll_streams oneLine .toUnicode {} threeRows
  have hfull : (putAll oneLine .toUnicode {} threeRows).result = .error (.io "full") := by
    decide +kernel
  have hfirst : Grid.convert .toUnicode (threeRows.take 1) = .ok ["a ≜ ∀ x".toList] := by
    decide +kernel
  have hended : outcome.result = .error (.io "full") := by
    rw [hfull] at hresult
    split at hresult
    · next h => rw [h, hresult]
    · next h =>
      obtain rfl := Except.error.inj h
      exact absurd hresult (by decide)
    · cases hresult
  have htaken : taken = ["a ≜ ∀ x".toList] := by
    have hline := hstreamed.lines 1
    have hends := hstreamed.ended
    rw [hended] at hends
    cases hends with
    | failed _ _ _ _ hposition => cases hposition
    | refused _ _ _ hput =>
        cases hstreamed.takes with
        | nil => cases hput
        | cons hfront hrest =>
            cases hfront
            cases hrest with
            | nil => exact Except.ok.inj ((hline (Nat.le_refl _)).symm.trans hfirst)
            | cons hmore _ => cases hmore
  subst htaken
  exact ⟨done, isOpen, reached, outcome, hstreamed, hended, hsink, hfull⟩

end Grid

end TlaGlyph
