import TlaGlyph.Proofs.Line.Sound

namespace TlaGlyph

variable {direction : Direction} {above : Grid}

theorem Direction.allows_add {column outputColumn width outputWidth : Nat}
    (hcolumn : direction.allows column outputColumn = true)
    (hwidth : direction.allows width outputWidth = true) :
    direction.allows (column + width) (outputColumn + outputWidth) = true := by
  cases direction with
  | toUnicode =>
      rw [allows_toUnicode] at hcolumn hwidth ⊢
      omega
  | toAscii =>
      rw [allows_toAscii] at hcolumn hwidth ⊢
      omega

theorem Direction.allows_self (direction : Direction) (column : Nat) :
    direction.allows column column = true := by
  cases direction with
  | toUnicode => exact allows_toUnicode.mpr (Nat.le_refl column)
  | toAscii => exact allows_toAscii.mpr (Nat.le_refl column)

-- The tokens of the row are as wide as they are spelled.
def Row.Rendered (row : Row) : Prop := ∀ token ∈ row, token.width = token.spelling.length

-- What has been written stands where the direction allows it.
def Row.Directed (direction : Direction) (row : Row) : Prop :=
  ∀ token ∈ row, ∀ column, token.outputColumn = some column →
    direction.allows token.column column = true

def Grid.Directed (direction : Direction) (grid : Grid) : Prop := ∀ row ∈ grid, row.Directed direction

namespace Token

variable {token : Token}

theorem allows_emission (direction : Direction) (hspelled : token.width = token.spelling.length) :
    direction.allows token.width (token.emission direction).length = true := by
  cases direction with
  | toUnicode =>
      rw [Direction.allows_toUnicode, hspelled]
      exact token.emission_toUnicode_le
  | toAscii =>
      rw [Direction.allows_toAscii]
      by_cases hwidth : 0 < token.width
      · rw [hspelled]
        exact le_emission_toAscii hwidth
      · omega

-- The line behind a token that was written.
theorem allows_finish {column : Nat} (hspelled : token.width = token.spelling.length)
    (hcolumn : direction.allows token.column column = true) :
    direction.allows token.finish (column + (token.emission direction).length) = true :=
  Direction.allows_add hcolumn (allows_emission direction hspelled)

theorem allows_of_goal? {column : Nat} (habove : above.Directed direction)
    (hgoal : token.goal? above = some column) : direction.allows token.column column = true := by
  obtain ⟨other, hother, hcolumn⟩ := Option.bind_eq_some_iff.mp hgoal
  obtain ⟨anchor, -, hfound⟩ := Option.bind_eq_some_iff.mp hother
  obtain ⟨row, hrow, hitem⟩ := Option.bind_eq_some_iff.mp hfound
  split at hcolumn
  · next hsame =>
    rw [← hsame]
    exact habove row (List.mem_of_getElem? hrow) other (List.mem_of_getElem? hitem) column hcolumn
  · cases hcolumn

theorem Spaced.allows {onlyComments : Bool} {stop width count : Nat}
    (habove : above.Directed direction) (hlevel : direction.allows stop width = true)
    (h : token.Spaced above onlyComments stop width count) :
    direction.allows token.column (width + count) = true := by
  cases h with
  | anchored hgoal => exact allows_of_goal? habove hgoal
  | kept hgoal hgap =>
      rw [← hgap]
      exact Direction.allows_add hlevel (direction.allows_self count)

end Token

namespace Draft

variable {position : Position} {previous? : Option Token} {token written : Token} {draft next : Draft}
  {e : ConversionError}

theorem ne_drift_of_write {failed : Position} {context : String} {column outputColumn : Nat}
    {way : Direction} (habove : above.Directed direction)
    (hlevel : direction.allows (Token.stopOf previous?) draft.line.length = true)
    (h : draft.write direction above position previous? token = (next, .error e)) :
    e ≠ .columnDrift failed context column outputColumn way := by
  rcases write_error h with
    hplace | ⟨count, hspaced, hallows, -⟩ | ⟨-, goal, hcrowded, ⟨-, rfl⟩ | ⟨hallows, -⟩⟩
  · rcases Token.place_error hplace with ⟨anchor, -, -, rfl⟩ | ⟨-, -, rfl⟩ | ⟨-, rfl⟩ <;> nofun
  · rw [hspaced.allows habove hlevel] at hallows
    cases hallows
  · nofun
  · rw [Token.allows_of_goal? habove hcrowded.goal] at hallows
    cases hallows

theorem allows_of_write (hspelled : token.width = token.spelling.length)
    (h : draft.write direction above position previous? token = (next, .ok written)) :
    direction.allows token.finish next.line.length = true := by
  rcases write_ok h with ⟨count, -, hallows, -, rfl⟩ | ⟨-, column, -, hle, hallows, -, rfl⟩
  · rw [List.length_append, List.length_append, Text.length_spaces]
    exact Token.allows_finish hspelled hallows
  · have hcolumn : draft.cleared.length + (column - draft.cleared.length) = column := by omega
    rw [List.length_append, List.length_append, Text.length_spaces, hcolumn]
    exact Token.allows_finish hspelled hallows

theorem ne_drift_of_writeAll {item : Nat} {row left : Row} {final : Draft} {failed : Position}
    {context : String} {column outputColumn : Nat} {way : Direction}
    (habove : above.Directed direction) (hrendered : row.Rendered)
    (hlevel : direction.allows (Token.stopOf previous?) draft.line.length = true)
    (h : writeAll direction above item previous? draft row = (left, final, .error e)) :
    e ≠ .columnDrift failed context column outputColumn way := by
  induction row generalizing item previous? draft left with
  | nil => cases congrArg (·.2.2) h
  | cons token rest ih =>
      rcases writeAll_cons_error h with ⟨hwrite, -⟩ | ⟨next, head, tail, hwrite, htail, -⟩
      · exact ne_drift_of_write habove hlevel hwrite
      · have hrest : Row.Rendered rest := fun other hother =>
          hrendered other (List.mem_cons_of_mem _ hother)
        have hlevel : direction.allows (Token.stopOf (some token)) next.line.length = true :=
          allows_of_write (hrendered token List.mem_cons_self) hwrite
        exact ih hrest hlevel htail

end Draft

namespace Row

variable {row written : Row} {line : Text}

theorem ne_drift_of_convert {left : Row} {e : ConversionError} {failed : Position} {context : String}
    {column outputColumn : Nat} {way : Direction} (habove : above.Directed direction)
    (hrendered : row.Rendered) (h : row.convert direction above = (left, .error e)) :
    e ≠ .columnDrift failed context column outputColumn way := by
  obtain ⟨all, final, hall, -⟩ := exists_writeAll_of_convert_error h
  have hlevel : direction.allows (Token.stopOf none) (Draft.line {}).length = true :=
    direction.allows_self 0
  exact Draft.ne_drift_of_writeAll habove hrendered hlevel hall

-- No row makes those below it drift.
theorem Converted.directed (h : Converted above direction row written line) (hfresh : row.Fresh) :
    written.Directed direction := by
  obtain ⟨front, placed, back, width, text, rfl, hfront, hback, hplaced⟩ := h.exists_placed hfresh
  intro token htoken column hcolumn
  obtain ⟨item, hitem⟩ := List.getElem?_of_mem htoken
  obtain ⟨index, -, hindex⟩ := exists_of_outputColumn hfront hback hitem hcolumn
  obtain ⟨-, -, width', count, -, houtput, hallows, -⟩ := hplaced.exists_spaced hindex
  obtain rfl : width' + count = column := by simpa [houtput] using hcolumn
  exact hallows

theorem Rendered.congr (h : row.Rendered)
    (hsame : written.map Token.unwritten = row.map Token.unwritten) : written.Rendered :=
  forall_of_unwritten (fun _ => Iff.rfl) hsame h

end Row

-- A line ends on the right side of where its last token ends in the source.
theorem Placed.allows_last {onlyComments : Bool} {stop width : Nat} {row : Row} {text : Text}
    {last : Token} (h : Placed direction above onlyComments stop width row text)
    (hrendered : row.Rendered) (hlast : row.getLast? = some last) :
    direction.allows last.finish (width + text.length) = true := by
  induction h with
  | nil => cases hlast
  | @cons onlyComments stop width count token rest text hspaced hcolumn hallows hplaced ih =>
      have hspelled := hrendered token List.mem_cons_self
      cases rest with
      | nil =>
          obtain rfl : token = last := by simpa using hlast
          cases hplaced
          simpa [Nat.add_assoc] using Token.allows_finish hspelled hallows
      | cons next rest =>
          have hend := ih (fun other hother => hrendered other (List.mem_cons_of_mem _ hother))
            (by rwa [List.getLast?_cons_cons] at hlast)
          simpa [Nat.add_assoc] using hend

end TlaGlyph
