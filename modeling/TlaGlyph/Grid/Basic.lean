import TlaGlyph.Token

namespace TlaGlyph

abbrev Row := List Token

-- One row for each line of the source.
abbrev Grid := List Row

namespace Grid

def get? (grid : Grid) (position : Position) : Option Token :=
  grid[position.line]?.bind (·[position.item]?)

-- Every position that holds a token, row by row and from left to right.
def positions (grid : Grid) : List Position :=
  grid.zipIdx.flatMap fun (row, line) => (List.range row.length).map (Position.mk line)

theorem mem_positions_iff {grid : Grid} {position : Position} :
    position ∈ grid.positions ↔ ∃ token, grid.get? position = some token := by
  obtain ⟨line, item⟩ := position
  constructor
  · intro h
    obtain ⟨⟨row, index⟩, hrow, hposition⟩ := List.mem_flatMap.mp h
    obtain ⟨place, hplace, heq⟩ := List.mem_map.mp hposition
    obtain ⟨rfl, rfl⟩ := Position.mk.inj heq
    have hlt := List.mem_range.mp hplace
    exact ⟨row[place], by simp [get?, List.mk_mem_zipIdx_iff_getElem?.mp hrow, hlt]⟩
  · rintro ⟨token, h⟩
    obtain ⟨row, hrow, htoken⟩ := Option.bind_eq_some_iff.mp h
    obtain ⟨hlt, -⟩ := List.getElem?_eq_some_iff.mp htoken
    exact List.mem_flatMap.mpr ⟨(row, line), List.mk_mem_zipIdx_iff_getElem?.mpr hrow,
      List.mem_map.mpr ⟨item, List.mem_range.mpr hlt, rfl⟩⟩

end Grid

end TlaGlyph
