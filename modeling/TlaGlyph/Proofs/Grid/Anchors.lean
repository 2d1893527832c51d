import TlaGlyph.Grid.Alignment
import TlaGlyph.Proofs.Grid.Measure
import TlaGlyph.Proofs.Grid.Frames

namespace TlaGlyph

namespace Row

theorem getElem?_bare (row : Row) (item : Nat) : row.bare[item]? = row[item]?.map Token.bare :=
  List.getElem?_map

theorem isAlignable_bare (row : Row) (item : Nat) :
    row.bare.isAlignable item = row.isAlignable item := by
  have hprevious : row.bare.previous? item = (row.previous? item).map Token.bare := by
    unfold previous?
    split
    · rfl
    · exact getElem?_bare row (item - 1)
  simp only [isAlignable, getElem?_bare, hprevious, Option.any_map, Option.all_map]
  rfl

theorem isAlignable_congr {row other : Row} (h : row.bare = other.bare) (item : Nat) :
    row.isAlignable item = other.isAlignable item := by
  rw [← isAlignable_bare, h, isAlignable_bare]

-- Every anchor of the row names a token of the rows above that begins at the column of the token that
-- it is the anchor of, and that can be lined up.
def Anchored (above : Grid) (row : Row) : Prop :=
  ∀ token ∈ row, ∀ anchor, token.anchor = some anchor →
    ∃ named other, above[anchor.line]? = some named ∧ named[anchor.item]? = some other ∧
      named.isAlignable anchor.item = true ∧ other.column = token.column

theorem exists_of_bare_eq {row other : Row} (h : row.bare = other.bare) {item : Nat} {token : Token}
    (htoken : row[item]? = some token) :
    ∃ twin, other[item]? = some twin ∧ twin.bare = token.bare := by
  have hitem := congrArg (·[item]?) h
  simp only [getElem?_bare, htoken, Option.map_some] at hitem
  exact Option.map_eq_some_iff.mp hitem.symm

theorem Anchored.congr {above other : Grid} {row : Row} (h : row.Anchored above)
    (hbare : above.map bare = other.map bare) : row.Anchored other := by
  intro token htoken anchor hanchor
  obtain ⟨named, found, hnamed, hfound, halign, hcolumn⟩ := h token htoken anchor hanchor
  have hline := congrArg (·[anchor.line]?) hbare
  simp only [List.getElem?_map, hnamed, Option.map_some] at hline
  obtain ⟨twin, htwin, hsame⟩ := Option.map_eq_some_iff.mp hline.symm
  obtain ⟨match', hmatch, htoken'⟩ := exists_of_bare_eq hsame.symm hfound
  refine ⟨twin, match', htwin, hmatch, ?_, ?_⟩
  · rw [isAlignable_congr hsame, halign]
  · have := congrArg Token.column htoken'
    simp only [Token.bare_column] at this
    rw [this, hcolumn]

theorem bare_align (above : Option (Nat × Row)) (row : Row) : (row.align above).bare = row.bare := by
  apply List.ext_getElem?
  intro item
  rw [getElem?_bare, getElem?_bare, align, List.getElem?_mapIdx]
  cases row[item]? with
  | none => rfl
  | some token =>
      simp only [Option.map_some]
      split <;> rfl

theorem exists_of_anchorItem? {row : Row} {column item : Nat}
    (h : row.anchorItem? column = some item) :
    row.isAlignable item = true ∧ ∃ token, row[item]? = some token ∧ token.column = column := by
  obtain ⟨hfind, halign⟩ := Option.filter_eq_some_iff.mp h
  obtain ⟨hlt, hcolumn, -⟩ := List.findIdx?_eq_some_iff_getElem.mp hfind
  exact ⟨halign, row[item], List.getElem?_eq_getElem hlt, by simpa using hcolumn⟩

theorem anchored_align {done : Grid} {above : Option (Nat × Row)} {row : Row}
    (hrow : row.bare = row)
    (habove : ∀ line other, above = some (line, other) →
      ∃ named, done[line]? = some named ∧ named.bare = other.bare) :
    (row.align above).Anchored done := by
  intro token htoken anchor hanchor
  obtain ⟨item, hitem⟩ := List.getElem?_of_mem htoken
  rw [align, List.getElem?_mapIdx] at hitem
  obtain ⟨source, hsource, rfl⟩ := Option.map_eq_some_iff.mp hitem
  split at hanchor
  · simp only [Option.bind_eq_some_iff, Option.map_eq_some_iff] at hanchor
    obtain ⟨⟨line, other⟩, rfl, found, hfound, rfl⟩ := hanchor
    obtain ⟨halign, named, hnamed, hcolumn⟩ := exists_of_anchorItem? hfound
    obtain ⟨twin, htwin, hsame⟩ := habove line other rfl
    obtain ⟨match', hmatch, htoken'⟩ := exists_of_bare_eq hsame.symm hnamed
    refine ⟨twin, match', htwin, hmatch, ?_, ?_⟩
    · rw [isAlignable_congr hsame, halign]
    · have := congrArg Token.column htoken'
      simp only [Token.bare_column] at this
      split <;> rw [this, hcolumn]
  · have hnone : source.anchor = none := by
      rw [← hrow, getElem?_bare] at hsource
      obtain ⟨origin, -, rfl⟩ := Option.map_eq_some_iff.mp hsource
      rfl
    rw [hnone] at hanchor
    cases hanchor

-- Nothing of the row has been written.
def Fresh (row : Row) : Prop := ∀ token ∈ row, token.outputColumn = none

theorem fresh_of_bare {row : Row} (h : row.bare = row) : row.Fresh := by
  intro token htoken
  rw [← h] at htoken
  obtain ⟨origin, -, rfl⟩ := List.mem_map.mp htoken
  rfl

theorem Fresh.align {row : Row} (h : row.Fresh) (above : Option (Nat × Row)) :
    (row.align above).Fresh := by
  intro token htoken
  obtain ⟨item, hitem⟩ := List.getElem?_of_mem htoken
  rw [Row.align, List.getElem?_mapIdx] at hitem
  obtain ⟨source, hsource, rfl⟩ := Option.map_eq_some_iff.mp hitem
  have hnone := h source (List.mem_of_getElem? hsource)
  split <;> exact hnone

end Row

namespace Grid

-- Every row is anchored in the rows above it, the first one in the rows given.
def Anchored : Grid → Grid → Prop
  | _, [] => True
  | above, row :: rest => row.Anchored above ∧ Anchored (above ++ [row]) rest

-- It makes no difference what has been written already.
theorem Anchored.congr {above other rows : Grid} (h : Anchored above rows)
    (hbare : above.map Row.bare = other.map Row.bare) : Anchored other rows := by
  induction rows generalizing above other with
  | nil => trivial
  | cons row rest ih =>
      refine ⟨h.1.congr hbare, ih h.2 ?_⟩
      rw [List.map_append, List.map_append, hbare]

theorem bare_alignFrom (line : Nat) (above : Option (Nat × Row)) (rows : Grid) :
    (alignFrom line above rows).map Row.bare = rows.map Row.bare := by
  induction rows generalizing line above with
  | nil => rfl
  | cons row rest ih => simp only [alignFrom, List.map_cons, Row.bare_align, ih]

theorem anchored_alignFrom {done rows : Grid} {above : Option (Nat × Row)}
    (hrows : ∀ row ∈ rows, row.bare = row)
    (habove : ∀ line other, above = some (line, other) →
      ∃ named, done[line]? = some named ∧ named.bare = other.bare) :
    Anchored done (alignFrom done.length above rows) := by
  induction rows generalizing done above with
  | nil => trivial
  | cons row rest ih =>
      refine ⟨Row.anchored_align (hrows row (by simp)) habove, ?_⟩
      have hlength : done.length + 1 = (done ++ [row.align above]).length := by simp
      rw [hlength]
      apply ih (fun other hother => hrows other (List.mem_cons_of_mem _ hother))
      intro line other hother
      split at hother
      · obtain ⟨named, hnamed, hsame⟩ := habove line other hother
        refine ⟨named, ?_, hsame⟩
        rw [List.getElem?_append_left (List.getElem?_eq_some_iff.mp hnamed).1, hnamed]
      · cases hother
        exact ⟨row.align above, by simp, Row.bare_align above row⟩

theorem anchored_align {rows : Grid} (hrows : ∀ row ∈ rows, row.bare = row) :
    Anchored [] rows.align := by
  cases rows with
  | nil => trivial
  | cons row rest =>
      have hrow := hrows row (by simp)
      refine ⟨?_, ?_⟩
      · intro token htoken anchor hanchor
        rw [← hrow] at htoken
        obtain ⟨origin, -, rfl⟩ := List.mem_map.mp htoken
        cases hanchor
      · refine @anchored_alignFrom [row] _ _
          (fun other hother => hrows other (List.mem_cons_of_mem _ hother)) ?_
        intro line other hother
        split at hother
        · cases hother
        · cases hother
          exact ⟨row, rfl, rfl⟩

theorem bare_align (rows : Grid) : rows.align.map Row.bare = rows.map Row.bare := by
  cases rows with
  | nil => rfl
  | cons row rest => simp only [align, List.map_cons, bare_alignFrom]

theorem fresh_alignFrom {rows : Grid} (h : ∀ row ∈ rows, row.Fresh) (line : Nat)
    (above : Option (Nat × Row)) : ∀ row ∈ alignFrom line above rows, row.Fresh := by
  induction rows generalizing line above with
  | nil => simp [alignFrom]
  | cons row rest ih =>
      intro other hother
      rcases List.mem_cons.mp hother with rfl | hother
      · exact (h row (by simp)).align above
      · exact ih (fun next hnext => h next (List.mem_cons_of_mem _ hnext)) _ _ other hother

theorem fresh_align {rows : Grid} (h : ∀ row ∈ rows, row.Fresh) : ∀ row ∈ rows.align, row.Fresh := by
  cases rows with
  | nil => simp [align]
  | cons row rest =>
      intro other hother
      rcases List.mem_cons.mp hother with rfl | hother
      · exact h other (by simp)
      · exact fresh_alignFrom (fun next hnext => h next (List.mem_cons_of_mem _ hnext)) _ _ other hother

end Grid

namespace Frame

theorem bare_row (frame : Frame) : frame.row.bare = frame.row := by
  cases frame with
  | prolog line | epilog line =>
      simp only [row, Module.prose]
      split <;> rfl
  | code depth line => exact Row.bare_ofLine depth line

theorem measured_row (frame : Frame) : frame.row.Measured 0 := by
  cases frame with
  | prolog line | epilog line =>
      cases line with
      | nil => trivial
      | cons c line => exact Row.measured_cons_ofText (Nat.le_refl 0) (Nat.succ_pos _) trivial
  | code depth line => exact Row.measured_ofLine depth line

end Frame

namespace Grid

theorem bare_ofSource (source : Text) : ∀ row ∈ ofSource source, row.bare = row := by
  rw [ofSource_eq_frames]
  intro row hrow
  obtain ⟨frame, -, rfl⟩ := List.mem_map.mp hrow
  exact frame.bare_row

theorem bare_parse (source : Text) : (parse source).map Row.bare = (frames source).map Frame.row := by
  rw [parse, bare_align, List.map_congr_left (bare_ofSource source), List.map_id',
    ofSource_eq_frames]

theorem measured_parse (source : Text) : ∀ row ∈ parse source, row.Measured 0 := by
  intro row hrow
  have hbare : row.bare ∈ (parse source).map Row.bare := List.mem_map_of_mem hrow
  rw [bare_parse] at hbare
  obtain ⟨frame, -, hframe⟩ := List.mem_map.mp hbare
  rw [← Row.measured_bare, ← hframe]
  exact frame.measured_row

theorem fresh_parse (source : Text) : ∀ row ∈ parse source, row.Fresh :=
  fresh_align fun row hrow => Row.fresh_of_bare (bare_ofSource source row hrow)

theorem anchored_parse (source : Text) : Anchored [] (parse source) :=
  anchored_align (bare_ofSource source)

end Grid

end TlaGlyph
