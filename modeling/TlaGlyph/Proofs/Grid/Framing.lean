import Mathlib.Data.List.TakeWhile
import TlaGlyph.Proofs.Grid.Anchors
import TlaGlyph.Proofs.Grid.Grouping

namespace TlaGlyph

namespace Row

def HoldsNoProse (row : Row) : Prop :=
  ∀ token ∈ row, token.kind ≠ .prolog ∧ token.kind ≠ .epilog

section HoldsNoProse

variable {row : Row} {token : Token}

theorem HoldsNoProse.cons (h : row.HoldsNoProse)
    (htoken : token.kind ≠ .prolog ∧ token.kind ≠ .epilog) : HoldsNoProse (token :: row) := by
  rintro other (_ | ⟨_, hother⟩)
  · exact htoken
  · exact h other hother

theorem HoldsNoProse.of_bare {other : Row} (h : row.HoldsNoProse) (hbare : other.bare = row) :
    other.HoldsNoProse := by
  intro token htoken
  exact h token.bare (hbare ▸ List.mem_map_of_mem htoken)

theorem holdsNoProse_nil : HoldsNoProse [] := nofun

theorem Scans.holdsNoProse {column depth : Nat} {text : Text} (h : Scans column text row depth) :
    row.HoldsNoProse := by
  induction h with
  | nil => exact holdsNoProse_nil
  | plain hgap hplain hrest ih =>
      refine ih.cons ⟨?_, ?_⟩
      · rintro rfl
        cases hplain.isPlain
      · rintro rfl
        cases hplain.isPlain
  | string _ _ _ ih | broken _ _ _ _ _ ih | whole _ _ _ ih => exact ih.cons ⟨nofun, nofun⟩
  | opening => exact holdsNoProse_nil.cons ⟨nofun, nofun⟩
  | @line column gap text rest hgap hline hrest =>
      rcases splitLineComment_cases (column + gap.length) text with
        hwhole | ⟨before, -, body, -, -, -, -, hsplit⟩
      · rw [hwhole]
        exact holdsNoProse_nil.cons ⟨nofun, nofun⟩
      · rw [hsplit]
        simp [HoldsNoProse, Token.ofText]

theorem ScansLine.holdsNoProse {depth left : Nat} {line : Text}
    (h : ScansLine depth line row left) : row.HoldsNoProse := by
  cases h with
  | code hrest => exact hrest.holdsNoProse
  | closing _ _ hrest => exact hrest.holdsNoProse.cons ⟨nofun, nofun⟩
  | inside => exact holdsNoProse_nil.cons ⟨nofun, nofun⟩
  | blank => exact holdsNoProse_nil

end HoldsNoProse

-- A token that cannot be lined up is left as it is.
theorem align_prose {kind : Kind} (h : kind.canAlign = false) (above : Option (Nat × Row))
    (line : Text) : (Module.prose kind line).align above = Module.prose kind line := by
  rw [Module.prose]
  split
  · rfl
  · simp [align, isAlignable, Token.ofText, h]

theorem endMarkers_bare (row : Row) : Module.endMarkers row.bare = Module.endMarkers row := by
  rw [Module.endMarkers, bare, List.countP_map]
  rfl

end Row

namespace Module

-- How many modules begin on the lines, the first of which begins inside `depth` comments. The header
-- of one is outside of every comment.
def headers (depth : Nat) : List Text → Nat
  | [] => 0
  | line :: rest =>
    (if depth = 0 ∧ isHeader line then 1 else 0) + headers (Row.ofLine depth line).2 rest

-- How many modules end on the rows.
def endings (rows : Grid) : Nat := endMarkers rows.flatten

theorem endings_bare (rows : Grid) : endings (rows.map Row.bare) = endings rows := by
  rw [endings, endings, ← Row.endMarkers_bare rows.flatten, Row.bare, List.map_flatten]
  rfl

variable {nesting depth : Nat}

-- How many modules are open below the header of the line, if it is one.
def entered (nesting depth : Nat) (line : Text) : Nat :=
  if depth = 0 ∧ isHeader line then nesting + 1 else nesting

theorem framesFrom_cons (line : Text) (rest : List Text) :
    framesFrom nesting depth (line :: rest) = .code depth line ::
      if 0 < endMarkers (Row.ofLine depth line).1 ∧
          entered nesting depth line - endMarkers (Row.ofLine depth line).1 = 0
      then rest.map Frame.epilog
      else framesFrom (entered nesting depth line - endMarkers (Row.ofLine depth line).1)
        (Row.ofLine depth line).2 rest := rfl

theorem add_headers_cons (line : Text) (rest : List Text) :
    nesting + headers depth (line :: rest) =
      entered nesting depth line + headers (Row.ofLine depth line).2 rest := by
  rw [headers, entered]
  split <;> omega

theorem endings_nil : endings (rows depth []) = 0 := rfl

theorem endings_cons (line : Text) (rest : List Text) :
    endings (rows depth (line :: rest)) =
      endMarkers (Row.ofLine depth line).1 + endings (rows (Row.ofLine depth line).2 rest) := by
  rw [endings, rows, List.flatten_cons, endMarkers, List.countP_append]
  rfl

theorem take_frames (count : Nat) (lines : List Text) :
    (frames depth lines).take count = frames depth (lines.take count) := by
  induction lines generalizing depth count with
  | nil => simp [frames]
  | cons line rest ih =>
      cases count with
      | zero => rfl
      | succ count => simp only [frames, List.take_succ_cons, ih]

theorem length_frames (lines : List Text) : (frames depth lines).length = lines.length := by
  rw [← List.length_map Frame.line, line_frames]

theorem holdsNoProse_of_mem_frames {lines : List Text} {frame : Frame}
    (h : frame ∈ frames depth lines) : frame.row.HoldsNoProse := by
  have hrank := rank_frames depth lines frame h
  cases frame with
  | prolog | epilog => cases hrank
  | code entered line => exact (Row.ofLine_scans entered line).holdsNoProse

-- Line `last` is the first of code down to which no fewer modules end than have begun, with `nesting`
-- of them above the lines. If there is no such line it is the last of all.
structure Reaches (nesting depth : Nat) (lines : List Text) (last : Nat) : Prop where
  lt : last < lines.length
  frames_eq : framesFrom nesting depth lines =
    frames depth (lines.take (last + 1)) ++ (lines.drop (last + 1)).map Frame.epilog
  unbalanced : ∀ middle < last, endings (rows depth (lines.take (middle + 1))) <
    nesting + headers depth (lines.take (middle + 1))
  balanced : last + 1 < lines.length →
    nesting + headers depth (lines.take (last + 1)) ≤ endings (rows depth (lines.take (last + 1)))

namespace Reaches

variable {line : Text} {rest : List Text} {last : Nat}

-- The line ends all modules, or there is none below it.
theorem here (hclosed : rest = [] ∨ 0 < endMarkers (Row.ofLine depth line).1 ∧
      entered nesting depth line - endMarkers (Row.ofLine depth line).1 = 0) :
    Reaches nesting depth (line :: rest) 0 := by
  refine ⟨Nat.succ_pos _, ?_, nofun, fun hlast => ?_⟩
  · rw [framesFrom_cons]
    rcases hclosed with rfl | hclosed
    · simp [framesFrom, frames]
    · rw [if_pos hclosed]
      rfl
  · rcases hclosed with rfl | hclosed
    · cases Nat.lt_irrefl 1 hlast
    · rw [List.take_succ_cons, add_headers_cons, endings_cons]
      simp only [List.take_zero, headers, endings_nil]
      omega

-- The line leaves a module that goes on below it.
theorem below (hopen : endMarkers (Row.ofLine depth line).1 < entered nesting depth line)
    (h : Reaches (entered nesting depth line - endMarkers (Row.ofLine depth line).1)
      (Row.ofLine depth line).2 rest last) : Reaches nesting depth (line :: rest) (last + 1) := by
  refine ⟨Nat.succ_lt_succ h.lt, ?_, ?_, ?_⟩
  · rw [framesFrom_cons, if_neg (by omega), h.frames_eq]
    rfl
  · intro middle hmiddle
    rw [List.take_succ_cons, add_headers_cons, endings_cons]
    cases middle with
    | zero =>
        simp only [List.take_zero, headers, endings_nil]
        omega
    | succ middle =>
        have hless := h.unbalanced middle (by omega)
        omega
  · intro hlast
    have hle := h.balanced (by simpa using hlast)
    rw [List.take_succ_cons, add_headers_cons, endings_cons]
    omega

end Reaches

theorem exists_reaches (line : Text) (rest : List Text) (hopen : 0 < entered nesting depth line) :
    ∃ last, Reaches nesting depth (line :: rest) last := by
  induction rest generalizing nesting depth line with
  | nil => exact ⟨0, .here (.inl rfl)⟩
  | cons next rest ih =>
      by_cases hclosed : 0 < endMarkers (Row.ofLine depth line).1 ∧
          entered nesting depth line - endMarkers (Row.ofLine depth line).1 = 0
      · exact ⟨0, .here (.inr hclosed)⟩
      · have hbelow : 0 < entered (entered nesting depth line - endMarkers (Row.ofLine depth line).1)
            (Row.ofLine depth line).2 next := by
          rw [entered]
          split <;> omega
        obtain ⟨last, hreaches⟩ := ih next hbelow
        exact ⟨last + 1, hreaches.below (by omega)⟩

end Module

namespace Grid

section Parse

variable {source : Text} {index : Nat}

theorem getElem?_bare_parse (source : Text) (index : Nat) :
    (parse source)[index]?.map Row.bare = (frames source)[index]?.map Frame.row := by
  rw [← List.getElem?_map, ← List.getElem?_map, bare_parse]

theorem exists_frame {row : Row} (h : (parse source)[index]? = some row) :
    ∃ frame, (frames source)[index]? = some frame ∧ row.bare = frame.row := by
  have hbare := getElem?_bare_parse source index
  rw [h, Option.map_some] at hbare
  obtain ⟨frame, hframe, hrow⟩ := Option.map_eq_some_iff.mp hbare.symm
  exact ⟨frame, hframe, hrow.symm⟩

theorem exists_row {frame : Frame} (h : (frames source)[index]? = some frame) :
    ∃ row, (parse source)[index]? = some row ∧ row.bare = frame.row := by
  have hbare := getElem?_bare_parse source index
  rw [h, Option.map_some] at hbare
  exact Option.map_eq_some_iff.mp hbare

theorem exists_alignFrom (line : Nat) (above : Option (Nat × Row)) (rows : Grid) (index : Nat) :
    ∃ other, (alignFrom line above rows)[index]? = rows[index]?.map (Row.align other) := by
  induction rows generalizing line above index with
  | nil => exact ⟨none, rfl⟩
  | cons row rest ih =>
      cases index with
      | zero => exact ⟨above, rfl⟩
      | succ index => exact ih _ _ index

theorem exists_align (rows : Grid) (index : Nat) :
    rows.align[index]? = rows[index]? ∨
      ∃ above, rows.align[index]? = rows[index]?.map (Row.align above) := by
  cases rows with
  | nil => exact .inl rfl
  | cons row rest =>
      cases index with
      | zero => exact .inl rfl
      | succ index => exact .inr (exists_alignFrom _ _ rest index)

-- Prose keeps its one token.
theorem parse_of_prose {frame : Frame} {kind : Kind} (h : (frames source)[index]? = some frame)
    (hrow : frame.row = Module.prose kind frame.line) (hkind : kind.canAlign = false) :
    (parse source)[index]? = some (Module.prose kind frame.line) := by
  have hsource : (ofSource source)[index]? = some (Module.prose kind frame.line) := by
    rw [ofSource_eq_frames, List.getElem?_map, h, Option.map_some, hrow]
  rw [parse]
  rcases exists_align (ofSource source) index with hsame | ⟨above, halign⟩
  · rw [hsame, hsource]
  · rw [halign, hsource, Option.map_some, Row.align_prose hkind]

theorem length_parse (source : Text) : (parse source).length = (Text.lines source).length := by
  rw [← List.length_map Row.bare, bare_parse, List.length_map, ← line_frames, List.length_map]

end Parse

-- On the rows from `first` to `last` no fewer modules end than begin.
def Balanced (lines : List Text) (grid : Grid) (first last : Nat) : Prop :=
  Module.headers 0 ((lines.take (last + 1)).drop first) ≤
    Module.endings ((grid.take (last + 1)).drop first)

-- The module that begins on row `first` ends on row `last`.
structure EndsAt (lines : List Text) (grid : Grid) (first last : Nat) : Prop where
  le : first ≤ last
  lt : last < lines.length
  balanced : Balanced lines grid first last
  unbalanced : ∀ middle, first ≤ middle → middle < last → ¬Balanced lines grid first middle

-- The rows above the first header and those below the end of its module are prose, a token for
-- each line that is not empty. There is no prose on the others.
structure Framed (lines : List Text) (grid : Grid) : Prop where
  length_eq : grid.length = lines.length
  whole : lines.findIdx? Module.isHeader = none → ∀ row ∈ grid, row.HoldsNoProse
  prolog : ∀ first, lines.findIdx? Module.isHeader = some first →
    ∀ index line, index < first → lines[index]? = some line →
      grid[index]? = some (Module.prose .prolog line)
  epilog : ∀ first last, lines.findIdx? Module.isHeader = some first →
    EndsAt lines grid first last → ∀ index line, last < index → lines[index]? = some line →
      grid[index]? = some (Module.prose .epilog line)
  inside : ∀ first, lines.findIdx? Module.isHeader = some first →
    ∀ index row, first ≤ index → (∀ last, EndsAt lines grid first last → index ≤ last) →
      grid[index]? = some row → row.HoldsNoProse

section Located

variable {first last index : Nat} {source : Text}

-- The frames of a source that has a header on line `first`, and code from there down to line `last`.
structure Located (source : Text) (first last : Nat) : Prop where
  le : first ≤ last
  lt : last < (Text.lines source).length
  frames_eq : frames source = ((Text.lines source).take first).map .prolog ++
    (Module.frames 0 (((Text.lines source).take (last + 1)).drop first) ++
      ((Text.lines source).drop (last + 1)).map .epilog)
  unbalanced : ∀ middle, first ≤ middle → middle < last →
    ¬Balanced (Text.lines source) (parse source) first middle
  balanced : last + 1 < (Text.lines source).length →
    Balanced (Text.lines source) (parse source) first last

theorem frames_of_header (h : (Text.lines source).findIdx? Module.isHeader = some first) :
    frames source = ((Text.lines source).take first).map .prolog ++
      Module.framesFrom 0 0 ((Text.lines source).drop first) := by
  obtain ⟨hlt, hfirst⟩ := List.findIdx?_eq_some_iff_findIdx_eq.mp h
  have hany : (Text.lines source).any Module.isHeader = true := by
    rw [← List.findIdx?_isSome, h]
    rfl
  simp only [frames, hany, if_true, List.takeWhile_eq_take_findIdx_not,
    List.dropWhile_eq_drop_findIdx_not, Bool.not_not, hfirst]

-- As far as the code reaches, the end markers of the grid are those of the lines.
theorem endings_parse (h : (Text.lines source).findIdx? Module.isHeader = some first)
    (hreaches : Module.Reaches 0 0 ((Text.lines source).drop first) last) {count : Nat}
    (hcount : count ≤ last + 1) :
    Module.endings (((parse source).take (first + count)).drop first) =
      Module.endings (Module.rows 0 (((Text.lines source).drop first).take count)) := by
  have hlt : first ≤ (Text.lines source).length :=
    Nat.le_of_lt (List.findIdx?_eq_some_iff_findIdx_eq.mp h).1
  have hprolog : (((Text.lines source).take first).map Frame.prolog).length = first := by
    rw [List.length_map, List.length_take_of_le hlt]
  have hcode : ((frames source).take (first + count)).drop first =
      Module.frames 0 (((Text.lines source).drop first).take count) := by
    have hle : count ≤ (Module.frames 0
        (((Text.lines source).drop first).take (last + 1))).length := by
      have hreach := hreaches.lt
      rw [Module.length_frames, List.length_take]
      omega
    rw [List.drop_take, Nat.add_sub_cancel_left, frames_of_header h, List.drop_left' hprolog,
      hreaches.frames_eq, List.take_append_of_le_length hle, Module.take_frames, List.take_take,
      Nat.min_eq_left hcount]
  have hrows : (((parse source).take (first + count)).drop first).map Row.bare =
      Module.rows 0 (((Text.lines source).drop first).take count) := by
    rw [← Module.row_frames, ← hcode, List.map_drop, List.map_take, bare_parse, List.map_drop,
      List.map_take]
  rw [← hrows, Module.endings_bare]

theorem exists_located (h : (Text.lines source).findIdx? Module.isHeader = some first) :
    ∃ last, Located source first last := by
  obtain ⟨hlt, hheader, -⟩ := List.findIdx?_eq_some_iff_getElem.mp h
  have hopen : 0 < Module.entered 0 0 (Text.lines source)[first] := by
    rw [Module.entered, if_pos ⟨rfl, hheader⟩]
    exact Nat.zero_lt_one
  obtain ⟨last, hreaches⟩ := Module.exists_reaches _ ((Text.lines source).drop (first + 1)) hopen
  rw [← List.drop_eq_getElem_cons hlt] at hreaches
  have hreach := hreaches.lt
  rw [List.length_drop] at hreach
  have hbalanced (middle : Nat) (hmiddle : middle ≤ last) :
      Balanced (Text.lines source) (parse source) first (first + middle) ↔
        Module.headers 0 (((Text.lines source).drop first).take (middle + 1)) ≤
          Module.endings (Module.rows 0 (((Text.lines source).drop first).take (middle + 1))) := by
    rw [Balanced, Nat.add_assoc, endings_parse h hreaches (Nat.succ_le_succ hmiddle),
      List.drop_take, Nat.add_sub_cancel_left]
  refine ⟨first + last, Nat.le_add_right _ _, by omega, ?_, ?_, ?_⟩
  · rw [frames_of_header h, hreaches.frames_eq, List.drop_drop, List.drop_take, Nat.add_assoc,
      Nat.add_sub_cancel_left]
  · intro middle hle hmiddle hclosed
    obtain ⟨middle, rfl⟩ := Nat.exists_eq_add_of_le hle
    have hless := hreaches.unbalanced middle (by omega)
    have hclosed := (hbalanced middle (by omega)).mp hclosed
    omega
  · intro hend
    refine (hbalanced last (Nat.le_refl last)).mpr ?_
    have hless := hreaches.balanced (by rw [List.length_drop]; omega)
    omega

namespace Located

variable (h : Located source first last)
include h

-- The end of the module is the last line of code, if there is a line below.
theorem endsAt (hlast : last + 1 < (Text.lines source).length) :
    EndsAt (Text.lines source) (parse source) first last :=
  ⟨h.le, h.lt, h.balanced hlast, h.unbalanced⟩

theorem eq_of_endsAt {other : Nat} (hother : EndsAt (Text.lines source) (parse source) first other) :
    other = last := by
  rcases Nat.lt_trichotomy other last with hlt | heq | hlt
  · exact absurd hother.balanced (h.unbalanced other hother.le hlt)
  · exact heq
  · have hbelow := hother.lt
    exact absurd (h.balanced (by omega)) (hother.unbalanced last h.le hlt)

theorem getElem?_frames_above (hindex : index < first) :
    (frames source)[index]? = (Text.lines source)[index]?.map Frame.prolog := by
  have hle := h.le
  have hlt := h.lt
  rw [h.frames_eq, List.getElem?_append_left (by simp; omega), List.getElem?_map,
    List.getElem?_take_of_lt hindex]

theorem getElem?_frames_below (hindex : last < index) :
    (frames source)[index]? = (Text.lines source)[index]?.map Frame.epilog := by
  have hle := h.le
  have hlt := h.lt
  have hlength : (((Text.lines source).take first).map Frame.prolog).length +
      (Module.frames 0 (((Text.lines source).take (last + 1)).drop first)).length = last + 1 := by
    simp [Module.length_frames]
    omega
  rw [h.frames_eq, ← List.append_assoc, List.getElem?_append_right (by simp at hlength ⊢; omega),
    List.length_append, hlength, List.getElem?_map, List.getElem?_drop,
    Nat.add_sub_cancel' hindex]

theorem holdsNoProse (hfirst : first ≤ index) (hlast : index ≤ last) {frame : Frame}
    (hframe : (frames source)[index]? = some frame) : frame.row.HoldsNoProse := by
  have hle := h.le
  have hlt := h.lt
  rw [h.frames_eq, List.getElem?_append_right (by simp; omega),
    List.getElem?_append_left (by simp [Module.length_frames]; omega)] at hframe
  exact Module.holdsNoProse_of_mem_frames (List.mem_of_getElem? hframe)

end Located

-- The rows above and below the module are prose, one token for each line, and no row of it is.
theorem framed_parse (source : Text) : Framed (Text.lines source) (parse source) where
  length_eq := length_parse source
  whole := by
    intro hnone row hrow
    have hany : (Text.lines source).any Module.isHeader = false := by
      rw [← List.findIdx?_isSome, hnone]
      rfl
    obtain ⟨index, hindex⟩ := List.getElem?_of_mem hrow
    obtain ⟨frame, hframe, hbare⟩ := exists_frame hindex
    simp only [frames, hany] at hframe
    exact (Module.holdsNoProse_of_mem_frames (List.mem_of_getElem? hframe)).of_bare hbare
  prolog := by
    intro first hfirst index line hindex hline
    obtain ⟨last, hlocated⟩ := exists_located hfirst
    have hframe := hlocated.getElem?_frames_above hindex
    rw [hline, Option.map_some] at hframe
    exact parse_of_prose hframe rfl rfl
  epilog := by
    intro first last hfirst hends index line hindex hline
    obtain ⟨other, hlocated⟩ := exists_located hfirst
    obtain rfl := hlocated.eq_of_endsAt hends
    have hframe := hlocated.getElem?_frames_below hindex
    rw [hline, Option.map_some] at hframe
    exact parse_of_prose hframe rfl rfl
  inside := by
    intro first hfirst index row hindex hlast hrow
    obtain ⟨last, hlocated⟩ := exists_located hfirst
    obtain ⟨frame, hframe, hbare⟩ := exists_frame hrow
    have hle : index ≤ last := by
      by_contra hbelow
      have hlt := (List.getElem?_eq_some_iff.mp hrow).1
      rw [length_parse] at hlt
      exact hbelow (hlast last (hlocated.endsAt (by omega)))
    exact (hlocated.holdsNoProse hindex hle hframe).of_bare hbare

end Located

end Grid

end TlaGlyph
