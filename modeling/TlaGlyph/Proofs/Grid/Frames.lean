import Mathlib.Data.List.TakeWhile
import TlaGlyph.Grid.Module

namespace TlaGlyph

namespace Text

theorem mem_of_mem_chomp {c : Char} {line : Text} (h : c ∈ chomp line) : c ∈ line := by
  unfold chomp at h
  split at h
  · exact (List.dropLast_sublist line).subset h
  · exact h

theorem newline_not_mem_of_mem_lines {text line : Text} (h : line ∈ lines text) : '\n' ∉ line := by
  fun_induction lines text with
  | case1 => cases h
  | case2 text hdrop hempty =>
      obtain rfl := List.mem_singleton.mp h
      intro hmem
      simpa using List.dropWhile_eq_nil_iff.mp hdrop _ hmem
  | case3 text c rest hdrop hlt ih =>
      rcases List.mem_cons.mp h with rfl | h
      · intro hmem
        simpa using List.all_eq_true.mp List.all_takeWhile _ (mem_of_mem_chomp hmem)
      · exact ih h

end Text

-- A line and how it is read.
inductive Frame where
  | prolog (line : Text)
  | epilog (line : Text)
  -- the line begins inside so many comments
  | code (depth : Nat) (line : Text)
deriving DecidableEq

namespace Frame

def line : Frame → Text
  | prolog line | epilog line | code _ line => line

def row : Frame → Row
  | prolog line => Module.prose .prolog line
  | epilog line => Module.prose .epilog line
  | code depth line => (Row.ofLine depth line).1

-- The first line of code begins inside `depth` comments, and each other one inside those that the one
-- before leaves open.
def Linked : Nat → List Frame → Prop
  | _, [] => True
  | depth, .prolog _ :: rest | depth, .epilog _ :: rest => Linked depth rest
  | depth, .code entered line :: rest => entered = depth ∧ Linked (Row.ofLine depth line).2 rest

theorem linked_prolog {depth : Nat} {rest : List Frame} (lines : List Text)
    (h : Linked depth rest) : Linked depth (lines.map prolog ++ rest) := by
  induction lines with
  | nil => exact h
  | cons line lines ih => exact ih

theorem linked_epilog (depth : Nat) (lines : List Text) : Linked depth (lines.map epilog) := by
  induction lines with
  | nil => trivial
  | cons line lines ih => exact ih

end Frame

namespace Module

-- As in `Module.rows` and `Module.framedRows`.
def frames (depth : Nat) : List Text → List Frame
  | [] => []
  | line :: rest => .code depth line :: frames (Row.ofLine depth line).2 rest

def framesFrom (nesting depth : Nat) : List Text → List Frame
  | [] => []
  | line :: rest =>
    let entered := if depth = 0 ∧ isHeader line then nesting + 1 else nesting
    let row := Row.ofLine depth line
    let left := entered - endMarkers row.1
    .code depth line ::
      if 0 < endMarkers row.1 ∧ left = 0 then rest.map Frame.epilog
      else framesFrom left row.2 rest

theorem row_frames (depth : Nat) (lines : List Text) :
    (frames depth lines).map Frame.row = rows depth lines := by
  induction lines generalizing depth with
  | nil => rfl
  | cons line rest ih => simp only [frames, rows, List.map_cons, Frame.row, ih]

theorem line_frames (depth : Nat) (lines : List Text) :
    (frames depth lines).map Frame.line = lines := by
  induction lines generalizing depth with
  | nil => rfl
  | cons line rest ih => simp only [frames, List.map_cons, Frame.line, ih]

theorem linked_frames (depth : Nat) (lines : List Text) :
    Frame.Linked depth (frames depth lines) := by
  induction lines generalizing depth with
  | nil => trivial
  | cons line rest ih => exact ⟨rfl, ih _⟩

theorem row_framesFrom (nesting depth : Nat) (lines : List Text) :
    (framesFrom nesting depth lines).map Frame.row = framedRows nesting depth lines := by
  induction lines generalizing nesting depth with
  | nil => rfl
  | cons line rest ih =>
      simp only [framesFrom, framedRows, List.map_cons, Frame.row]
      generalize (if depth = 0 ∧ isHeader line then nesting + 1 else nesting) = entered
      congr 1
      split
      · rw [List.map_map]
        rfl
      · exact ih _ _

theorem line_framesFrom (nesting depth : Nat) (lines : List Text) :
    (framesFrom nesting depth lines).map Frame.line = lines := by
  induction lines generalizing nesting depth with
  | nil => rfl
  | cons line rest ih =>
      simp only [framesFrom, List.map_cons, Frame.line]
      generalize (if depth = 0 ∧ isHeader line then nesting + 1 else nesting) = entered
      congr 1
      split
      · rw [List.map_map]
        exact List.map_id rest
      · exact ih _ _

theorem linked_framesFrom (nesting depth : Nat) (lines : List Text) :
    Frame.Linked depth (framesFrom nesting depth lines) := by
  induction lines generalizing nesting depth with
  | nil => trivial
  | cons line rest ih =>
      refine ⟨rfl, ?_⟩
      generalize (if depth = 0 ∧ isHeader line then nesting + 1 else nesting) = entered
      split
      · exact Frame.linked_epilog _ rest
      · exact ih _ _

end Module

namespace Grid

def frames (source : Text) : List Frame :=
  let lines := Text.lines source
  if lines.any Module.isHeader then
    (lines.takeWhile (!Module.isHeader ·)).map Frame.prolog ++
      Module.framesFrom 0 0 (lines.dropWhile (!Module.isHeader ·))
  else Module.frames 0 lines

theorem ofSource_eq_frames (source : Text) : ofSource source = (frames source).map Frame.row := by
  simp only [ofSource, frames]
  split
  · rw [List.map_append, List.map_map, Module.row_framesFrom]
    rfl
  · rw [Module.row_frames]

theorem line_frames (source : Text) : (frames source).map Frame.line = Text.lines source := by
  simp only [frames]
  split
  · rw [List.map_append, List.map_map, Module.line_framesFrom]
    exact (congrArg (· ++ _) (List.map_id _)).trans List.takeWhile_append_dropWhile
  · rw [Module.line_frames]

theorem linked_frames (source : Text) : Frame.Linked 0 (frames source) := by
  simp only [frames]
  split
  · exact Frame.linked_prolog _ (Module.linked_framesFrom 0 0 _)
  · exact Module.linked_frames 0 _

end Grid

end TlaGlyph
