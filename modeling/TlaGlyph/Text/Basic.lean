namespace TlaGlyph

-- A column is a position in the list, and a width is a length.
abbrev Text := List Char

namespace Text

def spaces (count : Nat) : Text := List.replicate count ' '

@[simp] theorem length_spaces (count : Nat) : (spaces count).length = count := by
  simp [spaces]

-- The number of bytes that the text takes as UTF-8.
def utf8Width (text : Text) : Nat := text.foldr (fun c width => c.utf8Size + width) 0

-- A carriage return in front of a newline belongs to the line ending.
-- Only one does: the ones before it are part of the line.
def chomp (line : Text) : Text :=
  if line.getLast? = some '\r' then line.dropLast else line

-- A line ends at a newline. Text after the last newline is a line of its own,
-- which keeps its carriage return, and there is no such line if nothing is left.
def lines (text : Text) : List Text :=
  match h : text.dropWhile (· != '\n') with
  | [] => if text.isEmpty then [] else [text]
  | _ :: rest =>
    have : rest.length < text.length := by
      have hle := (List.dropWhile_suffix (l := text) (· != '\n')).length_le
      rwa [h, List.length_cons] at hle
    chomp (text.takeWhile (· != '\n')) :: lines rest
termination_by text.length

-- Every line is closed by a newline, the last one too.
def unlines (lines : List Text) : Text := lines.flatMap (· ++ ['\n'])

-- How many characters in front satisfy `p`.
def run (p : Char → Bool) (text : Text) : Nat := (text.takeWhile p).length

-- The length of the longest of `words` that the text begins with.
def longestPrefix? (words : List Text) (text : Text) : Option Nat :=
  ((words.filter (·.isPrefixOf text)).map List.length).max?

-- What stands before and after the first occurrence of `mark`.
def splitAt? (mark : Text) : Text → Option (Text × Text)
  | [] => if mark.isEmpty then some ([], []) else none
  | c :: rest =>
    if mark.isPrefixOf (c :: rest) then some ([], (c :: rest).drop mark.length)
    else (splitAt? mark rest).map fun (before, after) => (c :: before, after)

theorem eq_of_splitAt? {mark text before after : Text}
    (h : splitAt? mark text = some (before, after)) : text = before ++ mark ++ after := by
  induction text generalizing before with
  | nil =>
    simp only [splitAt?] at h
    split at h
    · next hmark =>
      obtain ⟨rfl, rfl⟩ := Prod.mk.inj (Option.some.inj h)
      rw [List.isEmpty_iff.mp hmark]
      rfl
    · cases h
  | cons c rest ih =>
    simp only [splitAt?] at h
    split at h
    · next hmark =>
      obtain ⟨rfl, rfl⟩ := Prod.mk.inj (Option.some.inj h)
      obtain ⟨tail, htail⟩ := List.isPrefixOf_iff_prefix.mp hmark
      rw [← htail, List.drop_left, List.nil_append]
    · obtain ⟨⟨inner, last⟩, hinner, heq⟩ := Option.map_eq_some_iff.mp h
      obtain ⟨rfl, rfl⟩ := Prod.mk.inj heq
      rw [ih hinner]
      rfl

theorem dropWhile_line (line rest : Text) (hline : '\n' ∉ line) :
    (line ++ '\n' :: rest).dropWhile (· != '\n') = '\n' :: rest := by
  induction line with
  | nil => simp
  | cons c line ih =>
    simp only [List.mem_cons, not_or] at hline
    have hc : (c != '\n') = true := by simpa using Ne.symm hline.1
    simp [hc, ih hline.2]

theorem takeWhile_line (line rest : Text) (hline : '\n' ∉ line) :
    (line ++ '\n' :: rest).takeWhile (· != '\n') = line := by
  induction line with
  | nil => simp
  | cons c line ih =>
    simp only [List.mem_cons, not_or] at hline
    have hc : (c != '\n') = true := by simpa using Ne.symm hline.1
    simp [hc, ih hline.2]

theorem lines_cons (line rest : Text) (hline : '\n' ∉ line) :
    lines (line ++ '\n' :: rest) = chomp line :: lines rest := by
  rw [lines]
  split
  · next h => simp [dropWhile_line line rest hline] at h
  · next c tail h =>
    rw [dropWhile_line line rest hline] at h
    obtain ⟨rfl, rfl⟩ := List.cons.inj h
    rw [takeWhile_line line rest hline]

end Text

end TlaGlyph
