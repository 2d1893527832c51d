import Mathlib.Data.List.Basic
import TlaGlyph.FileSystem.Basic

namespace TlaGlyph.FileSystem

-- The steps of a path one by one.
theorem bind_eq_ok {α β : Type} {x : Except FileError α} {f : α → Except FileError β} {b : β} :
    (x >>= f) = .ok b ↔ ∃ a, x = .ok a ∧ f a = .ok b := by
  cases x with
  | error cause => simp [bind, Except.bind]
  | ok a => simp [bind, Except.bind]

variable {files : FileSystem} {location other next : Location} {entry : Entry} {path : Text}

theorem lookup?_nil (files : FileSystem) : files.lookup? [] = some .directory := rfl

theorem checkDirectory_eq_ok_iff :
    files.checkDirectory other = .ok () ↔ files.lookup? other = some .directory := by
  unfold checkDirectory
  split
  · next h => simp [h]
  · next h => simp [h]
  · next h => simp [h]

-- An entry in the place of no directory leaves every directory as it is.
theorem checkDirectory_put (hplace : files.lookup? location ≠ some .directory)
    (h : files.checkDirectory other = .ok ()) :
    (files.put location entry).checkDirectory other = .ok () := by
  rw [checkDirectory_eq_ok_iff] at h ⊢
  by_cases hroot : other = []
  · rw [hroot, lookup?_nil]
  · have hne : other ≠ location := by
      rintro rfl
      exact hplace h
    rw [lookup?_put _ _ _ _ hroot, if_neg hne, h]

theorem enter_put {piece : Text} (hplace : files.lookup? location ≠ some .directory)
    (h : files.enter other piece = .ok next) :
    (files.put location entry).enter other piece = .ok next := by
  unfold enter at h ⊢
  rw [bind_eq_ok] at h ⊢
  obtain ⟨⟨⟩, hdirectory, hstep⟩ := h
  exact ⟨(), checkDirectory_put hplace hdirectory, hstep⟩

theorem walk_put {pieces : List Text} (hplace : files.lookup? location ≠ some .directory)
    (h : files.walk path pieces = .ok next) :
    (files.put location entry).walk path pieces = .ok next := by
  unfold walk at h ⊢
  change pieces.foldlM (files.put location entry).enter
    (if Path.isAbsolute path then [] else files.current) = .ok next
  generalize (if Path.isAbsolute path then [] else files.current) = start at h ⊢
  induction pieces generalizing start with
  | nil => exact h
  | cons piece pieces ih =>
      rw [List.foldlM_cons, bind_eq_ok] at h ⊢
      obtain ⟨middle, hstep, hrest⟩ := h
      exact ⟨middle, enter_put hplace hstep, ih middle hrest⟩

-- A path without a slash at its end, in front of its last piece.
theorem eq_concat_of_dropWhile {pieces above : List Text} {name : Text}
    (h : pieces.reverse.dropWhile List.isEmpty = name :: above) (hlast : pieces.getLast? ≠ some []) :
    pieces = above.reverse ++ [name] := by
  rcases List.eq_nil_or_concat pieces with rfl | ⟨front, last, rfl⟩
  · cases h
  · rw [List.concat_eq_append] at hlast h ⊢
    have hne : last.isEmpty = false := by simpa using hlast
    rw [List.reverse_append, List.reverse_singleton, List.singleton_append,
      List.dropWhile_cons_of_neg (by simp [hne])] at h
    obtain ⟨rfl, rfl⟩ := List.cons.inj h
    rw [List.reverse_reverse]

-- A file is created where its path leads, and not in the place of a directory.
theorem of_place (h : files.place path = .ok location) :
    checkPath path = .ok () ∧ files.walk path (Path.pieces path) = .ok location ∧
      files.lookup? location ≠ some .directory := by
  simp only [place] at h
  obtain ⟨⟨⟩, hpath, h⟩ := bind_eq_ok.mp h
  refine ⟨hpath, ?_⟩
  split at h
  · cases h
  · next name above hpieces =>
    obtain ⟨directory, hwalk, h⟩ := bind_eq_ok.mp h
    obtain ⟨⟨⟩, -, h⟩ := bind_eq_ok.mp h
    split at h
    · cases h
    · next hlast =>
      obtain ⟨found, henter, h⟩ := bind_eq_ok.mp h
      have hpath : files.walk path (Path.pieces path) = .ok found := by
        rw [eq_concat_of_dropWhile hpieces hlast, walk, List.foldlM_append, bind_eq_ok]
        exact ⟨directory, hwalk, by simpa using henter⟩
      split at h
      · cases h
      · next hfound =>
        obtain rfl := Except.ok.inj h
        exact ⟨hpath, by simp [hfound]⟩
      · next hfound =>
        obtain rfl := Except.ok.inj h
        exact ⟨hpath, by simp [hfound]⟩

theorem read_put {content : ByteArray} (h : files.place path = .ok location) :
    (files.put location (.file content)).read path = .ok content := by
  obtain ⟨hpath, hwalk, hplace⟩ := of_place h
  have hroot : location ≠ [] := by
    rintro rfl
    exact hplace (lookup?_nil files)
  have hfound := lookup?_put files location location (.file content) hroot
  rw [if_pos rfl] at hfound
  simp only [read]
  refine bind_eq_ok.mpr ⟨(), hpath, bind_eq_ok.mpr ⟨location, walk_put hplace hwalk, ?_⟩⟩
  rw [hfound]

-- The file system holds the content under the path, and is as before everywhere else.
structure Holds (files after : FileSystem) (path : Text) (content : ByteArray) : Prop where
  read : after.read path = .ok content
  current : after.current = files.current
  kept : ∃ location, files.place path = .ok location ∧
    ∀ other, other ≠ location → after.lookup? other = files.lookup? other

-- What is saved under a path is read back under it, and nothing else changes.
theorem exists_of_save (content : ByteArray) (h : files.place path = .ok location) :
    ∃ after, files.save path content = .ok after ∧ files.Holds after path content := by
  refine ⟨files.put location (.file content), by rw [save, h]; rfl, read_put h, rfl, location, h, ?_⟩
  intro other hother
  by_cases hroot : other = []
  · rw [hroot, lookup?_nil, lookup?_nil]
  · rw [lookup?_put _ _ _ _ hroot, if_neg hother]

end TlaGlyph.FileSystem
