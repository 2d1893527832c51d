import TlaGlyph.FileSystem.Path

namespace TlaGlyph

inductive FileError where
  -- an answer of the operating system
  | system (code : Nat) (text : String)
  | nulInPath
  | notUtf8
deriving DecidableEq

namespace FileError

def notFound : FileError := .system 2 "No such file or directory"

def notADirectory : FileError := .system 20 "Not a directory"

def isADirectory : FileError := .system 21 "Is a directory"

def nameTooLong : FileError := .system 36 "File name too long"

def message : FileError → String
  | .system code text => s!"{text} (os error {code})"
  | .nulInPath => "file name contained an unexpected NUL byte"
  | .notUtf8 => "stream did not contain valid UTF-8"

end FileError

inductive FileSystem.Entry where
  | directory
  | file (content : ByteArray)

-- There are no links and no permissions.
structure FileSystem where
  -- the current directory
  current : Location
  entries : List (Location × FileSystem.Entry)

namespace FileSystem

-- The root is there without an entry.
def lookup? (files : FileSystem) (location : Location) : Option Entry :=
  if location = [] then some .directory else files.entries.lookup location

-- Puts an entry at the location, in place of the one that was there.
def put (files : FileSystem) (location : Location) (entry : Entry) : FileSystem :=
  { files with entries := (location, entry) :: files.entries.filter (·.1 ≠ location) }

theorem lookup?_put (files : FileSystem) (location other : Location) (entry : Entry)
    (hother : other ≠ []) :
    (files.put location entry).lookup? other =
      if other = location then some entry else files.lookup? other := by
  by_cases h : other = location
  · subst h
    simp [lookup?, put, hother]
  · have hkept : (files.entries.filter (·.1 ≠ location)).lookup other =
        files.entries.lookup other := by
      induction files.entries with
      | nil => rfl
      | cons first rest ih =>
        obtain ⟨key, value⟩ := first
        by_cases hkey : key = location
        · have hskip : (other == key) = false := by simpa [hkey] using h
          rw [List.filter_cons_of_neg (by simp [hkey]), ih, List.lookup_cons, hskip]
        · rw [List.filter_cons_of_pos (by simpa using hkey), List.lookup_cons, ih,
            List.lookup_cons]
    have hskip : (other == location) = false := by simpa using h
    simp only [lookup?, put, hother, h, if_false, List.lookup_cons, hskip, hkept]

-- The location and all directories on the way to it.
def addDirectory (files : FileSystem) (location : Location) : FileSystem :=
  (List.range location.length).foldl
    (fun files count => files.put (location.take (count + 1)) .directory) files

def addFile (files : FileSystem) (location : Location) (content : ByteArray) : FileSystem :=
  (files.addDirectory location.dropLast).put location (.file content)

-- Nothing but the current directory.
def empty (current : Location) : FileSystem := addDirectory ⟨current, []⟩ current

-- The files below the current directory, by their names from there.
def listFiles (files : FileSystem) : List (Location × ByteArray) :=
  files.entries.filterMap fun (location, entry) =>
    match entry with
    | .file content =>
      if files.current.isPrefixOf location then some (location.drop files.current.length, content)
      else none
    | .directory => none

theorem mem_listFiles_iff {files : FileSystem} {name : Location} {content : ByteArray} :
    (name, content) ∈ files.listFiles ↔ (files.current ++ name, .file content) ∈ files.entries := by
  rw [listFiles, List.mem_filterMap]
  constructor
  · rintro ⟨⟨location, entry⟩, hentry, hlisted⟩
    cases entry with
    | directory => cases hlisted
    | file held =>
      dsimp only at hlisted
      split at hlisted
      · next hbelow =>
        obtain ⟨rest, rfl⟩ := List.isPrefixOf_iff_prefix.mp hbelow
        obtain ⟨rfl, rfl⟩ := Prod.mk.inj (Option.some.inj hlisted)
        rwa [List.drop_left]
      · cases hlisted
  · intro h
    refine ⟨_, h, ?_⟩
    simp [List.isPrefixOf_iff_prefix]

-- A file is listed with what it was given last.
theorem mem_listFiles_put {files : FileSystem} {location name : Location} {content held : ByteArray} :
    (name, held) ∈ (files.put location (.file content)).listFiles ↔
      if files.current ++ name = location then held = content else (name, held) ∈ files.listFiles := by
  rw [mem_listFiles_iff, mem_listFiles_iff]
  split
  · next h => simp [put, h]
  · next h => simp [put, h]

-- The longest name of an entry and the longest path, in bytes.
def maxName : Nat := 255

def maxPath : Nat := 4095

def checkPath (path : Text) : Except FileError Unit :=
  if '\x00' ∈ path then .error .nulInPath
  else if path = [] then .error .notFound
  else if maxPath < Text.utf8Width path then .error .nameTooLong
  else .ok ()

def checkDirectory (files : FileSystem) (location : Location) : Except FileError Unit :=
  match files.lookup? location with
  | none => .error .notFound
  | some (.file _) => .error .notADirectory
  | some .directory => .ok ()

-- One step on a path: only from a directory, and not to a name that is too long.
def enter (files : FileSystem) (location : Location) (piece : Text) :
    Except FileError Location := do
  files.checkDirectory location
  if maxName < Text.utf8Width piece then .error .nameTooLong
  else .ok (Path.step location piece)

def walk (files : FileSystem) (path : Text) (pieces : List Text) : Except FileError Location :=
  pieces.foldlM files.enter (if Path.isAbsolute path then [] else files.current)

def read (files : FileSystem) (path : Text) : Except FileError ByteArray := do
  checkPath path
  let location ← files.walk path (Path.pieces path)
  match files.lookup? location with
  | none => .error .notFound
  | some .directory => .error .isADirectory
  | some (.file content) => .ok content

-- Where a file of this path is created. The directory that it is created in has to be there, and
-- no directory may be at its place. A slash at the end asks for a directory.
def place (files : FileSystem) (path : Text) : Except FileError Location := do
  checkPath path
  let pieces := Path.pieces path
  match pieces.reverse.dropWhile List.isEmpty with
  | [] => .error .isADirectory
  | name :: above =>
    let directory ← files.walk path above.reverse
    files.checkDirectory directory
    if pieces.getLast? = some [] then .error .isADirectory
    else
      let location ← files.enter directory name
      match files.lookup? location with
      | some .directory => .error .isADirectory
      | none | some (.file _) => .ok location

-- Creates the file, or replaces what it held.
def save (files : FileSystem) (path : Text) (content : ByteArray) :
    Except FileError FileSystem :=
  (files.place path).map (files.put · (.file content))

end FileSystem

end TlaGlyph
