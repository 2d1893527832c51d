import Mathlib.Data.List.Basic
import Mathlib.Data.List.Induction
import Mathlib.Logic.Relation
import TlaGlyph.FileSystem.Path

namespace TlaGlyph

namespace Path

theorem pieces_slash (path : Text) : pieces ('/' :: path) = [] :: pieces path := rfl

theorem exists_pieces (path : Text) : ∃ first rest, pieces path = first :: rest ∧
    ∀ c, c ≠ '/' → pieces (c :: path) = (c :: first) :: rest := by
  have hne : pieces path ≠ [] := by
    induction path with
    | nil => exact List.cons_ne_nil _ _
    | cons c path ih =>
        rw [pieces]
        split
        · exact List.cons_ne_nil _ _
        · simpa using ih
  obtain ⟨first, rest, hpieces⟩ := List.exists_cons_of_ne_nil hne
  refine ⟨first, rest, hpieces, fun c hc => ?_⟩
  rw [pieces, if_neg hc, hpieces, List.modifyHead_cons]

theorem pieces_append (front back : Text) :
    pieces (front ++ '/' :: back) = pieces front ++ pieces back := by
  induction front with
  | nil => rfl
  | cons c front ih =>
      by_cases hc : c = '/'
      · subst hc
        rw [List.cons_append, pieces_slash, pieces_slash, ih, List.cons_append]
      · obtain ⟨first, rest, hfront, hcons⟩ := exists_pieces front
        rw [List.cons_append, pieces, if_neg hc, ih, hcons c hc, hfront, List.cons_append,
          List.modifyHead_cons, List.cons_append]

theorem pieces_eq_singleton {name : Text} (hname : '/' ∉ name) : pieces name = [name] := by
  induction name with
  | nil => rfl
  | cons c name ih =>
      rw [List.mem_cons, not_or] at hname
      rw [pieces, if_neg (Ne.symm hname.1), ih hname.2, List.modifyHead_cons]

theorem slash_notMem_of_mem_pieces {path piece : Text} (h : piece ∈ pieces path) : '/' ∉ piece := by
  induction path generalizing piece with
  | nil =>
      obtain rfl := List.mem_singleton.mp h
      exact List.not_mem_nil
  | cons c path ih =>
      by_cases hc : c = '/'
      · subst hc
        rcases List.mem_cons.mp h with rfl | h
        · exact List.not_mem_nil
        · exact ih h
      · obtain ⟨first, rest, hpath, hcons⟩ := exists_pieces path
        rw [hpath] at ih
        rw [hcons c hc] at h
        rcases List.mem_cons.mp h with rfl | h
        · rw [List.mem_cons, not_or]
          exact ⟨Ne.symm hc, ih List.mem_cons_self⟩
        · exact ih (List.mem_cons_of_mem _ h)

-- The pieces of an absolute path stand behind its slashes.
theorem flatMap_pieces (path : Text) : (pieces path).flatMap ('/' :: ·) = '/' :: path := by
  induction path with
  | nil => rfl
  | cons c path ih =>
      by_cases hc : c = '/'
      · subst hc
        rw [pieces_slash, List.flatMap_cons, ih]
        rfl
      · obtain ⟨first, rest, hpath, hcons⟩ := exists_pieces path
        rw [hpath, List.flatMap_cons] at ih
        rw [hcons c hc, List.flatMap_cons]
        exact congrArg (fun tail => '/' :: c :: tail) (List.cons.inj ih).2

-- What names a place below the one before it.
structure IsName (piece : Text) : Prop where
  ne_nil : piece ≠ []
  ne_dot : piece ≠ ['.']
  ne_dots : piece ≠ ['.', '.']

theorem step_cases (location : Location) (piece : Text) :
    ((piece = [] ∨ piece = ['.']) ∧ step location piece = location) ∨
      (piece = ['.', '.'] ∧ step location piece = location.dropLast) ∨
      (IsName piece ∧ step location piece = location ++ [piece]) := by
  unfold step
  split
  · next hstay => exact .inl ⟨hstay, rfl⟩
  · next hstay =>
    rw [not_or] at hstay
    split
    · next hdots => exact .inr (.inl ⟨hdots, rfl⟩)
    · next hdots => exact .inr (.inr ⟨⟨hstay.1, hstay.2, hdots⟩, rfl⟩)

theorem IsName.step {piece : Text} (h : IsName piece) (location : Location) :
    step location piece = location ++ [piece] := by
  rw [Path.step, if_neg (not_or.mpr ⟨h.ne_nil, h.ne_dot⟩), if_neg h.ne_dots]

-- The names that are left of the pieces of an absolute path, taken from left to right. No name and a
-- single dot leave them alone. Two dots take the last one away if there is one.
inductive Leads : List Text → Location → Prop
  | root : Leads [] []
  | stay {front : List Text} {piece : Text} {location : Location} (hpiece : piece = [] ∨ piece = ['.'])
      (hfront : Leads front location) : Leads (front ++ [piece]) location
  | up {front : List Text} {name : Text} {location : Location}
      (hfront : Leads front (location ++ [name])) : Leads (front ++ [['.', '.']]) location
  | top {front : List Text} (hfront : Leads front []) : Leads (front ++ [['.', '.']]) []
  | down {front : List Text} {name : Text} {location : Location} (hname : IsName name)
      (hfront : Leads front location) : Leads (front ++ [name]) (location ++ [name])

theorem leads_iff {list : List Text} {location : Location} :
    Leads list location ↔ list.foldl step [] = location := by
  constructor
  · intro h
    induction h with
    | root => rfl
    | stay hpiece hfront ih => rw [List.foldl_concat, ih, step, if_pos hpiece]
    | up hfront ih =>
        rw [List.foldl_concat, ih]
        exact List.dropLast_concat
    | top hfront ih =>
        rw [List.foldl_concat, ih]
        rfl
    | down hname hfront ih => rw [List.foldl_concat, ih, hname.step]
  · rintro rfl
    induction list using List.reverseRecOn with
    | nil => exact .root
    | append_singleton front piece ih =>
        rw [List.foldl_concat]
        generalize front.foldl step [] = location at ih ⊢
        rcases step_cases location piece with ⟨hstay, hstep⟩ | ⟨rfl, hstep⟩ | ⟨hname, hstep⟩
        · rw [hstep]
          exact .stay hstay ih
        · rw [hstep]
          rcases List.eq_nil_or_concat' location with rfl | ⟨init, name, rfl⟩
          · exact .top ih
          · rw [List.dropLast_concat]
            exact .up ih
        · rw [hstep]
          exact .down hname ih

-- The absolute spelling of a path that is read in the directory.
def absolute (directory path : Text) : Text :=
  if isAbsolute path then path else directory ++ '/' :: path

theorem resolve_root (path : Text) : resolve [] path = (pieces path).foldl step [] := by
  rw [resolve, ite_self]

theorem resolve_absolute (directory path : Text) :
    resolve (resolve [] directory) path = resolve [] (absolute directory path) := by
  rw [resolve_root directory, resolve_root, resolve, absolute]
  split
  · rfl
  · rw [pieces_append, List.foldl_append]

theorem isAbsolute_append {front : Text} (hfront : front ≠ []) (back : Text) :
    isAbsolute (front ++ back) = isAbsolute front := by
  cases front with
  | nil => exact absurd rfl hfront
  | cons c front => rfl

theorem isAbsolute_absolute {directory : Text} (hdirectory : isAbsolute directory = true)
    (path : Text) : isAbsolute (absolute directory path) = true := by
  unfold absolute
  split
  · next hpath => exact hpath
  · rw [isAbsolute_append (by rintro rfl; cases hdirectory), hdirectory]

-- What leads nowhere if it is put behind a slash. No name makes one more slash.
inductive Idle : Text → Prop
  | slash : Idle []
  | dot : Idle ['.']
  | back {name : Text} (hname : IsName name) (hslash : '/' ∉ name) : Idle (name ++ ['/', '.', '.'])

theorem Idle.foldl_step {extra : Text} (h : Idle extra) (location : Location) :
    (pieces extra).foldl step location = location := by
  cases h with
  | slash | dot => rfl
  | @back name hname hslash =>
      have hpieces : pieces (name ++ ['/', '.', '.']) = [name, ['.', '.']] := by
        rw [pieces_append name ['.', '.'], pieces_eq_singleton hslash]
        rfl
      rw [hpieces, List.foldl_cons, hname.step]
      exact List.dropLast_concat

-- Longer spellings of the same path.
inductive Detour : Text → Text → Prop
  | between {front back extra : Text} (hextra : Idle extra) :
      Detour (front ++ '/' :: back) (front ++ '/' :: (extra ++ '/' :: back))
  | behind {path extra : Text} (hpath : path ≠ []) (hextra : Idle extra) :
      Detour path (path ++ '/' :: extra)
  -- nothing is above the root
  | top {path : Text} : Detour ('/' :: path) ('/' :: '.' :: '.' :: '/' :: path)

theorem Detour.resolve {path other : Text} (h : Detour path other) (base : Location) :
    resolve base other = resolve base path := by
  cases h with
  | @between front back extra hextra =>
      have habsolute : isAbsolute (front ++ '/' :: (extra ++ '/' :: back)) =
          isAbsolute (front ++ '/' :: back) := by
        cases front <;> rfl
      simp only [Path.resolve, habsolute, pieces_append, List.foldl_append, hextra.foldl_step]
  | behind hpath hextra =>
      simp only [Path.resolve, isAbsolute_append hpath, pieces_append, List.foldl_append,
        hextra.foldl_step]
  | top => rfl

theorem Detour.append {path other : Text} (h : Detour path other) (back : Text) :
    Detour (path ++ '/' :: back) (other ++ '/' :: back) := by
  cases h with
  | @between front tail extra hextra =>
      have hdetour := @between front (tail ++ '/' :: back) extra hextra
      simpa using hdetour
  | @behind path extra hpath hextra =>
      have hdetour := @between path back extra hextra
      simpa using hdetour
  | top => exact top

-- The same path up to detours.
abbrev Detours : Text → Text → Prop := Relation.EqvGen Detour

theorem Detour.longer {path other : Text} (h : Detour path other) : Detours path other :=
  .rel _ _ h

theorem Detour.shorter {path other : Text} (h : Detour path other) : Detours other path :=
  .symm _ _ (.rel _ _ h)

theorem Detours.append {path other : Text} (h : Detours path other) (back : Text) :
    Detours (path ++ '/' :: back) (other ++ '/' :: back) := by
  induction h with
  | rel path other h => exact .rel _ _ (h.append back)
  | refl path => exact .refl _
  | symm path other h ih => exact .symm _ _ ih
  | trans path other last h hlast ih ihlast => exact .trans _ _ _ ih ihlast

-- The names that are left are pieces of the path.
theorem isName_of_mem {list : List Text} {name : Text} (h : name ∈ list.foldl step []) :
    IsName name ∧ name ∈ list := by
  induction list using List.reverseRecOn with
  | nil => cases h
  | append_singleton front piece ih =>
      rw [List.foldl_concat] at h
      generalize front.foldl step [] = location at ih h
      have hfront (hmem : name ∈ location) : IsName name ∧ name ∈ front ++ [piece] :=
        ⟨(ih hmem).1, List.mem_append_left _ (ih hmem).2⟩
      rcases step_cases location piece with ⟨-, hstep⟩ | ⟨-, hstep⟩ | ⟨hname, hstep⟩
      · rw [hstep] at h
        exact hfront h
      · rw [hstep] at h
        exact hfront (List.dropLast_subset location h)
      · rw [hstep] at h
        rcases List.mem_append.mp h with h | h
        · exact hfront h
        · obtain rfl := List.mem_singleton.mp h
          exact ⟨hname, List.mem_append_right _ h⟩

theorem ofLocation_concat (location : Location) (name : Text) :
    ofLocation (location ++ [name]) = location.flatMap ('/' :: ·) ++ '/' :: name := by
  rw [ofLocation, if_neg (by simp), List.flatMap_append, List.flatMap_singleton]

theorem ofLocation_ne_nil (location : Location) : ofLocation location ≠ [] := by
  rcases List.eq_nil_or_concat' location with rfl | ⟨init, name, rfl⟩
  · exact List.cons_ne_nil _ _
  · simp [ofLocation_concat]

-- At the root a detour goes in front of the last slash.
theorem Idle.detours {extra : Text} (h : Idle extra) (location : Location) :
    Detours (location.flatMap ('/' :: ·) ++ '/' :: extra) (ofLocation location) := by
  rcases List.eq_nil_or_concat' location with rfl | ⟨init, name, rfl⟩
  · have hlast : Detour ('/' :: extra) ('/' :: (extra ++ ['/'])) := .behind (List.cons_ne_nil _ _) .slash
    have hfirst : Detour ['/'] ('/' :: (extra ++ ['/'])) := @Detour.between [] [] extra h
    exact .trans _ _ _ hlast.longer hfirst.shorter
  · have hspell : (init ++ [name]).flatMap ('/' :: ·) = ofLocation (init ++ [name]) := by
      rw [ofLocation_concat, List.flatMap_append, List.flatMap_singleton]
    rw [hspell]
    exact Detour.shorter (.behind (ofLocation_ne_nil _) h)

theorem detours_root (back : Text) : Detours (ofLocation [] ++ '/' :: back) ('/' :: back) :=
  (@Detour.between [] back [] .slash).shorter

theorem detours_step {location : Location} (piece : Text)
    (hlocation : ∀ name ∈ location, IsName name ∧ '/' ∉ name) :
    Detours (ofLocation location ++ '/' :: piece) (ofLocation (step location piece)) := by
  rcases step_cases location piece with ⟨hstay, hstep⟩ | ⟨rfl, hstep⟩ | ⟨-, hstep⟩
  · have hidle : Idle piece := by
      rcases hstay with rfl | rfl
      · exact .slash
      · exact .dot
    rw [hstep]
    exact Detour.shorter (.behind (ofLocation_ne_nil location) hidle)
  · rw [hstep]
    rcases List.eq_nil_or_concat' location with rfl | ⟨init, name, rfl⟩
    · have hlast : Detour ['/', '.', '.'] ['/', '.', '.', '/'] := .behind (List.cons_ne_nil _ _) .slash
      have htop : Detour ['/'] ['/', '.', '.', '/'] := .top
      exact .trans _ _ _ (detours_root _) (.trans _ _ _ hlast.longer htop.shorter)
    · obtain ⟨hname, hslash⟩ := hlocation name (List.mem_append_right _ List.mem_cons_self)
      have hback := (Idle.back hname hslash).detours init
      rw [ofLocation_concat, List.dropLast_concat]
      simpa using hback
  · rw [hstep, ofLocation_concat]
    rcases List.eq_nil_or_concat' location with rfl | ⟨init, name, rfl⟩
    · exact detours_root piece
    · rw [ofLocation_concat, List.flatMap_append, List.flatMap_singleton]
      exact .refl _

-- The names come and go at the end, so that the last piece is added to a path that has been brought to
-- the spelling of its place already.
theorem detours_foldl {list : List Text} (hne : list ≠ []) (hlist : ∀ piece ∈ list, '/' ∉ piece) :
    Detours (list.flatMap ('/' :: ·)) (ofLocation (list.foldl step [])) := by
  induction list using List.reverseRecOn with
  | nil => exact absurd rfl hne
  | append_singleton front piece ih =>
      have hfront : ∀ name ∈ front, '/' ∉ name := fun name hname =>
        hlist name (List.mem_append_left _ hname)
      have hlast := detours_step piece fun name hname =>
        ⟨(isName_of_mem hname).1, hfront name (isName_of_mem hname).2⟩
      rw [List.flatMap_append, List.flatMap_singleton, List.foldl_concat]
      refine .trans _ _ _ ?_ hlast
      by_cases hempty : front = []
      · subst hempty
        exact .symm _ _ (detours_root piece)
      · exact (ih hempty hfront).append piece

-- An absolute path comes down to the spelling of its place.
theorem detours_ofLocation {path : Text} (hpath : isAbsolute path = true) :
    Detours path (ofLocation (resolve [] path)) := by
  obtain ⟨rest, rfl⟩ := List.head?_eq_some_iff.mp (of_decide_eq_true hpath)
  have hne : pieces rest ≠ [] := by
    obtain ⟨first, others, hrest, -⟩ := exists_pieces rest
    rw [hrest]
    exact List.cons_ne_nil _ _
  have hdetours := detours_foldl hne fun _ => slash_notMem_of_mem_pieces
  rwa [flatMap_pieces] at hdetours

-- What a path that is read in the directory may be replaced by.
inductive Respelling (directory : Text) : Text → Text → Prop
  | detour {path other : Text} (h : Detour path other) : Respelling directory path other
  | absolute {path : Text} : Respelling directory path (absolute directory path)

abbrev Respells (directory : Text) : Text → Text → Prop := Relation.EqvGen (Respelling directory)

-- Two paths come down to the same names just when one of them is a respelling of the other.
theorem respells_iff {directory : Text} (hdirectory : isAbsolute directory = true)
    {path other : Text} : Respells directory path other ↔
      resolve [] (absolute directory path) = resolve [] (absolute directory other) := by
  constructor
  · intro h
    induction h with
    | rel path other h =>
        cases h with
        | detour h => rw [← resolve_absolute, ← resolve_absolute, h.resolve]
        | absolute =>
            have hagain : absolute directory (absolute directory path) = absolute directory path :=
              if_pos (isAbsolute_absolute hdirectory path)
            rw [hagain]
    | refl => rfl
    | symm path other h ih => exact ih.symm
    | trans path other last h hlast ih ihlast => exact ih.trans ihlast
  · intro h
    have hdown (path : Text) :
        Respells directory path (ofLocation (resolve [] (absolute directory path))) := by
      have hdetours := detours_ofLocation (isAbsolute_absolute hdirectory path)
      exact .trans _ _ _ (.rel _ _ .absolute) (hdetours.mono fun _ _ => .detour)
    exact .trans _ _ _ (hdown path) (.symm _ _ (h ▸ hdown other))

end Path

end TlaGlyph
