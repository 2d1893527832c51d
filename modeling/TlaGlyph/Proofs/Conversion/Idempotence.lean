import TlaGlyph.Proofs.Conversion.Steady

namespace TlaGlyph

namespace Text

theorem unlines_cons (line : Text) (list : List Text) :
    unlines (line :: list) = line ++ '\n' :: unlines list := by
  simp [unlines]

-- What stands in front of a newline is at least one line.
theorem length_lines_lt (line rest : Text) :
    (lines rest).length < (lines (line ++ '\n' :: rest)).length := by
  induction hlength : line.length using Nat.strongRecOn generalizing line with
  | ind length ih =>
      by_cases hnewline : '\n' ∈ line
      · obtain ⟨first, last, rfl, hfirst⟩ := List.eq_append_cons_of_mem hnewline
        have hlast := ih last.length (by simp [← hlength]; omega) last rfl
        rw [List.append_assoc, List.cons_append, lines_cons _ _ hfirst, List.length_cons]
        omega
      · rw [lines_cons _ _ hnewline, List.length_cons]
        exact Nat.lt_succ_self _

theorem length_le_length_lines (list : List Text) : list.length ≤ (lines (unlines list)).length := by
  induction list with
  | nil => exact Nat.zero_le _
  | cons line list ih =>
      have hlt := length_lines_lt line (unlines list)
      rw [unlines_cons, List.length_cons]
      omega

-- Lines that are cut apart into as many lines hold no newline.
theorem lines_unlines_of_length {list : List Text}
    (h : (lines (unlines list)).length = list.length) : lines (unlines list) = list.map chomp := by
  induction list with
  | nil => simpa using h
  | cons line list ih =>
      have hle := length_le_length_lines list
      rw [unlines_cons, List.length_cons] at h
      by_cases hnewline : '\n' ∈ line
      · obtain ⟨first, last, rfl, hfirst⟩ := List.eq_append_cons_of_mem hnewline
        have hlt := length_lines_lt last (unlines list)
        rw [List.append_assoc, List.cons_append, lines_cons _ _ hfirst, List.length_cons] at h
        omega
      · rw [lines_cons _ _ hnewline, List.length_cons] at h
        rw [unlines_cons, lines_cons _ _ hnewline, ih (by omega), List.map_cons]

-- The conversion has nothing to do on the text. All its lines end with a plain newline and have no white
-- space but spaces in front of their tokens, and all its tokens are settled.
structure Settled (direction : Direction) (text : Text) : Prop where
  lines : unlines (Text.lines text) = text
  tokens : ∀ row ∈ Grid.parse text, ∀ token ∈ row, token.Settled direction
  tidy : ∀ entry ∈ (Grid.parse text).zip (Text.lines text), entry.1.Tidy entry.2

theorem exists_of_convert {direction : Direction} {source text : Text}
    (h : convert direction source = .ok text) :
    ∃ out, convertLines direction source = .ok out ∧ unlines out = text := by
  unfold convert at h
  cases hout : convertLines direction source with
  | error e =>
      rw [hout] at h
      cases h
  | ok out =>
      rw [hout] at h
      exact ⟨out, rfl, Except.ok.inj h⟩

theorem chomp_prefix (line : Text) : chomp line <+: line := by
  unfold chomp
  split
  · exact List.dropLast_prefix line
  · exact List.prefix_rfl

end Text

namespace Grid

variable {direction : Direction} {above rows after : Grid} {texts lines : List Text}

-- If every line comes out as it went in, but for what may follow it, then there was nothing to do on any
-- row. From above the rows stay one after the other.
theorem Runs.settled (h : Runs direction above rows after lines)
    (hread : List.Forall₂ (fun row line => Row.ReadFrom line row) rows texts)
    (habove : ∀ other ∈ above, other.Steady) (hbegins : List.Forall₂ (· <+: ·) texts lines) :
    ∀ row ∈ rows, ∀ token ∈ row, token.Settled direction := by
  induction h generalizing texts with
  | nil => nofun
  | @cons above rest after row written line lines hrow hrest ih =>
      cases hread with
      | @cons _ text _ texts hread hothers =>
      obtain ⟨hline, hlines⟩ := List.forall₂_cons.mp hbegins
      have hsettled := hrow.settled hread habove hline
      obtain ⟨rfl, -⟩ := hrow.eq_kept hread habove hsettled
      intro other hother
      rcases List.mem_cons.mp hother with rfl | hother
      · exact hsettled
      · exact ih hothers (forall_steady_concat habove row) hlines other hother

-- Blanking makes no line longer.
theorem blanked_eq_of_prefix (hread : List.Forall₂ (fun row line => Row.ReadFrom line row) rows texts)
    (hbegins : List.Forall₂ (· <+: ·) texts (List.zipWith Row.blanked rows texts)) :
    ∀ entry ∈ rows.zip texts, entry.1.blanked entry.2 = entry.2 := by
  induction hread with
  | nil => nofun
  | @cons row line rows texts hrow hrest ih =>
      obtain ⟨hline, hlines⟩ := List.forall₂_cons.mp hbegins
      intro entry hentry
      rcases List.mem_cons.mp hentry with rfl | hentry
      · have hstop := Row.stopFrom_le hrow.finish_le
        refine (hline.eq_of_length_le ?_).symm
        rw [Row.blanked, List.length_take, List.length_mapIdx]
        omega
      · exact ih hlines entry hentry

theorem zipWith_blanked (hlength : rows.length = texts.length)
    (h : ∀ entry ∈ rows.zip texts, entry.1.blanked entry.2 = entry.2) :
    List.zipWith Row.blanked rows texts = texts := by
  calc List.zipWith Row.blanked rows texts
      = (rows.zip texts).map (Function.uncurry Row.blanked) := List.map_uncurry_zip_eq_zipWith.symm
    _ = (rows.zip texts).map Prod.snd := List.map_congr_left h
    _ = texts := List.map_snd_zip (Nat.le_of_eq hlength.symm)

end Grid

namespace Text

-- A conversion gives a text back just when it has nothing to do on it.
theorem convert_eq_self_iff (direction : Direction) (text : Text) :
    convert direction text = .ok text ↔ text.Settled direction := by
  have hread := Grid.readFrom_parse text
  constructor
  · intro h
    obtain ⟨out, hout, hsame⟩ := exists_of_convert h
    have hruns := runs_of_convertLines hout
    have hlines : lines text = out.map chomp := by
      have hlength : (lines (unlines out)).length = out.length := by
        rw [hsame, hruns.length_lines, hread.length_eq]
      rw [← hsame, lines_unlines_of_length hlength]
    have hbegins : List.Forall₂ (· <+: ·) (lines text) out := by
      rw [hlines, List.forall₂_map_left_iff]
      exact List.forall₂_same.mpr fun line _ => chomp_prefix line
    have hsettled := hruns.settled hread nofun hbegins
    obtain ⟨-, rfl⟩ := hruns.eq_kept hread nofun hsettled
    have hblanked := Grid.blanked_eq_of_prefix hread hbegins
    refine ⟨?_, hsettled, fun entry hentry => ?_⟩
    · rwa [Grid.zipWith_blanked hread.length_eq hblanked] at hsame
    · have hread : entry.1.ReadFrom entry.2 := List.forall₂_zip hread hentry
      exact (Row.tidy_iff hread.measured hread.finish_le).mpr (hblanked entry hentry)
  · rintro ⟨hlines, hsettled, htidy⟩
    obtain ⟨out, hout⟩ : ∃ out, (Grid.parse text).convert direction = .ok out :=
      Grid.exists_convert hsettled
    obtain ⟨-, rfl⟩ := (runs_of_convertLines hout).eq_kept hread nofun hsettled
    have hblanked : ∀ entry ∈ (Grid.parse text).zip (lines text), entry.1.blanked entry.2 = entry.2 := by
      intro entry hentry
      have hread : entry.1.ReadFrom entry.2 := List.forall₂_zip hread hentry
      exact (Row.tidy_iff hread.measured hread.finish_le).mp (htidy entry hentry)
    have hout : convertLines direction text = .ok _ := hout
    rw [convert, hout, Grid.zipWith_blanked hread.length_eq hblanked, Except.map, hlines]

-- Converting once more changes nothing just when the conversion has left nothing to do.
theorem convert_convert_iff (direction : Direction) (source : Text) :
    (convert direction source).bind (convert direction) = convert direction source ↔
      ∀ text, convert direction source = .ok text → text.Settled direction := by
  cases h : convert direction source with
  | error e => exact iff_of_true rfl nofun
  | ok text =>
      simp only [Except.bind, Except.ok.injEq, forall_eq']
      exact convert_eq_self_iff direction text

-- The run of operator characters takes the slash of the symbol behind it. In the second pass the run is
-- a glyph that takes nothing.
theorem not_forall_convert_convert :
    ¬ ∀ (direction : Direction) (source text : Text), convert direction source = .ok text →
      convert direction text = .ok text := by
  intro h
  have hfirst : convert .toUnicode "=>/\\ x".toList = .ok "⇒/\\ x\n".toList := by decide +kernel
  have hsecond : convert .toUnicode "⇒/\\ x\n".toList = .ok "⇒∧ x\n".toList := by decide +kernel
  have hsame := h _ _ _ hfirst
  rw [hsecond] at hsame
  exact absurd hsame (by decide)

end Text

end TlaGlyph
