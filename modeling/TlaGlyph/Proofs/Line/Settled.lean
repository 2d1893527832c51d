import Mathlib.Data.List.Induction
import TlaGlyph.Proofs.Grid.Anchors
import TlaGlyph.Proofs.Line.Blanked
import TlaGlyph.Proofs.Line.Crowding

namespace TlaGlyph

namespace Symbol

theorem head?_ne_glyph_of_mem_spellings :
    ∀ symbol ∈ table, ∀ text ∈ symbol.spellings, text.head? ≠ some symbol.glyph := by
  decide

-- A symbol and what it is converted to begin with different characters.
theorem head?_ne_of_convert? {direction : Direction} {text image : Text}
    (h : convert? direction text = some image) : text.head? ≠ image.head? := by
  cases direction with
  | toUnicode =>
      obtain ⟨symbol, hmem, rfl, htext⟩ := exists_of_glyph? h
      exact head?_ne_glyph_of_mem_spellings symbol hmem text htext
  | toAscii =>
      obtain ⟨symbol, hmem, rfl, rfl⟩ := exists_of_canonical? h
      exact (head?_ne_glyph_of_mem_spellings symbol hmem _ (by simp [spellings])).symm

theorem ne_nil_of_convert? {direction : Direction} {text image : Text}
    (h : convert? direction text = some image) : image ≠ [] := by
  rintro rfl
  cases direction with
  | toUnicode => cases (convert?_toUnicode_le h).1
  | toAscii => exact absurd (convert?_toAscii_le h).2 (Nat.lt_irrefl 0)

end Symbol

namespace Comment

variable {depth : Nat} {text : Text}

theorem Nested.two_le_length (h : Nested depth text) : 2 ≤ text.length := by
  induction h with
  | last => exact Nat.le_refl 2
  | opens | closes | other =>
      simp only [List.length_cons]
      omega

theorem Complete.four_le_length (h : Complete text) : 4 ≤ text.length := by
  obtain ⟨rest, rfl, hnested⟩ := h
  have := hnested.two_le_length
  simp only [List.length_cons]
  omega

theorem Nested.eq_of_length (h : Nested depth text) (hlength : text.length = 2) :
    text = ['*', ')'] := by
  cases h with
  | last => rfl
  | opens hrest | closes _ hrest | other _ _ hrest =>
      have := hrest.two_le_length
      simp only [List.length_cons] at hlength
      omega

theorem Complete.eq_of_length (h : Complete text) (hlength : text.length = 4) :
    text = ['(', '*', '*', ')'] := by
  obtain ⟨rest, rfl, hnested⟩ := h
  rw [hnested.eq_of_length (by simpa using hlength)]

end Comment

namespace Token

-- The conversion has nothing to do on the token. It is no symbol of the encoding converted from, and it
-- stands on its line the way it is spelled.
structure Settled (direction : Direction) (token : Token) : Prop where
  symbol : token.kind = .builtin → Symbol.convert? direction token.text = none
  spelled : token.width = token.spelling.length

instance (direction : Direction) (token : Token) : Decidable (token.Settled direction) :=
  decidable_of_iff ((token.kind = .builtin → Symbol.convert? direction token.text = none) ∧
      token.width = token.spelling.length)
    ⟨fun h => ⟨h.1, h.2⟩, fun h => ⟨h.symbol, h.spelled⟩⟩

@[simp] theorem bare_span (line : Text) (token : Token) : token.bare.span line = token.span line := rfl

theorem Settled.emission_eq {direction : Direction} {token : Token} (h : token.Settled direction)
    (hwidth : 0 < token.width) : token.emission direction = token.spelling := by
  by_cases hcomment : token.isComment = true
  · exact emission_comment hcomment hwidth
  · rw [emission]
    split
    · next hkind => simp [h.symbol hkind, spelling, hkind, Kind.openMark, Kind.closeMark]
    · next kind hkind => exact absurd hkind (Deferral.ne_comment (by simpa using hcomment) kind)
    · rfl

theorem settled_unwritten {direction : Direction} {token : Token} :
    token.unwritten.Settled direction ↔ token.Settled direction :=
  ⟨fun h => ⟨h.symbol, h.spelled⟩, fun h => ⟨h.symbol, h.spelled⟩⟩

end Token

namespace Row

variable {direction : Direction} {above : Grid} {row written front rest : Row} {token : Token}
  {line out : Text}

-- The tokens of the row were read from the line. What a token stands on is its spelling, or a block
-- comment that a line comment was split off in front of.
structure ReadFrom (line : Text) (row : Row) : Prop where
  measured : row.Measured 0
  finish_le : ∀ token ∈ row, token.finish ≤ line.length
  span : ∀ token ∈ row, token.span line = token.spelling ∨
    row.bare.SplitsOff token.bare ∧ Comment.Complete (token.span line)

theorem exists_mem_of_bare_eq {other : Row} (hbare : row.bare = other.bare) (htoken : token ∈ row) :
    ∃ twin ∈ other, twin.bare = token.bare := by
  obtain ⟨item, hitem⟩ := List.getElem?_of_mem htoken
  obtain ⟨twin, htwin, hsame⟩ := exists_of_bare_eq hbare hitem
  exact ⟨twin, List.mem_of_getElem? htwin, hsame⟩

theorem ReadFrom.congr {other : Row} (h : other.ReadFrom line) (hbare : row.bare = other.bare) :
    row.ReadFrom line := by
  refine ⟨?_, fun token htoken => ?_, fun token htoken => ?_⟩
  · rw [← measured_bare, hbare, measured_bare]
    exact h.measured
  · obtain ⟨twin, htwin, hsame⟩ := exists_mem_of_bare_eq hbare htoken
    rw [← Token.bare_finish, ← hsame, Token.bare_finish]
    exact h.finish_le twin htwin
  · obtain ⟨twin, htwin, hsame⟩ := exists_mem_of_bare_eq hbare htoken
    have hspan := h.span twin htwin
    rw [← Token.bare_span, ← Token.bare_spelling, hsame, ← hbare] at hspan
    exact hspan

-- A row that splits off a block without its anchors does so with them.
theorem SplitsOff.exists_of_bare {block : Token} (h : row.bare.SplitsOff block) :
    ∃ other, row.SplitsOff other := by
  obtain ⟨before, comment, hrow, hcomment, hcolumn, hwhole, htext⟩ := h
  obtain ⟨first, last, rfl, -, hlast⟩ := List.map_eq_append_iff.mp hrow
  obtain ⟨line, tail, rfl, rfl, htail⟩ := List.map_eq_cons_iff.mp hlast
  obtain ⟨other, tail, rfl, rfl, hnil⟩ := List.map_eq_cons_iff.mp htail
  obtain rfl := List.map_eq_nil_iff.mp hnil
  exact ⟨other, first, line, rfl, hcomment, hcolumn, hwhole, htext⟩

theorem SplitsOff.spelling_eq {block : Token} (h : row.SplitsOff block) :
    block.spelling = ['(', '*', '*', ')'] := by
  obtain ⟨-, -, -, -, -, hkind, htext⟩ := h
  rw [Token.spelling, hkind, htext]
  rfl

theorem SplitsOff.isComment {block : Token} (h : row.SplitsOff block) : block.isComment = true := by
  obtain ⟨-, -, -, -, -, hkind, -⟩ := h
  rw [Token.isComment, hkind]
  rfl

-- Without a line comment in front of its last token a row splits off nothing.
theorem not_splitsOff (h : ∀ token ∈ row.dropLast, token.kind ≠ .comment .line) (block : Token) :
    ¬row.SplitsOff block := by
  rintro ⟨before, comment, rfl, hcomment, -⟩
  exact h comment (by simp) hcomment

theorem ReadFrom.length_span (h : row.ReadFrom line) (htoken : token ∈ row) :
    (token.span line).length = token.width := by
  have hfinish := h.finish_le token htoken
  rw [Token.finish] at hfinish
  rw [Token.span, List.length_take, List.length_drop]
  omega

theorem ReadFrom.width_eq (h : row.ReadFrom line) (htoken : token ∈ row)
    (hwhole : ∀ block, ¬row.SplitsOff block) : token.width = token.spelling.length := by
  rcases h.span token htoken with hspan | ⟨hsplits, -⟩
  · rw [← hspan, h.length_span htoken]
  · obtain ⟨other, hother⟩ := hsplits.exists_of_bare
    exact absurd hother (hwhole other)

theorem Measured.pos_width {stop : Nat} (h : row.Measured stop) (htoken : token ∈ row) :
    0 < token.width := by
  induction row generalizing stop with
  | nil => cases htoken
  | cons head rest ih =>
      rcases List.mem_cons.mp htoken with rfl | htoken
      · exact h.2.1
      · exact ih h.2.2.2 htoken

-- A comment of four characters has nothing between its marks, and so it is spelled all the same.
theorem ReadFrom.emission_eq_span (h : row.ReadFrom line) (htoken : token ∈ row)
    (hsettled : token.Settled direction) : token.emission direction = token.span line := by
  rw [hsettled.emission_eq (h.measured.pos_width htoken)]
  rcases h.span token htoken with hspan | ⟨hsplits, hcomplete⟩
  · exact hspan.symm
  · have hspelling : token.spelling = ['(', '*', '*', ')'] := hsplits.spelling_eq
    have hlength := h.length_span htoken
    rw [hsettled.spelled, hspelling] at hlength
    rw [hspelling, hcomplete.eq_of_length hlength]

-- Anchors that have stayed where they were are of use only under their own column.
theorem guarded_of_steady (habove : ∀ other ∈ above, other.Steady) (row : Row) :
    row.Guarded above := by
  intro token htoken goal hgoal
  obtain ⟨other, hother, hcolumn⟩ := Option.bind_eq_some_iff.mp hgoal
  obtain ⟨anchor, -, hfound⟩ := Option.bind_eq_some_iff.mp hother
  obtain ⟨named, hnamed, hitem⟩ := Option.bind_eq_some_iff.mp hfound
  have hsteady := habove named (List.mem_of_getElem? hnamed) other (List.mem_of_getElem? hitem)
  split at hcolumn
  · next hsame =>
    rw [hsteady, Option.some.injEq] at hcolumn
    omega
  · cases hcolumn

-- The row with every token written where it stood.
def kept (row : Row) : Row := row.map fun token => token.writtenAt token.column

theorem steady_kept (row : Row) : row.kept.Steady := by
  intro token htoken
  obtain ⟨origin, -, rfl⟩ := List.mem_map.mp htoken
  rfl

theorem kept_unwritten (row : Row) : kept (row.map Token.unwritten) = row.kept := by
  rw [kept, List.map_map]
  rfl

theorem Steady.kept_eq (h : row.Steady) : row.kept = row := by
  have hsame : ∀ token ∈ row, token.writtenAt token.column = token := by
    intro token htoken
    rw [Token.writtenAt, ← h token htoken]
  exact (List.map_congr_left hsame).trans (List.map_id row)

theorem Steady.eq_kept (h : written.Steady)
    (hsame : written.map Token.unwritten = row.map Token.unwritten) : written = row.kept := by
  rw [← h.kept_eq, ← kept_unwritten written, hsame, kept_unwritten]

theorem blanked_kept (row : Row) (line : Text) : row.kept.blanked line = row.blanked line := by
  have hcovers (place : Nat) : row.kept.covers place = row.covers place := by
    rw [covers, kept, List.any_map]
    rfl
  have hstop : row.kept.stopFrom 0 = row.stopFrom 0 := by
    rw [stopFrom, stopFrom, kept, List.getLast?_map]
    cases row.getLast? <;> rfl
  simp only [blanked, hcovers, hstop]

end Row

section Placed

variable {direction : Direction} {above : Grid} {row : Row} {line out : Text}

-- Where there is nothing to do the row stays, and only the characters between its tokens change.
theorem Placed.eq_blanked (h : Placed direction above true 0 0 row out) (hread : row.ReadFrom line)
    (hguarded : row.Guarded above) (hsettled : ∀ token ∈ row, token.Settled direction) :
    row.Steady ∧ out = row.blanked line := by
  have hspan : ∀ token ∈ row, token.emission direction = token.span line :=
    fun token htoken => hread.emission_eq_span htoken (hsettled token htoken)
  have hlength : ∀ token ∈ row, (token.emission direction).length = token.width := by
    intro token htoken
    rw [hspan token htoken, hread.length_span htoken]
  obtain ⟨hsteady, hout⟩ := h.steady rfl hguarded hlength
  exact ⟨hsteady, hout.trans (Row.lineFrom_eq_blanked hread.measured hread.finish_le hspan)⟩

-- What stands at the column of a token that nothing has moved in front of.
theorem Placed.drop_column {front rest : Row} {token : Token}
    (h : Placed direction above true 0 0 (front ++ token :: rest) out)
    (hmeasured : Row.Measured 0 (front ++ token :: rest))
    (hguarded : Row.Guarded above (front ++ token :: rest))
    (hlength : ∀ other ∈ front, (other.emission direction).length = other.width) :
    ∃ text, out.drop token.column = token.emission direction ++ text ∧ (rest = [] → text = []) := by
  obtain ⟨first, last, rfl, hfirst, hlast⟩ := h.split
  obtain ⟨-, rfl⟩ := hfirst.steady rfl
    (fun other hother => hguarded other (by simp [hother])) hlength
  have hstop := Row.length_lineFrom hmeasured hlength
  cases hlast with
  | @cons _ _ _ count _ _ text hspaced _ _ hrest =>
  have hcolumn : (front.lineFrom direction 0).length + count = token.column := by
    cases hspaced with
    | anchored hgoal =>
        have := hguarded token (by simp) _ hgoal
        omega
    | kept _ hgap =>
        rw [Row.stopFrom] at hstop
        omega
  have hgap : (front.lineFrom direction 0 ++ Text.spaces count).length = token.column := by
    rw [List.length_append, Text.length_spaces, hcolumn]
  refine ⟨text, ?_, ?_⟩
  · rw [← hgap, List.append_assoc (Text.spaces count), ← List.append_assoc, List.drop_left]
  · rintro rfl
    cases hrest
    rfl

-- A token that comes out as it stood on the line is settled.
theorem Row.ReadFrom.settled {front rest : Row} {token : Token}
    (h : Row.ReadFrom line (front ++ token :: rest)) (hbegins : line <+: out) {text : Text}
    (hdrop : out.drop token.column = token.emission direction ++ text)
    (hend : rest = [] → text = []) : token.Settled direction := by
  have hmem : token ∈ front ++ token :: rest := by simp
  have hfinish := h.finish_le token hmem
  have hwidth := h.measured.pos_width hmem
  have hlength := h.length_span hmem
  have hspan : token.span line <+: token.emission direction ++ text := by
    obtain ⟨more, rfl⟩ := hbegins
    rw [Token.finish] at hfinish
    rw [← hdrop, List.drop_append_of_le_length (by omega)]
    exact (List.take_prefix _ _).trans (List.prefix_append _ _)
  refine ⟨fun hkind => ?_, ?_⟩
  · -- a symbol would begin with another character
    by_contra hsymbol
    obtain ⟨image, himage⟩ := Option.ne_none_iff_exists'.mp hsymbol
    have hemission : token.emission direction = image := by
      simp [Token.emission, hkind, himage]
    have hspelling : token.span line = token.text := by
      rcases h.span token hmem with hspan | ⟨hsplits, -⟩
      · rw [hspan]
        simp [Token.spelling, hkind, Kind.openMark, Kind.closeMark]
      · have hcomment : token.isComment = true := hsplits.isComment
        obtain ⟨kind, hcomment⟩ := Deferral.exists_kind hcomment
        rw [hkind] at hcomment
        cases hcomment
    rw [hspelling, hemission] at hspan
    rw [hspelling] at hlength
    obtain ⟨c, tail, htext⟩ := List.exists_cons_of_length_pos (hlength ▸ hwidth)
    obtain ⟨first, last, rfl⟩ := List.exists_cons_of_ne_nil (Symbol.ne_nil_of_convert? himage)
    refine Symbol.head?_ne_of_convert? himage ?_
    rw [htext, List.cons_append] at hspan
    rw [htext, List.head?_cons, List.head?_cons, (List.cons_prefix_cons.mp hspan).1]
  · rcases h.span token hmem with hspelled | ⟨hsplits, hcomplete⟩
    · rw [← hspelled, hlength]
    · cases rest with
      | cons next rest =>
          have hitem : (front ++ token :: next :: rest)[front.length]? = some token := by simp
          have hnext : (front ++ token :: next :: rest)[front.length + 1]? = some next := by simp
          exact (h.measured.exists_of_succ hitem hnext).2.1
      | nil =>
          -- a block that was split off reads as four characters
          have hspelling : token.spelling = ['(', '*', '*', ')'] := hsplits.spelling_eq
          have hcomment : token.isComment = true := hsplits.isComment
          rw [hend rfl, List.append_nil, Token.emission_comment hcomment hwidth, hspelling] at hspan
          have hle := hspan.length_le
          have hfour := hcomplete.four_le_length
          rw [hspelling]
          simp only [List.length_cons, List.length_nil] at hle ⊢
          omega

-- The tokens up to the first one that there is something to do on have stayed, and that one would come
-- out in the place where it stood.
theorem Placed.settled (h : Placed direction above true 0 0 row out) (hread : row.ReadFrom line)
    (hguarded : row.Guarded above) (hbegins : line <+: out) :
    ∀ token ∈ row, token.Settled direction := by
  suffices hfront : ∀ front rest, row = front ++ rest → ∀ token ∈ front, token.Settled direction from
    hfront row [] (List.append_nil row).symm
  intro front
  induction front using List.reverseRecOn with
  | nil => exact fun _ _ => nofun
  | append_singleton front token ih =>
      intro rest hrow
      rw [List.append_assoc, List.singleton_append] at hrow
      have hfront := ih (token :: rest) hrow
      have hlength : ∀ other ∈ front, (other.emission direction).length = other.width := by
        intro other hother
        have hmem : other ∈ row := by simp [hrow, hother]
        rw [hread.emission_eq_span hmem (hfront other hother), hread.length_span hmem]
      subst hrow
      obtain ⟨text, hdrop, hend⟩ := h.drop_column hread.measured hguarded hlength
      intro other hother
      rcases List.mem_append.mp hother with hother | hother
      · exact hfront other hother
      · rw [List.mem_singleton.mp hother]
        exact hread.settled hbegins hdrop hend

end Placed

end TlaGlyph
