import TlaGlyph.Proofs.Line.Sound

namespace TlaGlyph

-- Where a token lands on a line of the given width, if `target?` is the column where its anchor was
-- written, the token in front of it ended at `stop` in the source, and `leads` says that there is
-- nothing but comments in front of it. It goes under the anchor if the line is short enough, or if it
-- leads; in all other cases it keeps its gap, and then it stands to the right of the anchor.
structure Token.Lands (direction : Direction) (target? : Option Nat) (leads : Prop)
    (stop width : Nat) (token : Token) (column : Nat) : Prop where
  under : ∀ target, target? = some target → width ≤ target → column = target
  yielded : ∀ target, target? = some target → target < width → leads → token.isComment = false →
    direction = .toUnicode ∧ column = target
  kept : (∀ target, target? = some target →
      target < width ∧ ¬(leads ∧ token.isComment = false)) →
    stop ≤ token.column ∧ column = width + (token.column - stop) ∧
      ∀ target, target? = some target → target < column

namespace Token

variable {direction : Direction} {above : Grid} {onlyComments : Bool} {stop width : Nat}
  {token : Token}

theorem Spaced.lands {count : Nat} {leads : Prop} (hleads : onlyComments = true ↔ leads)
    (h : token.Spaced above onlyComments stop width count) :
    token.Lands direction (token.goal? above) leads stop width (width + count) := by
  cases h with
  | anchored hgoal =>
      rw [hgoal]
      refine ⟨fun target htarget _ => Option.some.inj htarget, fun target htarget hlt => ?_,
        fun hkept => ?_⟩
      · have := Option.some.inj htarget
        omega
      · have := (hkept _ rfl).1
        omega
  | kept hgoal hgap =>
      refine ⟨fun target htarget hle => ?_, fun target htarget _ hlead hcode => ?_, fun _ => ?_⟩
      · have := (hgoal target htarget).1
        omega
      · have hcomment := (hgoal target htarget).2 (hleads.mpr hlead)
        rw [hcode] at hcomment
        cases hcomment
      · refine ⟨by omega, by omega, fun target htarget => ?_⟩
        have := (hgoal target htarget).1
        omega

theorem Crowded.lands {column : Nat} {leads : Prop} (hleads : leads)
    (h : token.Crowded above onlyComments width column) :
    token.Lands .toUnicode (token.goal? above) leads stop width column := by
  have hlt := h.lt_width
  rw [h.goal]
  refine ⟨fun target htarget hle => Option.some.inj htarget,
    fun target htarget _ _ _ => ⟨rfl, Option.some.inj htarget⟩, fun hkept => ?_⟩
  exact absurd ⟨hleads, h.code⟩ (hkept column rfl).2

-- A token that leads goes under its anchor either way.
theorem Lands.eq_target {target? : Option Nat} {leads : Prop} {column target : Nat}
    (h : token.Lands direction target? leads stop width column) (hleads : leads)
    (hcode : token.isComment = false) (htarget : target? = some target) : column = target := by
  rcases Nat.lt_or_ge target width with hlt | hle
  · exact (h.yielded target htarget hlt hleads hcode).2
  · exact h.under target htarget hle

end Token

namespace Deferral

theorem observe_onlyComments (deferral : Deferral) (item : Nat) (token : Token) :
    (deferral.observe item token).onlyComments = (deferral.onlyComments && token.isComment) := by
  unfold observe
  cases hcomment : token.isComment with
  | true =>
      obtain ⟨kind, hkind⟩ := exists_kind hcomment
      simp only [hkind, Bool.and_true]
      split <;> rfl
  | false =>
      split
      · next kind hkind => exact absurd hkind (ne_comment hcomment kind)
      · rw [Bool.and_false]

theorem observe_deferring (deferral : Deferral) (item : Nat) (token : Token) :
    (deferral.observe item token).deferring = deferral.deferring := by
  unfold observe
  split
  · split <;> rfl
  · rfl

end Deferral

namespace Draft

-- The line behind the tokens, each of which is written as if more were to come. The first of them is
-- the one at `item`, and `draft` is the line in front of it.
def behind (direction : Direction) (above : Grid) (item : Nat) (previous? : Option Token)
    (draft : Draft) : Row → Draft
  | [] => draft
  | token :: rest =>
    behind direction above (item + 1) (some token)
      (draft.write direction above ⟨above.length, item⟩ previous? token).1 rest

-- The same for the first tokens of a row.
def after (direction : Direction) (above : Grid) (front : Row) : Draft :=
  behind direction above 0 none {} front

variable {direction : Direction} {above : Grid} {position : Position} {item : Nat}
  {previous? : Option Token} {token written : Token} {draft next final : Draft}

-- Only the way to Unicode makes comments wait.
theorem write_deferring {result : Except ConversionError Token}
    (h : draft.write .toAscii above position previous? token = (next, result)) :
    next.deferral.deferring = draft.deferral.deferring := by
  unfold write at h
  split at h
  · rw [← (Prod.mk.inj h).1]
  · simp only [put] at h
    split at h <;> rw [← (Prod.mk.inj h).1] <;> exact Deferral.observe_deferring _ _ _
  · next hplace => cases (Token.crowded_of_place hplace).1

theorem write_onlyComments
    (h : draft.write direction above position previous? token = (next, .ok written)) :
    next.deferral.onlyComments = (draft.deferral.onlyComments && token.isComment) := by
  rcases write_ok h with ⟨count, -, -, -, rfl⟩ | ⟨-, column, -, -, -, -, rfl⟩
  · exact Deferral.observe_onlyComments _ _ _
  · exact Deferral.observe_onlyComments _ _ _

-- The tokens of `front` have been written as `head` behind `previous?`, and `draft` has become `final`.
-- On the way to ASCII all of them are in place.
structure Reached (direction : Direction) (above : Grid) (previous? : Option Token) (front head : Row)
    (draft final : Draft) : Prop where
  unwritten_eq : head.map Token.unwritten = front.map Token.unwritten
  onlyComments_eq : final.deferral.onlyComments =
    (draft.deferral.onlyComments && front.all Token.isComment)
  deferring_eq : direction = .toAscii → final.deferral.deferring = draft.deferral.deferring
  placed : direction = .toAscii → ∃ text, final.line = draft.line ++ text ∧
    Placed .toAscii above draft.deferral.onlyComments (Token.stopOf previous?) draft.line.length head
      text

theorem reached_nil (direction : Direction) (above : Grid) (previous? : Option Token) (draft : Draft) :
    Reached direction above previous? [] [] draft draft where
  unwritten_eq := rfl
  onlyComments_eq := by simp
  deferring_eq _ := rfl
  placed _ := ⟨[], by simp, .nil _ _ _⟩

theorem Reached.cons {front head : Row}
    (hwrite : draft.write direction above position previous? token = (next, .ok written))
    (h : Reached direction above (some token) front head next final) :
    Reached direction above previous? (token :: front) (written :: head) draft final := by
  have honly := write_onlyComments hwrite
  refine ⟨?_, ?_, ?_, ?_⟩
  · rcases write_ok hwrite with ⟨count, -, -, rfl, -⟩ | ⟨-, column, -, -, -, rfl, -⟩
    · rw [List.map_cons, List.map_cons, h.unwritten_eq, Token.unwritten_writtenAt]
    · rw [List.map_cons, List.map_cons, h.unwritten_eq, Token.unwritten_writtenAt]
  · rw [h.onlyComments_eq, honly, List.all_cons, Bool.and_assoc]
  · rintro rfl
    rw [h.deferring_eq rfl, write_deferring hwrite]
  · rintro rfl
    obtain ⟨text, hline, hplaced⟩ := h.placed rfl
    rcases write_ok hwrite with ⟨count, hspaced, hallows, rfl, rfl⟩ | ⟨hdirection, -⟩
    · refine ⟨Text.spaces count ++ token.emission .toAscii ++ text, by simp [hline],
        .cons_writtenAt hspaced hallows ?_⟩
      rw [honly] at hplaced
      simpa [Nat.add_assoc, Token.stopOf] using hplaced
    · cases hdirection

theorem Reached.length_eq {front head : Row}
    (h : Reached direction above previous? front head draft final) : head.length = front.length := by
  simpa using congrArg List.length h.unwritten_eq

theorem Reached.onlyComments_iff {front head : Row}
    (h : Reached direction above previous? front head {} final) :
    final.deferral.onlyComments = true ↔ ∀ comment ∈ front, comment.isComment = true := by
  rw [h.onlyComments_eq]
  simp

variable {row left : Row} {e : ConversionError}

theorem behind_cons_of_write {front : Row}
    (h : draft.write direction above ⟨above.length, item⟩ previous? token = (next, .ok written)) :
    behind direction above item previous? draft (token :: front) =
      behind direction above (item + 1) (some token) next front := by
  rw [behind, h]

theorem getLast?_cons_or (first : Token) (front : Row) (previous? : Option Token) :
    (first :: front).getLast?.or previous? = front.getLast?.or (some first) := by
  rw [List.getLast?_cons]
  cases front.getLast? <;> rfl

theorem add_length_cons (item : Nat) (first : Token) (front : Row) :
    item + (first :: front).length = item + 1 + front.length := by
  rw [List.length_cons]
  omega

-- A row that was written to its end, cut in front of any of its tokens.
theorem writeAll_split {front rest : Row}
    (h : writeAll direction above item previous? draft (front ++ token :: rest) =
      (row, final, .ok ())) :
    ∃ head tail, row = head ++ tail ∧
      Reached direction above previous? front head draft
        (behind direction above item previous? draft front) ∧
      writeAll direction above (item + front.length) (front.getLast?.or previous?)
        (behind direction above item previous? draft front) (token :: rest) =
        (tail, final, .ok ()) := by
  induction front generalizing item previous? draft row with
  | nil => exact ⟨[], row, rfl, reached_nil direction above previous? draft, by simpa [behind] using h⟩
  | cons first front ih =>
      rw [List.cons_append] at h
      rcases writeAll_cons_ok h with ⟨hpostpones, -, -⟩ | ⟨-, next, written, tail, hwrite, hrest, rfl⟩
      -- only the last token of a row waits
      · simp [postpones] at hpostpones
      · obtain ⟨head, tail, rfl, hreached, htail⟩ := ih hrest
        rw [behind_cons_of_write hwrite, getLast?_cons_or, add_length_cons]
        exact ⟨written :: head, tail, rfl, hreached.cons hwrite, htail⟩

-- A row that was not, cut in front of the token that it failed at.
theorem exists_of_writeAll_error
    (h : writeAll direction above item previous? draft row = (left, final, .error e)) :
    ∃ front token rest head, row = front ++ token :: rest ∧ left = head ++ token :: rest ∧
      Reached direction above previous? front head draft
        (behind direction above item previous? draft front) ∧
      (behind direction above item previous? draft front).write direction above
        ⟨above.length, item + front.length⟩ (front.getLast?.or previous?) token =
        (final, .error e) := by
  induction row generalizing item previous? draft left with
  | nil => cases congrArg (·.2.2) h
  | cons first row ih =>
      rcases writeAll_cons_error h with ⟨hwrite, rfl⟩ | ⟨next, written, tail, hwrite, htail, rfl⟩
      · exact ⟨[], first, row, [], rfl, rfl, reached_nil direction above previous? draft, hwrite⟩
      · obtain ⟨front, token, rest, head, rfl, rfl, hreached, hfails⟩ := ih htail
        refine ⟨first :: front, token, rest, written :: head, rfl, rfl, ?_, ?_⟩
        · rw [behind_cons_of_write hwrite]
          exact hreached.cons hwrite
        · rw [behind_cons_of_write hwrite, getLast?_cons_or, add_length_cons]
          exact hfails

end Draft

namespace Row

-- Nothing but the output column of a token can be taken away from it.
theorem getElem?_of_unplace {deferral : Deferral} {row : Row} {item column : Nat} {placed : Token}
    (hplaced : (deferral.unplace row)[item]? = some placed)
    (hcolumn : placed.outputColumn = some column) : row[item]? = some placed := by
  rw [Deferral.unplace, List.getElem?_mapIdx] at hplaced
  obtain ⟨token, htoken, hsame⟩ := Option.map_eq_some_iff.mp hplaced
  split at hsame
  · subst hsame
    cases hcolumn
  · rw [htoken, hsame]

variable {direction : Direction} {above : Grid} {front rest written : Row} {token placed : Token}
  {line : Text} {column : Nat}

theorem lands_of_convert
    (h : convert direction above (front ++ token :: rest) = (written, .ok line))
    (hplaced : written[front.length]? = some placed) (hcolumn : placed.outputColumn = some column)
    (hgoes : (Draft.after direction above front).postpones token rest = false) :
    token.Lands direction (token.goal? above) (∀ comment ∈ front, comment.isComment = true)
      (Token.stopOf front.getLast?) (Draft.after direction above front).line.length
      column := by
  obtain ⟨all, final, hall, hwritten, -⟩ := exists_writeAll_of_convert h
  -- a token that has its column has not given way
  have hitem : all[front.length]? = some placed := by
    split at hwritten
    · rw [← hwritten] at hplaced
      exact getElem?_of_unplace hplaced hcolumn
    · rwa [hwritten]
  obtain ⟨head, tail, rfl, hreached, htail⟩ := Draft.writeAll_split hall
  rw [← Draft.after] at hreached htail
  rw [List.getElem?_append_right (Nat.le_of_eq hreached.length_eq), hreached.length_eq,
    Nat.sub_self] at hitem
  have hleads := hreached.onlyComments_iff
  rcases Draft.writeAll_cons_ok htail with
    ⟨hpostpones, -, -⟩ | ⟨-, next, first, behind, hwrite, -, rfl⟩
  · rw [hgoes] at hpostpones
    cases hpostpones
  · obtain rfl : first = placed := by simpa using hitem
    rw [Option.or_none] at hwrite
    rcases Draft.write_ok hwrite with
      ⟨count, hspaced, -, rfl, -⟩ | ⟨rfl, goal, hcrowded, -, -, rfl, -⟩
    · obtain rfl := Option.some.inj hcolumn
      exact hspaced.lands hleads
    · obtain rfl := Option.some.inj hcolumn
      exact hcrowded.lands (hleads.mp hcrowded.only)

-- The first token that is no comment is written in place whatever becomes of the comments.
theorem exists_outputColumn_of_convert
    (h : convert direction above (front ++ token :: rest) = (written, .ok line))
    (hplaced : written[front.length]? = some placed)
    (hfront : ∀ comment ∈ front, comment.isComment = true) (hcode : token.isComment = false) :
    ∃ column, placed.outputColumn = some column := by
  have hconverted := converted_of_convert h
  generalize hrow : front ++ token :: rest = row at hconverted
  cases hconverted with
  | inPlace hsame hall =>
      obtain ⟨-, -, width, count, -, hcolumn, -⟩ := hall.exists_spaced hplaced
      exact ⟨width + count, hcolumn⟩
  | @realigned comments yielded after tail code column hidden text hcomments hyielded hhidden hcrowded =>
      have htake := congrArg (List.takeWhile Token.isComment) hrow
      rw [takeWhile_isComment hfront hcode, takeWhile_isComment hcomments hcrowded.code] at htake
      subst htake
      rw [List.getElem?_append_right (by simp), List.length_map, Nat.sub_self] at hplaced
      obtain rfl := Option.some.inj hplaced
      exact ⟨column, rfl⟩

end Row

end TlaGlyph
