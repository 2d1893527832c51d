import TlaGlyph.Proofs.Grid.Frames
import TlaGlyph.Proofs.Grid.Measure

namespace TlaGlyph

namespace Row

-- The last of the comments that are opened is not closed.
def LeavesOpen (row : Row) : Prop :=
  ∃ (before : Row) (opening : Token) (after : Row), row = before ++ opening :: after ∧
    opening.kind = .comment .opening ∧ ∀ token ∈ after, token.kind ≠ .comment .closing

end Row

-- A comment is opened where none is open, and it goes on and is closed where one is.
structure Token.Follows (token : Token) (before : Row) : Prop where
  opening : token.kind = .comment .opening → ¬before.LeavesOpen
  closing : token.kind = .comment .closing → before.LeavesOpen
  inside : token.kind = .comment .inside → before.LeavesOpen

theorem Token.commentKind?_eq_some {token : Token} {kind : CommentKind} :
    token.commentKind? = some kind ↔ token.kind = .comment kind := by
  cases hkind : token.kind <;> simp [commentKind?, Kind.commentKind?, hkind]

namespace Row

def Alternates (row : Row) : Prop :=
  ∀ (before : Row) (token : Token) (after : Row), row = before ++ token :: after →
    token.Follows before

variable {row : Row} {token : Token}

theorem not_leavesOpen_nil : ¬LeavesOpen [] := by
  rintro ⟨before, opening, after, hrow, -⟩
  simp at hrow

theorem alternates_nil : Alternates [] := by
  intro before token after hrow
  simp at hrow

-- A token of a row that another one follows is the last one or was there before.
theorem eq_or_exists_of_concat {before after : Row} {other : Token}
    (h : row ++ [token] = before ++ other :: after) :
    (before = row ∧ other = token ∧ after = []) ∨
      ∃ rest, after = rest ++ [token] ∧ row = before ++ other :: rest := by
  rcases List.eq_nil_or_concat after with rfl | ⟨rest, last, rfl⟩
  · obtain ⟨rfl, hlast⟩ := List.append_inj' h rfl
    exact .inl ⟨rfl, (List.cons.inj hlast).1.symm, rfl⟩
  · rw [List.concat_eq_append, ← List.cons_append, ← List.append_assoc] at h
    obtain ⟨hrow, hlast⟩ := List.append_inj' h rfl
    obtain ⟨rfl, -⟩ := List.cons.inj hlast
    exact .inr ⟨rest, List.concat_eq_append, hrow⟩

theorem leavesOpen_concat :
    LeavesOpen (row ++ [token]) ↔
      token.kind = .comment .opening ∨ LeavesOpen row ∧ token.kind ≠ .comment .closing := by
  constructor
  · rintro ⟨before, opening, after, hrow, hopening, hafter⟩
    rcases eq_or_exists_of_concat hrow with ⟨-, rfl, -⟩ | ⟨rest, rfl, rfl⟩
    · exact .inl hopening
    · refine .inr ⟨⟨before, opening, rest, rfl, hopening, ?_⟩, hafter token (by simp)⟩
      exact fun other hother => hafter other (List.mem_append_left _ hother)
  · rintro (hopening | ⟨⟨before, opening, after, rfl, hopening, hafter⟩, htoken⟩)
    · exact ⟨row, token, [], rfl, hopening, by simp⟩
    · refine ⟨before, opening, after ++ [token], by simp, hopening, ?_⟩
      intro other hother
      rcases List.mem_append.mp hother with hother | hother
      · exact hafter other hother
      · rwa [List.mem_singleton.mp hother]

theorem Alternates.concat (h : row.Alternates) (htoken : token.Follows row) :
    Alternates (row ++ [token]) := by
  intro before other after hrow
  rcases eq_or_exists_of_concat hrow with ⟨rfl, rfl, -⟩ | ⟨rest, -, rfl⟩
  · exact htoken
  · exact h before other rest rfl

-- The check looks at the tokens one by one.
theorem follows_of_checkComments {above rest : Row} {line item : Nat} {isOpen left : Bool}
    (hopen : isOpen = true ↔ above.LeavesOpen)
    (h : checkComments line item isOpen (token :: rest) = .ok left) :
    token.Follows above ∧ ∃ next, checkComments line (item + 1) next rest = .ok left ∧
      (next = true ↔ LeavesOpen (above ++ [token])) := by
  rw [leavesOpen_concat, ← hopen]
  unfold checkComments at h
  split at h
  · cases h
  · cases h
  · cases h
  · next hkind =>
    have hkind := Token.commentKind?_eq_some.mp hkind
    refine ⟨⟨fun _ => ?_, ?_, ?_⟩, true, h, by simp [hkind]⟩
    · simp [← hopen]
    · simp [hkind]
    · simp [hkind]
  · next hkind =>
    have hkind := Token.commentKind?_eq_some.mp hkind
    refine ⟨⟨?_, fun _ => hopen.mp rfl, ?_⟩, false, h, by simp [hkind]⟩
    · simp [hkind]
    · simp [hkind]
  · next isOpen _ _ hdouble houtside hstray hopens hcloses =>
    simp only [Token.commentKind?_eq_some] at hdouble houtside hstray hopens hcloses
    have hopening : token.kind ≠ .comment .opening := fun hkind =>
      isOpen.eq_false_or_eq_true.elim (hdouble hkind) (hopens hkind)
    have hclosing : token.kind ≠ .comment .closing := fun hkind =>
      isOpen.eq_false_or_eq_true.elim (hcloses hkind) (hstray hkind)
    have hinside (hkind : token.kind = .comment .inside) : isOpen = true :=
      isOpen.eq_false_or_eq_true.resolve_right (houtside hkind)
    refine ⟨⟨?_, ?_, fun hkind => hopen.mp (hinside hkind)⟩, isOpen, h, ?_⟩
    · exact fun hkind => absurd hkind hopening
    · exact fun hkind => absurd hkind hclosing
    · simp [hopening, hclosing]

theorem alternates_of_checkComments {above : Row} {line item : Nat} {isOpen left : Bool}
    (hopen : isOpen = true ↔ above.LeavesOpen) (habove : above.Alternates)
    (h : row.checkComments line item isOpen = .ok left) :
    Alternates (above ++ row) ∧ (left = true ↔ LeavesOpen (above ++ row)) := by
  induction row generalizing above item isOpen with
  | nil =>
      obtain rfl : isOpen = left := Except.ok.inj h
      rw [List.append_nil]
      exact ⟨habove, hopen⟩
  | cons token rest ih =>
      obtain ⟨hfollows, next, hrest, hnext⟩ := follows_of_checkComments hopen h
      rw [List.append_cons]
      exact ih hnext (habove.concat hfollows) hrest

-- The check fails at a token of the row.
theorem checkComments_error {line item : Nat} {isOpen : Bool} {e : ConversionError}
    (h : row.checkComments line item isOpen = .error e) :
    ∃ index reason, index < row.length ∧ e = .malformedComment ⟨line, item + index⟩ reason := by
  induction row generalizing item isOpen with
  | nil => cases h
  | cons token rest ih =>
      have hrest {next : Bool} (h : checkComments line (item + 1) next rest = .error e) :
          ∃ index reason, index < (token :: rest).length ∧
            e = .malformedComment ⟨line, item + index⟩ reason := by
        obtain ⟨index, reason, hlt, he⟩ := ih h
        refine ⟨index + 1, reason, Nat.succ_lt_succ hlt, ?_⟩
        rw [he, Nat.add_assoc, Nat.add_comm 1 index]
      unfold checkComments at h
      simp only at h
      split at h
      · exact ⟨0, _, Nat.succ_pos _, (Except.error.inj h).symm⟩
      · exact ⟨0, _, Nat.succ_pos _, (Except.error.inj h).symm⟩
      · exact ⟨0, _, Nat.succ_pos _, (Except.error.inj h).symm⟩
      · exact hrest h
      · exact hrest h
      · exact hrest h

end Row

namespace Grid

-- The check of a whole grid, the first row of which has the number `line`.
def checkComments (line : Nat) (isOpen : Bool) : Grid → Except ConversionError Bool
  | [] => .ok isOpen
  | row :: rest =>
    match row.checkComments line 0 isOpen with
    | .error e => .error e
    | .ok isOpen => checkComments (line + 1) isOpen rest

theorem alternates_of_checkComments {grid : Grid} {above : Row} {line : Nat} {isOpen left : Bool}
    (hopen : isOpen = true ↔ above.LeavesOpen) (habove : above.Alternates)
    (h : grid.checkComments line isOpen = .ok left) :
    Row.Alternates (above ++ grid.flatten) ∧
      (left = true ↔ Row.LeavesOpen (above ++ grid.flatten)) := by
  induction grid generalizing above line isOpen with
  | nil =>
      obtain rfl : isOpen = left := Except.ok.inj h
      rw [List.flatten_nil, List.append_nil]
      exact ⟨habove, hopen⟩
  | cons row rest ih =>
      rw [checkComments] at h
      split at h
      · cases h
      · next next hrow =>
        obtain ⟨halternates, hnext⟩ := Row.alternates_of_checkComments hopen habove hrow
        rw [List.flatten_cons, ← List.append_assoc]
        exact ih hnext halternates h

end Grid

namespace Frame

-- The comments that are open below the line.
def left (depth : Nat) : Frame → Nat
  | prolog _ | epilog _ => depth
  | code depth line => (Row.ofLine depth line).2

theorem checkComments_row {depth : Nat} {frame : Frame} {rest : List Frame}
    (h : Linked depth (frame :: rest)) (line : Nat) :
    frame.row.checkComments line 0 (decide (0 < depth)) = .ok (decide (0 < frame.left depth)) ∧
      Linked (frame.left depth) rest := by
  cases frame with
  | prolog text | epilog text =>
      refine ⟨?_, h⟩
      cases text with
      | nil => rfl
      | cons c text => rfl
  | code entered text =>
      obtain ⟨rfl, hrest⟩ := h
      exact ⟨Row.checkComments_ofLine entered text line 0, hrest⟩

theorem exists_checkComments {depth : Nat} {frames : List Frame} (h : Linked depth frames)
    (line : Nat) :
    ∃ isOpen, Grid.checkComments line (decide (0 < depth)) (frames.map row) = .ok isOpen := by
  induction frames generalizing depth line with
  | nil => exact ⟨_, rfl⟩
  | cons frame frames ih =>
      obtain ⟨hrow, hrest⟩ := checkComments_row h line
      obtain ⟨isOpen, hframes⟩ := ih hrest (line + 1)
      exact ⟨isOpen, by rw [List.map_cons, Grid.checkComments, hrow, ← hframes]⟩

end Frame

theorem Grid.exists_checkComments_ofSource (source : Text) :
    ∃ isOpen, (ofSource source).checkComments 0 false = .ok isOpen := by
  rw [ofSource_eq_frames]
  exact Frame.exists_checkComments (linked_frames source) 0

end TlaGlyph
